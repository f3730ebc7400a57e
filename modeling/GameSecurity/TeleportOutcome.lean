import GameSecurity.TeleportSafety

/- What a call is told when its wait ends. The result word and the completed id are
   shared, so the answer is its own only while no later request has stored a result. -/
namespace TeleportOutcome
open Runs SlotLedger TeleportMailbox TeleportSafety

def waiting : CallStage → Bool
  | .poll | .readResult => true
  | _ => false

/-- What a call may report of the request with this id. -/
def Truthful (w : World) (id : Int) : Outcome → Prop
  | .completed => ⟨id, 1⟩ ∈ w.processed
  | .setPositionFailed => ∃ succeeded, succeeded ≠ 1 ∧ ⟨id, succeeded⟩ ∈ w.processed
  | .timedOut => id ∉ w.processed.map Acknowledged.id
  | _ => False

def EndsWait (w v : World) (c : CallId) (outcome : Outcome) : Prop :=
  waiting (w.calls c).stage = true ∧ (v.calls c).stage = .returned outcome

/-- A step that ends the wait of a call tells it what became of its own request. -/
def Attributed (w : World) (a : Act) : Prop :=
  ∀ v ∈ w.step a, ∀ p ∈ w.published, ∀ outcome,
    EndsWait w v p.holder outcome → Truthful w p.id outcome

def storedId (w : World) : Int :=
  if w.game.stage = .storeCompleted then w.game.requestId else w.completedId

def Timely (w : World) (c : CallId) : Prop :=
  storedId w ≤ (w.calls c).previous + 2

instance (w : World) (c : CallId) : Decidable (Timely w c) :=
  inferInstanceAs (Decidable (_ ≤ _))

/-- A call that gives up waiting or reads the result does so before the game thread has
   stored the result of a later request. -/
def Prompt (w : World) : Act → Prop
  | .poll c expired =>
    expired = true → w.completedId ≠ long ((w.calls c).previous + 2) → Timely w c
  | .advance c => (w.calls c).stage = .readResult → Timely w c
  | _ => True

instance (w : World) : ∀ a, Decidable (Prompt w a)
  | .poll c expired =>
    inferInstanceAs (Decidable
      (expired = true → w.completedId ≠ long ((w.calls c).previous + 2) → Timely w c))
  | .advance c => inferInstanceAs (Decidable ((w.calls c).stage = .readResult → Timely w c))
  | .call .. => inferInstanceAs (Decidable True)
  | .tick _ => inferInstanceAs (Decidable True)
  | .process => inferInstanceAs (Decidable True)
  | .publishPosition _ => inferInstanceAs (Decidable True)

/-- Whose result the result word holds, and what a call that is to read it has seen. -/
structure Recorded (w : World) : Prop where
  result : w.game.stage ≠ .storeCompleted →
    w.completedId = 0 ∨ ⟨w.completedId, w.succeeded⟩ ∈ w.processed
  storing : w.game.stage = .storeCompleted → w.succeeded = w.game.succeeded
  seen : ∀ p ∈ w.published, (w.calls p.holder).stage = .readResult → p.id ≤ w.completedId
  positive : ∀ p ∈ w.published, 0 < p.id

theorem recorded_start {w : World} (start : Starting w) : Recorded w := by
  obtain ⟨-, completed, -, game, published, -, -⟩ := start
  constructor
  case result => exact fun _ => Or.inl completed
  case storing =>
    intro stage
    rw [game] at stage
    cases stage
  case seen => simp [published]
  case positive => simp [published]

theorem entry_number {w : World} {writer : Option CallId} (safe : Safe w writer)
    (h : Recorded w) {p : Entry CallId Vector3} (member : p ∈ w.published) :
    (w.calls p.holder).previous + 2 = p.id ∧ long ((w.calls p.holder).previous + 2) = p.id := by
  have sent := (safe.senders p member).previous
  have low := h.positive p member
  have high : p.id ≤ longMax := by
    have bounds := ledger_bounds safe.ledger
    have limit := safe.limit
    rcases safe.ledger.pending p member with done | ⟨current, -⟩
    · have := (safe.ledger.settled p.id done).1
      omega
    · omega
  refine ⟨sent, ?_⟩
  rw [sent]
  exact long_eq (by omega) high

/-- A step of a call that leaves the ids, the result and the game thread as they are. -/
theorem recorded_call {w v : World} {c : CallId} {call : Call} (h : Recorded w)
    (calls : v.calls = Function.update w.calls c call) (published : v.published = w.published)
    (seen : ∀ p ∈ w.published, p.holder = c → call.stage = .readResult → p.id ≤ w.completedId)
    (game : v.game = w.game) (completed : v.completedId = w.completedId)
    (succeeded : v.succeeded = w.succeeded) (processed : v.processed = w.processed) :
    Recorded v := by
  constructor
  case result =>
    rw [game, completed, succeeded, processed]
    exact h.result
  case storing =>
    rw [game, succeeded]
    exact h.storing
  case seen =>
    intro p member stage
    rw [completed]
    rw [published] at member
    rw [calls] at stage
    by_cases own : p.holder = c
    · rw [own, Function.update_self] at stage
      exact seen p member own stage
    · rw [Function.update_of_ne own] at stage
      exact h.seen p member stage
  case positive =>
    rw [published]
    exact h.positive

theorem recorded_advance {w v : World} {c : CallId} {call : Call} (h : Recorded w)
    (stage : call.stage ≠ .readResult) (calls : v.calls = Function.update w.calls c call)
    (published : v.published = w.published) (game : v.game = w.game)
    (completed : v.completedId = w.completedId) (succeeded : v.succeeded = w.succeeded)
    (processed : v.processed = w.processed) : Recorded v :=
  recorded_call h calls published (fun _ _ _ reads => absurd reads stage) game completed
    succeeded processed

theorem publish_recorded {w : World} {writer : Option CallId} {c : CallId}
    (safe : Safe w writer) (h : Recorded w) (stage : (w.calls c).stage = .publish) :
    Recorded (w.publish c (w.calls c)) := by
  obtain ⟨-, -, -, -, number⟩ := publish_number safe stage
  have nonneg := safe.ledger.nonneg
  constructor
  case result => exact h.result
  case storing => exact h.storing
  case seen =>
    intro p member reads
    simp only [World.publish, World.setCall] at reads
    by_cases own : p.holder = c
    · rw [own, Function.update_self] at reads
      cases reads
    · rw [Function.update_of_ne own] at reads
      rcases List.mem_append.mp member with old | last
      · exact h.seen p old reads
      · rw [List.mem_singleton.mp last] at own
        exact absurd rfl own
  case positive =>
    intro p member
    rcases List.mem_append.mp member with old | last
    · exact h.positive p old
    · rw [List.mem_singleton.mp last, number]
      show 0 < w.completedId + 2
      omega

theorem advance_recorded {w v : World} {writer : Option CallId} {c : CallId}
    (safe : Safe w writer) (h : Recorded w) (taken : w.advance c (w.calls c) = some v) :
    Recorded v := by
  cases stage : (w.calls c).stage <;>
    simp only [World.advance, stage, Option.some.injEq, reduceCtorEq] at taken
  all_goals subst taken
  case readRequest =>
    refine recorded_advance h ?_ rfl rfl rfl rfl rfl rfl
    by_cases rest : w.requestId % 2 = 0 <;> simp [rest]
  case readCompleted =>
    refine recorded_advance h ?_ rfl rfl rfl rfl rfl rfl
    by_cases same : (w.calls c).previous = w.completedId <;> simp [same]
  case acquire =>
    unfold World.acquire
    split
    · exact recorded_advance h (by simp) rfl rfl rfl rfl rfl rfl
    · exact recorded_advance h (by simp) rfl rfl rfl rfl rfl rfl
  case publish => exact publish_recorded safe h stage
  all_goals exact recorded_advance h (by simp) rfl rfl rfl rfl rfl rfl

theorem poll_recorded {w : World} {writer : Option CallId} {c : CallId} {expired : Bool}
    (safe : Safe w writer) (h : Recorded w) :
    Recorded (w.setCall c { w.calls c with stage := w.poll (w.calls c) expired }) := by
  refine recorded_call h rfl rfl ?_ rfl rfl rfl rfl
  intro p member own reads
  subst own
  obtain ⟨-, number⟩ := entry_number safe h member
  simp only [World.poll, number] at reads
  split at reads
  · rename_i same
    exact Int.le_of_eq same.symm
  · split at reads <;> cases reads

theorem recorded_setGame {w : World} {game : Game} (h : Recorded w)
    (before : w.game.stage ≠ .storeCompleted) (after : game.stage ≠ .storeCompleted) :
    Recorded (w.setGame game) where
  result _ := h.result before
  storing stores := absurd stores after
  seen := h.seen
  positive := h.positive

theorem process_recorded {w v : World} {writer : Option CallId} (safe : Safe w writer)
    (h : Recorded w) (taken : w.process w.game = some v) : Recorded v := by
  cases stage : w.game.stage <;>
    simp only [World.process, stage, Option.some.injEq, reduceCtorEq] at taken
  all_goals subst taken
  case readRequest =>
    apply recorded_setGame h (by simp [stage])
    simp only
    split <;> simp
  case readCompleted =>
    apply recorded_setGame h (by simp [stage])
    by_cases same : w.game.requestId = w.completedId <;> simp [same]
  case recheck =>
    apply recorded_setGame h (by simp [stage])
    by_cases same : w.game.requestId = w.requestId <;> simp [same]
  case setPosition =>
    have before : w.game.stage ≠ .storeCompleted := by simp [stage]
    unfold World.setPosition
    split
    · constructor
      case result => exact fun _ => h.result before
      case storing => exact fun stores => by cases stores
      case seen => exact h.seen
      case positive => exact h.positive
    · exact recorded_setGame h before (by simp)
  case storeSucceeded =>
    constructor
    case result => exact fun idle => absurd rfl idle
    case storing => exact fun _ => rfl
    case seen => exact h.seen
    case positive => exact h.positive
  case storeCompleted =>
    have here := safe.game
    simp only [GameAt, stage] at here
    have next := here.1.1
    constructor
    case result =>
      intro _
      right
      show ⟨w.game.requestId, w.succeeded⟩ ∈ w.processed ++ [_]
      rw [h.storing stage]
      exact List.mem_append_right _ (List.mem_singleton_self _)
    case storing => exact fun stores => by cases stores
    case seen =>
      intro p member reads
      have := h.seen p member reads
      show p.id ≤ w.game.requestId
      omega
    case positive => exact h.positive
  all_goals exact recorded_setGame h (by simp [stage]) (by simp)

theorem step_recorded {w v : World} {writer : Option CallId} {a : Act} (safe : Safe w writer)
    (h : Recorded w) (taken : w.step a = some v) : Recorded v := by
  cases a with
  | call c position tickObserved playerAvailable =>
    simp only [World.step, Option.ite_none_right_eq_some, Option.some.injEq] at taken
    obtain ⟨-, rfl⟩ := taken
    refine recorded_advance h ?_ rfl rfl rfl rfl rfl rfl
    unfold queueTeleport
    split
    · simp
    · split
      · simp
      · split <;> simp
  | advance c => exact advance_recorded safe h taken
  | poll c expired =>
    simp only [World.step, Option.ite_none_right_eq_some, Option.some.injEq] at taken
    obtain ⟨-, rfl⟩ := taken
    exact poll_recorded safe h
  | tick ready =>
    simp only [World.step, Option.ite_none_right_eq_some, Option.some.injEq] at taken
    obtain ⟨stage, rfl⟩ := taken
    apply recorded_setGame h (by simp [stage])
    cases ready <;> simp
  | process => exact process_recorded safe h taken
  | publishPosition result =>
    simp only [World.step, Option.ite_none_right_eq_some, Option.some.injEq] at taken
    obtain ⟨stage, rfl⟩ := taken
    exact recorded_setGame h (by simp [stage]) (by simp)

theorem reachable_recorded {w : World} (reach : mailbox.Reachable w) :
    (∃ writer, Safe w writer) ∧ Recorded w := by
  have safe := fun u (reach : mailbox.Reachable u) =>
    reachable_invariant mailbox safe_invariant reach
  refine ⟨safe w reach, ?_⟩
  exact reachable_invariant_using mailbox safe (fun _ start => recorded_start start)
    (fun _ _ _ ⟨_, safe⟩ h taken => step_recorded safe h taken) reach

theorem ends_wait {w v : World} {a : Act} {c : CallId} {outcome : Outcome}
    (taken : w.step a = some v) (ends : EndsWait w v c outcome) :
    a = .advance c ∧ (w.calls c).stage = .readResult ∧
        outcome = (if w.succeeded = 1 then .completed else .setPositionFailed) ∨
      a = .poll c true ∧ w.completedId ≠ long ((w.calls c).previous + 2) ∧
        outcome = .timedOut := by
  obtain ⟨waits, returned⟩ := ends
  -- a step that leaves the call alone does not end its wait
  have moved : v.calls c ≠ w.calls c := by
    intro same
    rw [← same, returned] at waits
    cases waits
  have other : ∀ {d call}, v.calls = Function.update w.calls d call → c = d ∧ v.calls c = call := by
    intro d call calls
    by_cases own : c = d
    · subst own
      exact ⟨rfl, by rw [calls, Function.update_self]⟩
    · rw [calls, Function.update_of_ne own] at moved
      exact absurd rfl moved
  cases a with
  | call d position tickObserved playerAvailable =>
    simp only [World.step, Option.ite_none_right_eq_some, Option.some.injEq] at taken
    obtain ⟨stage, rfl⟩ := taken
    obtain ⟨rfl, -⟩ := other rfl
    rw [stage] at waits
    cases waits
  | advance d =>
    simp only [World.step] at taken
    cases stage : (w.calls d).stage <;>
      simp only [World.advance, stage, Option.some.injEq, reduceCtorEq] at taken
    all_goals subst taken
    case readResult =>
      obtain ⟨rfl, after⟩ := other rfl
      left
      rw [after] at returned
      exact ⟨rfl, stage, (CallStage.returned.inj returned).symm⟩
    case acquire =>
      have same : c = d := by
        unfold World.acquire at other
        split at other
        · exact (other rfl).1
        · exact (other rfl).1
      subst same
      rw [stage] at waits
      cases waits
    all_goals
      obtain ⟨rfl, -⟩ := other rfl
      rw [stage] at waits
      cases waits
  | poll d expired =>
    simp only [World.step, Option.ite_none_right_eq_some, Option.some.injEq] at taken
    obtain ⟨stage, rfl⟩ := taken
    obtain ⟨rfl, after⟩ := other rfl
    right
    rw [after] at returned
    simp only [World.poll] at returned
    split at returned
    · cases returned
    · split at returned
      · rename_i different late
        exact ⟨by rw [late], different, (CallStage.returned.inj returned).symm⟩
      · cases returned
  | process =>
    simp only [World.step] at taken
    cases stage : w.game.stage <;>
      simp only [World.process, stage, Option.some.injEq, reduceCtorEq] at taken
    all_goals subst taken
    case setPosition =>
      unfold World.setPosition at moved
      split at moved <;> exact absurd rfl moved
    all_goals exact absurd rfl moved
  | _ =>
    simp only [World.step, Option.ite_none_right_eq_some, Option.some.injEq] at taken
    obtain ⟨-, rfl⟩ := taken
    exact absurd rfl moved

theorem timely_result {w : World} {writer : Option CallId} (safe : Safe w writer)
    (h : Recorded w) {p : Entry CallId Vector3} (member : p ∈ w.published)
    (stage : (w.calls p.holder).stage = .readResult) (timely : Timely w p.holder) :
    ⟨p.id, w.succeeded⟩ ∈ w.processed := by
  have seen := h.seen p member stage
  have positive := h.positive p member
  obtain ⟨sent, -⟩ := entry_number safe h member
  unfold Timely storedId at timely
  rw [sent] at timely
  have idle : w.game.stage ≠ .storeCompleted := by
    intro stores
    have here := safe.game
    simp only [GameAt, stores] at here
    have next := here.1.1
    rw [if_pos stores] at timely
    omega
  rw [if_neg idle] at timely
  have same : w.completedId = p.id := by omega
  rcases h.result idle with none | stored
  · omega
  · rwa [same] at stored

theorem timely_timeout {w : World} {writer : Option CallId} (safe : Safe w writer)
    (h : Recorded w) {p : Entry CallId Vector3} (member : p ∈ w.published)
    (open' : w.completedId ≠ p.id) (timely : Timely w p.holder) :
    p.id ∉ w.processed.map Acknowledged.id := by
  intro done
  have settled := (safe.ledger.settled p.id done).1
  obtain ⟨sent, -⟩ := entry_number safe h member
  unfold Timely storedId at timely
  rw [sent] at timely
  split at timely
  · rename_i stores
    have here := safe.game
    simp only [GameAt, stores] at here
    have next := here.1.1
    omega
  · omega

theorem prompt_attributed {w : World} {a : Act} (reach : mailbox.Reachable w)
    (prompt : Prompt w a) : Attributed w a := by
  obtain ⟨⟨writer, safe⟩, h⟩ := reachable_recorded reach
  intro v taken p member outcome ends
  rcases ends_wait taken ends with ⟨rfl, stage, rfl⟩ | ⟨rfl, different, rfl⟩
  · have stored := timely_result safe h member stage (prompt stage)
    by_cases success : w.succeeded = 1
    · rw [if_pos success]
      rwa [success] at stored
    · rw [if_neg success]
      exact ⟨w.succeeded, success, stored⟩
  · obtain ⟨-, number⟩ := entry_number safe h member
    have timely := prompt rfl different
    rw [number] at different
    exact timely_timeout safe h member different timely

/-- In a run whose waits all end in time every call is told what became of its own
   request. -/
theorem outcome_attributed {start : World} {actions : List Act} (begun : Starting start)
    (prompt : mailbox.Along Prompt start actions) : mailbox.Along Attributed start actions :=
  along_imp mailbox (fun _ _ => prompt_attributed) (reachable_start mailbox begun) prompt

/-- Call 0 publishes request 2, the game refuses it, and the call sees it completed. -/
def refused : List Act :=
  [.call 0 oneTwoThree true true, .advance 0, .advance 0, .advance 0, .advance 0, .advance 0,
   .advance 0, .advance 0, .tick true, .process, .process, .process, .process, .process,
   .process, .process, .publishPosition none, .process, .process, .poll 0 false]

theorem outcome_attributed_refused :
    mailbox.Along Prompt zeroWorld (refused ++ [.advance 0]) ∧
      mailbox.Along Attributed zeroWorld (refused ++ [.advance 0]) := by
  have prompt : mailbox.Along Prompt zeroWorld (refused ++ [.advance 0]) := by
    decide +kernel
  have begun : Starting zeroWorld := ⟨rfl, rfl, fun _ => rfl, rfl, rfl, rfl, rfl⟩
  exact ⟨prompt, outcome_attributed begun prompt⟩

/-- Before call 0 reads the result, call 1 has its own request carried out. -/
def overtaken : List Act :=
  refused ++
    [.call 1 threeTwoOne true true, .advance 1, .advance 1, .advance 1, .advance 1, .advance 1,
     .advance 1, .advance 1, .tick true, .process, .process, .process, .process, .process,
     .process, .process, .publishPosition (some threeTwoOne), .process]

def overtakenWorld : World := (mailbox.exec zeroWorld overtaken).get rfl

theorem outcome_overtaken : ¬ mailbox.Along Attributed zeroWorld (overtaken ++ [.advance 0]) := by
  intro along
  have here : Attributed overtakenWorld (.advance 0) :=
    along_at mailbox along (Option.some_get _).symm
  have told : Truthful overtakenWorld 2 .completed :=
    here _ rfl ⟨2, 0, oneTwoThree⟩ (List.mem_cons_self ..) .completed ⟨rfl, rfl⟩
  have processed : overtakenWorld.processed = [⟨2, 0⟩] := rfl
  simp [Truthful, processed] at told

end TeleportOutcome
