import GameSecurity.TeleportMailbox

/- The mailbox passes whole requests to the game thread, each at most once. The ledger
   says how the two ids, the three coordinate words and the histories hang together; what
   the stage of each party adds to it is below. -/
namespace TeleportSafety
open Runs SlotLedger TeleportMailbox

/-- A call that has the mailbox holds the completed id as its previous one. -/
def Owns (w : World) (holds : Prop) (call : Call) : Prop :=
  holds ∧ call.previous = w.completedId ∧ call.previous ≤ longMax - 2

def CallAt (w : World) (holds : Prop) (call : Call) : Prop :=
  match call.stage with
  | .readCompleted => ¬ holds ∧ call.previous % 2 = 0
  | .acquire => ¬ holds ∧ call.previous % 2 = 0 ∧ call.previous ≤ w.completedId
  | .writeX => Owns w holds call
  | .writeY => Owns w holds call ∧ w.teleport.x = call.position.x
  | .writeZ =>
    Owns w holds call ∧ w.teleport.x = call.position.x ∧ w.teleport.y = call.position.y
  | .publish => Owns w holds call ∧ w.teleport = call.position
  | _ => ¬ holds

def waits : CallStage → Bool
  | .poll | .readResult | .returned _ => true
  | _ => false

/-- The call that published an entry only waits for it from then on. -/
structure Sent (call : Call) (entry : Entry CallId Vector3) : Prop where
  position : call.position = entry.payload
  previous : call.previous + 2 = entry.id
  waiting : waits call.stage = true

def Fresh (w : World) : Prop := ∀ e ∈ w.executed, e.id ≤ w.completedId

def Serving (w : World) (game : Game) : Prop :=
  game.requestId = w.completedId + 2 ∧ w.requestId = w.completedId + 2

def Carried (w : World) (game : Game) : Prop :=
  (∀ e ∈ w.executed, e.id ≤ game.requestId) ∧
    (ValidTeleport game.requested → ⟨game.requestId, game.requested⟩ ∈ w.executed)

def GameAt (w : World) (game : Game) : Prop :=
  match game.stage with
  | .idle | .readRequest => Fresh w
  | .readCompleted => Fresh w ∧ (game.requestId = w.completedId ∨ Serving w game)
  | .copyX => Fresh w ∧ Serving w game
  | .copyY => Fresh w ∧ Serving w game ∧ game.requested.x = w.teleport.x
  | .copyZ =>
    Fresh w ∧ Serving w game ∧ game.requested.x = w.teleport.x ∧
      game.requested.y = w.teleport.y
  | .recheck | .setPosition => Fresh w ∧ Serving w game ∧ game.requested = w.teleport
  | .publishPosition | .storeSucceeded | .storeCompleted =>
    Serving w game ∧ game.requested = w.teleport ∧ Carried w game

/-- The invariant of the mailbox, for the call that has it, if any. -/
structure Safe (w : World) (writer : Option CallId) : Prop where
  ledger : Ledger w.requestId w.completedId writer w.teleport w.published
    (w.processed.map Acknowledged.id)
  limit : w.requestId ≤ longMax
  calls : ∀ c, CallAt w (writer = some c) (w.calls c)
  senders : ∀ p ∈ w.published, Sent (w.calls p.holder) p
  game : GameAt w w.game
  known : ∀ e ∈ w.executed, ∃ p ∈ w.published, p.id = e.id ∧ p.payload = e.position
  once : (w.executed.map Execution.id).Nodup
  done : ∀ p ∈ w.published, p.id ∈ w.processed.map Acknowledged.id →
    ValidTeleport p.payload → ⟨p.id, p.payload⟩ ∈ w.executed

theorem safe_start {w : World} (start : Starting w) : Safe w none := by
  obtain ⟨request, completed, calls, game, published, executed, processed⟩ := start
  constructor
  case ledger =>
    rw [request, completed, published, processed]
    exact ledger_start
  case limit =>
    rw [request]
    decide
  case calls =>
    intro c
    simp [CallAt, calls c]
  case senders =>
    simp [published]
  case game =>
    simp [GameAt, Fresh, game, executed]
  case known =>
    simp [executed]
  case once =>
    simp [executed]
  case done =>
    simp [published]

/-- A step of another party keeps what a call's stage says: completions only grow, and
   the words of the call that has the mailbox stay as they are. -/
theorem callAt_frame {w v : World} {holds holds' : Prop} {call : Call}
    (h : CallAt w holds call) (same : holds ↔ holds')
    (grows : w.completedId ≤ v.completedId)
    (kept : holds → v.completedId = w.completedId ∧ v.teleport = w.teleport) :
    CallAt v holds' call := by
  have owned : Owns w holds call → Owns v holds' call ∧ v.teleport = w.teleport := by
    intro ⟨own, previous, fits⟩
    obtain ⟨completed, teleport⟩ := kept own
    exact ⟨⟨same.mp own, previous.trans completed.symm, fits⟩, teleport⟩
  cases stage : call.stage <;> simp only [CallAt, stage] at h ⊢
  case readCompleted => exact ⟨fun own => h.1 (same.mpr own), h.2⟩
  case acquire => exact ⟨fun own => h.1 (same.mpr own), h.2.1, Int.le_trans h.2.2 grows⟩
  case writeX => exact (owned h).1
  case writeY =>
    obtain ⟨own, teleport⟩ := owned h.1
    exact ⟨own, teleport ▸ h.2⟩
  case writeZ =>
    obtain ⟨own, teleport⟩ := owned h.1
    exact ⟨own, teleport ▸ h.2⟩
  case publish =>
    obtain ⟨own, teleport⟩ := owned h.1
    exact ⟨own, teleport.trans h.2⟩
  all_goals exact fun own => h (same.mpr own)

/-- With nothing pending the game thread depends on the completed id alone. -/
theorem gameAt_frame {w v : World} {game : Game} (h : GameAt w game)
    (rest : w.requestId ≠ w.completedId + 2) (completed : v.completedId = w.completedId)
    (executed : v.executed = w.executed) : GameAt v game := by
  have idle : ¬ Serving w game := fun serving => rest serving.2
  have fresh : Fresh w → Fresh v := by
    intro old e member
    rw [executed] at member
    rw [completed]
    exact old e member
  cases stage : game.stage <;> simp only [GameAt, stage] at h ⊢
  case idle => exact fresh h
  case readRequest => exact fresh h
  case readCompleted =>
    obtain ⟨old, same | serving⟩ := h
    · exact ⟨fresh old, Or.inl (same.trans completed.symm)⟩
    · exact absurd serving idle
  case copyX => exact absurd h.2 idle
  case copyY => exact absurd h.2.1 idle
  case copyZ => exact absurd h.2.1 idle
  case recheck => exact absurd h.2.1 idle
  case setPosition => exact absurd h.2.1 idle
  all_goals exact absurd h.1 idle

theorem calls_update {w v : World} {writer writer' : Option CallId} {c : CallId} {call : Call}
    (h : ∀ d, CallAt w (writer = some d) (w.calls d)) (here : CallAt v (writer' = some c) call)
    (same : ∀ d, d ≠ c → (writer = some d ↔ writer' = some d))
    (grows : w.completedId ≤ v.completedId)
    (kept : ∀ d, d ≠ c → writer = some d →
      v.completedId = w.completedId ∧ v.teleport = w.teleport) (d : CallId) :
    CallAt v (writer' = some d) (Function.update w.calls c call d) := by
  by_cases own : d = c
  · subst own
    rw [Function.update_self]
    exact here
  · rw [Function.update_of_ne own]
    exact callAt_frame (h d) (same d own) grows (kept d own)

theorem senders_update {w : World} {c : CallId} {call : Call}
    (h : ∀ p ∈ w.published, Sent (w.calls p.holder) p)
    (sent : ∀ p, Sent (w.calls c) p → Sent call p) (p : Entry CallId Vector3)
    (member : p ∈ w.published) : Sent (Function.update w.calls c call p.holder) p := by
  by_cases own : p.holder = c
  · rw [own, Function.update_self]
    exact sent p (own ▸ h p member)
  · rw [Function.update_of_ne own]
    exact h p member

theorem unsent {call : Call} (early : waits call.stage = false) (p : Entry CallId Vector3) :
    ¬ Sent call p := by
  intro sent
  rw [sent.waiting] at early
  cases early

theorem safe_setCall {w : World} {writer : Option CallId} {c : CallId} {call : Call}
    (h : Safe w writer) (here : CallAt w (writer = some c) call)
    (sent : ∀ p, Sent (w.calls c) p → Sent call p) : Safe (w.setCall c call) writer where
  ledger := h.ledger
  limit := h.limit
  calls := calls_update h.calls here (fun _ _ => Iff.rfl) (Int.le_refl _)
    fun _ _ _ => ⟨rfl, rfl⟩
  senders := senders_update h.senders sent
  game := h.game
  known := h.known
  once := h.once
  done := h.done

/-- The compare-and-swap succeeds only on a free mailbox, and the new id does not wrap. -/
theorem acquire_free {w : World} {writer : Option CallId} {c : CallId} (h : Safe w writer)
    (stage : (w.calls c).stage = .acquire) (fits : (w.calls c).previous ≤ longMax - 2)
    (same : w.requestId = (w.calls c).previous) :
    writer = none ∧ w.requestId = w.completedId ∧ (w.calls c).previous = w.completedId ∧
      long ((w.calls c).previous + 1) = w.completedId + 1 := by
  have here := h.calls c
  simp only [CallAt, stage] at here
  obtain ⟨-, rest, done⟩ := here
  obtain ⟨idle, current⟩ := ledger_free h.ledger rest done same
  have nonneg := h.ledger.nonneg
  have number : long ((w.calls c).previous + 1) = (w.calls c).previous + 1 := by
    apply long_eq
    · omega
    · omega
  exact ⟨idle, by omega, current.symm, by omega⟩

theorem safe_acquire {w : World} {writer : Option CallId} {c : CallId}
    (h : Safe w writer) (stage : (w.calls c).stage = .acquire) :
    ∃ writer', Safe (w.acquire c (w.calls c)) writer' := by
  have here := h.calls c
  simp only [CallAt, stage] at here
  have new : ∀ p, ¬ Sent (w.calls c) p := unsent (by rw [stage]; rfl)
  unfold World.acquire
  split
  · exact ⟨writer, safe_setCall h here.1 fun p sent => absurd sent (new p)⟩
  · rename_i taken
    simp only [not_or, not_not, gt_iff_lt, Int.not_lt] at taken
    obtain ⟨fits, same⟩ := taken
    obtain ⟨idle, free, current, number⟩ := acquire_free h stage fits same
    subst idle
    refine ⟨some c, ?_⟩
    constructor
    case ledger =>
      rw [number]
      exact ledger_acquire h.ledger free c
    case limit =>
      rw [number]
      show w.completedId + 1 ≤ longMax
      omega
    case calls =>
      apply calls_update h.calls
      · exact ⟨rfl, current, fits⟩
      · exact fun d other => by simp [Ne.symm other]
      · exact Int.le_refl _
      · exact fun d _ own => by cases own
    case senders => exact senders_update h.senders fun p sent => absurd sent (new p)
    case game => exact gameAt_frame h.game (by omega) rfl rfl
    case known => exact h.known
    case once => exact h.once
    case done => exact h.done

theorem safe_write {w : World} {c : CallId} {call : Call} {teleport : Vector3}
    (h : Safe w (some c)) (new : ∀ p, ¬ Sent (w.calls c) p)
    (here : CallAt { w.setCall c call with teleport } (some c = some c) call) :
    Safe { w.setCall c call with teleport } (some c) where
  ledger := ledger_write h.ledger
  limit := h.limit
  calls := calls_update h.calls here (fun _ _ => Iff.rfl) (Int.le_refl _)
    fun d other own => absurd (Option.some.inj own).symm other
  senders := senders_update h.senders fun p sent => absurd sent (new p)
  game := by
    have := h.ledger.writing c rfl
    exact gameAt_frame h.game (by omega) rfl rfl
  known := h.known
  once := h.once
  done := h.done

theorem publish_number {w : World} {writer : Option CallId} {c : CallId} (h : Safe w writer)
    (stage : (w.calls c).stage = .publish) :
    writer = some c ∧ w.requestId = w.completedId + 1 ∧ w.completedId + 2 ≤ longMax ∧
      (w.calls c).previous = w.completedId ∧
      long ((w.calls c).previous + 2) = w.completedId + 2 := by
  have here := h.calls c
  simp only [CallAt, stage] at here
  obtain ⟨⟨own, current, fits⟩, -⟩ := here
  have nonneg := h.ledger.nonneg
  have number : long ((w.calls c).previous + 2) = (w.calls c).previous + 2 := by
    apply long_eq
    · omega
    · omega
  exact ⟨own, h.ledger.writing c own, by omega, current, by omega⟩

theorem safe_publish {w : World} {c : CallId} (h : Safe w (some c))
    (stage : (w.calls c).stage = .publish) : Safe (w.publish c (w.calls c)) none := by
  have here := h.calls c
  simp only [CallAt, stage] at here
  have teleport := here.2
  obtain ⟨-, odd, fits, current, number⟩ := publish_number h stage
  have ledger := ledger_publish h.ledger
  constructor
  case ledger =>
    simp only [World.publish, number, ← teleport]
    exact ledger
  case limit =>
    simp only [World.publish, number]
    exact fits
  case calls =>
    apply calls_update h.calls
    · simp [CallAt]
    · exact fun d other => by simp [Ne.symm other]
    · exact Int.le_refl _
    · exact fun _ _ _ => ⟨rfl, rfl⟩
  case senders =>
    intro p member
    rcases List.mem_append.mp member with old | last
    · have new : ∀ p, ¬ Sent (w.calls c) p := unsent (by rw [stage]; rfl)
      exact senders_update h.senders (fun p sent => absurd sent (new p)) p old
    · rw [List.mem_singleton.mp last, number]
      simp only [World.publish, World.setCall, Function.update_self]
      exact ⟨rfl, by simp [current], rfl⟩
  case game => exact gameAt_frame h.game (by omega) rfl rfl
  case known =>
    intro e member
    obtain ⟨p, old, same⟩ := h.known e member
    exact ⟨p, List.mem_append_left _ old, same⟩
  case once => exact h.once
  case done =>
    intro p member processed valid
    rcases List.mem_append.mp member with old | last
    · exact h.done p old processed valid
    · -- the new request is not among the processed ones
      exfalso
      have waiting := ledger_pending_open ledger rfl
      rw [List.mem_singleton.mp last, number] at processed
      exact waiting processed

theorem safe_setGame {w : World} {writer : Option CallId} {game : Game} (h : Safe w writer)
    (here : GameAt w game) : Safe (w.setGame game) writer where
  ledger := h.ledger
  limit := h.limit
  calls := h.calls
  senders := h.senders
  game := here
  known := h.known
  once := h.once
  done := h.done

theorem advance_safe {w v : World} {writer : Option CallId} {c : CallId} (h : Safe w writer)
    (taken : w.advance c (w.calls c) = some v) : ∃ writer', Safe v writer' := by
  have here := h.calls c
  have new : waits (w.calls c).stage = false → ∀ p, ¬ Sent (w.calls c) p := unsent
  cases stage : (w.calls c).stage <;>
    simp only [World.advance, stage, Option.some.injEq, reduceCtorEq] at taken
  all_goals subst taken
  case readRequest =>
    simp only [CallAt, stage] at here
    refine ⟨writer, safe_setCall h ?_ fun p sent => absurd sent (new (by rw [stage]; rfl) p)⟩
    by_cases rest : w.requestId % 2 = 0 <;> simp [CallAt, rest, here]
  case readCompleted =>
    simp only [CallAt, stage] at here
    refine ⟨writer, safe_setCall h ?_ fun p sent => absurd sent (new (by rw [stage]; rfl) p)⟩
    by_cases same : (w.calls c).previous = w.completedId
    · simp only [CallAt, same, if_true]
      exact ⟨here.1, same ▸ here.2, Int.le_refl _⟩
    · simp only [CallAt, same, if_false]
      exact here.1
  case acquire => exact safe_acquire h stage
  case writeX =>
    simp only [CallAt, stage] at here
    have own := here.1
    subst own
    exact ⟨some c, safe_write h (new (by rw [stage]; rfl)) ⟨here, rfl⟩⟩
  case writeY =>
    simp only [CallAt, stage] at here
    have own := here.1.1
    subst own
    exact ⟨some c, safe_write h (new (by rw [stage]; rfl)) ⟨here.1, here.2, rfl⟩⟩
  case writeZ =>
    simp only [CallAt, stage] at here
    have own := here.1.1
    subst own
    refine ⟨some c, safe_write h (new (by rw [stage]; rfl)) ⟨here.1, ?_⟩⟩
    simp only [here.2.1, here.2.2]
  case publish =>
    simp only [CallAt, stage] at here
    have own := here.1.1
    subst own
    exact ⟨none, safe_publish h stage⟩
  case readResult =>
    simp only [CallAt, stage] at here
    exact ⟨writer, safe_setCall h here fun p sent => ⟨sent.position, sent.previous, rfl⟩⟩

theorem poll_safe {w : World} {writer : Option CallId} {c : CallId} {expired : Bool}
    (h : Safe w writer) (stage : (w.calls c).stage = .poll) :
    Safe (w.setCall c { w.calls c with stage := w.poll (w.calls c) expired }) writer := by
  have here := h.calls c
  simp only [CallAt, stage] at here
  obtain ⟨next, same, waiting⟩ : ∃ next, w.poll (w.calls c) expired = next ∧
      (next = .readResult ∨ next = .returned .timedOut ∨ next = .poll) := by
    refine ⟨_, rfl, ?_⟩
    unfold World.poll
    split
    · exact Or.inl rfl
    · split
      · exact Or.inr (Or.inl rfl)
      · exact Or.inr (Or.inr rfl)
  rw [same]
  refine safe_setCall h ?_ fun p sent => ⟨sent.position, sent.previous, ?_⟩
  · rcases waiting with rfl | rfl | rfl <;> exact here
  · rcases waiting with rfl | rfl | rfl <;> rfl

theorem call_safe {w : World} {writer : Option CallId} {c : CallId} {position : Vector3}
    {tickObserved playerAvailable : Bool} (h : Safe w writer)
    (stage : (w.calls c).stage = .notCalled) :
    Safe (w.setCall c
      ⟨queueTeleport position tickObserved playerAvailable, position, (w.calls c).previous⟩)
      writer := by
  have here := h.calls c
  simp only [CallAt, stage] at here
  refine safe_setCall h ?_ fun p sent =>
    absurd sent (unsent (by rw [stage]; rfl) p)
  unfold queueTeleport
  split
  · exact here
  · split
    · exact here
    · split <;> exact here

/-- A request is passed to Actor::SetPosition when no earlier call was for its id. -/
theorem safe_setPosition {w : World} {writer : Option CallId} {game : Game}
    (h : Safe w writer) (here : GameAt w game) (stage : game.stage = .setPosition) :
    Safe (w.setPosition game) writer := by
  simp only [GameAt, stage] at here
  obtain ⟨fresh, serving, copied⟩ := here
  unfold World.setPosition
  split
  · obtain ⟨p, current, same, payload⟩ := h.ledger.holds serving.2
    constructor
    case ledger => exact h.ledger
    case limit => exact h.limit
    case calls => exact h.calls
    case senders => exact h.senders
    case game =>
      refine ⟨serving, copied, ?_, fun _ => List.mem_append_right _ (List.mem_singleton_self _)⟩
      intro e member
      rcases List.mem_append.mp member with old | last
      · have := fresh e old
        have := serving.1
        show e.id ≤ game.requestId
        omega
      · rw [List.mem_singleton.mp last]
        exact Int.le_refl _
    case known =>
      intro e member
      rcases List.mem_append.mp member with old | last
      · exact h.known e old
      · rw [List.mem_singleton.mp last]
        refine ⟨p, current, ?_, payload.trans copied.symm⟩
        exact same.trans (serving.2.trans serving.1.symm)
    case once =>
      rw [List.map_append, List.nodup_append]
      refine ⟨h.once, by simp, ?_⟩
      intro id old new last equal
      obtain ⟨e, member, rfl⟩ := List.mem_map.mp old
      have low := fresh e member
      have next := serving.1
      simp only [List.map_cons, List.map_nil, List.mem_singleton] at last
      omega
    case done =>
      intro q published processed valid
      exact List.mem_append_left _ (h.done q published processed valid)
  · rename_i invalid
    have here : GameAt w { game with stage := .storeSucceeded } := by
      refine ⟨serving, copied, ?_, fun valid => absurd valid invalid⟩
      intro e member
      have := fresh e member
      have := serving.1
      show e.id ≤ game.requestId
      omega
    exact safe_setGame h here

theorem safe_complete {w v : World} {writer : Option CallId} {game : Game}
    (h : Safe w writer) (here : GameAt w game) (stage : game.stage = .storeCompleted)
    (taken : w.process game = some v) : Safe v writer := by
  simp only [GameAt, stage] at here
  obtain ⟨serving, copied, below, carried⟩ := here
  simp only [World.process, stage, Option.some.injEq] at taken
  subst taken
  have same : game.requestId = w.requestId := serving.1.trans serving.2.symm
  have ledger := ledger_complete h.ledger serving.2
  have idle := ledger_pending_idle h.ledger serving.2
  constructor
  case ledger =>
    simp only [List.map_append, List.map_cons, List.map_nil, same]
    exact ledger
  case limit => exact h.limit
  case calls =>
    intro c
    apply callAt_frame (h.calls c) Iff.rfl
    · show w.completedId ≤ game.requestId
      have := serving.1
      omega
    · intro own
      rw [idle] at own
      cases own
  case senders => exact h.senders
  case game => exact below
  case known => exact h.known
  case once => exact h.once
  case done =>
    intro p member processed valid
    simp only [List.map_append, List.map_cons, List.map_nil, List.mem_append,
      List.mem_singleton] at processed
    rcases processed with old | last
    · exact h.done p member old valid
    · obtain ⟨q, published, id, payload⟩ := h.ledger.holds serving.2
      have equal : p = q := by
        apply ledger_entry_unique h.ledger member published
        exact last.trans (same.trans id.symm)
      subst equal
      have tuple : game.requested = p.payload := copied.trans payload.symm
      rw [last, ← tuple]
      exact carried (tuple ▸ valid)

theorem process_safe {w v : World} {writer : Option CallId} (h : Safe w writer)
    (taken : w.process w.game = some v) : Safe v writer := by
  have here := h.game
  cases stage : w.game.stage
  case setPosition =>
    simp only [World.process, stage, Option.some.injEq] at taken
    subst taken
    exact safe_setPosition h here stage
  case storeCompleted => exact safe_complete h here stage taken
  all_goals simp only [World.process, stage, Option.some.injEq, reduceCtorEq] at taken
  all_goals simp only [GameAt, stage] at here
  all_goals subst taken
  case readRequest =>
    refine safe_setGame h ?_
    by_cases none : w.requestId = 0 ∨ w.requestId % 2 ≠ 0
    · simp only [GameAt, none, if_true]
      exact here
    · simp only [GameAt, none, if_false]
      have rest : w.requestId % 2 = 0 := by omega
      obtain ⟨-, done | waiting⟩ := ledger_even h.ledger rest
      · exact ⟨here, Or.inl done⟩
      · exact ⟨here, Or.inr ⟨waiting, waiting⟩⟩
  case readCompleted =>
    refine safe_setGame h ?_
    by_cases same : w.game.requestId = w.completedId
    · simp only [GameAt, same, if_true]
      exact here.1
    · simp only [GameAt, same, if_false]
      exact ⟨here.1, here.2.resolve_left same⟩
  case copyX => exact safe_setGame h ⟨here.1, here.2, rfl⟩
  case copyY => exact safe_setGame h ⟨here.1, here.2.1, here.2.2, rfl⟩
  case copyZ =>
    refine safe_setGame h ⟨here.1, here.2.1, ?_⟩
    simp only [here.2.2.1, here.2.2.2]
  case recheck =>
    refine safe_setGame h ?_
    have same : w.game.requestId = w.requestId := here.2.1.1.trans here.2.1.2.symm
    simp only [GameAt, same, ne_eq, not_true, if_false]
    exact ⟨here.1, ⟨here.2.1.2, here.2.1.2⟩, here.2.2⟩
  case storeSucceeded =>
    exact ⟨h.ledger, h.limit, h.calls, h.senders, here, h.known, h.once, h.done⟩

theorem step_safe {w v : World} {writer : Option CallId} {a : Act} (h : Safe w writer)
    (taken : w.step a = some v) : ∃ writer', Safe v writer' := by
  cases a with
  | call c position tickObserved playerAvailable =>
    simp only [World.step, Option.ite_none_right_eq_some, Option.some.injEq] at taken
    obtain ⟨stage, rfl⟩ := taken
    exact ⟨writer, call_safe h stage⟩
  | advance c => exact advance_safe h taken
  | poll c expired =>
    simp only [World.step, Option.ite_none_right_eq_some, Option.some.injEq] at taken
    obtain ⟨stage, rfl⟩ := taken
    exact ⟨writer, poll_safe h stage⟩
  | tick ready =>
    simp only [World.step, Option.ite_none_right_eq_some, Option.some.injEq] at taken
    obtain ⟨stage, rfl⟩ := taken
    have here := h.game
    simp only [GameAt, stage] at here
    refine ⟨writer, safe_setGame h ?_⟩
    cases ready <;> exact here
  | process => exact ⟨writer, process_safe h taken⟩
  | publishPosition result =>
    simp only [World.step, Option.ite_none_right_eq_some, Option.some.injEq] at taken
    obtain ⟨stage, rfl⟩ := taken
    have here := h.game
    simp only [GameAt, stage] at here
    exact ⟨writer, safe_setGame h here⟩

theorem safe_invariant : Invariant mailbox fun w => ∃ writer, Safe w writer where
  start _ start := ⟨none, safe_start start⟩
  kept _ _ _ := fun ⟨_, h⟩ taken => step_safe h taken

theorem request_id_step {w v : World} {writer : Option CallId} {a : Act} (h : Safe w writer)
    (taken : w.step a = some v) : w.requestId ≤ v.requestId := by
  cases a with
  | advance c =>
    simp only [World.step] at taken
    cases stage : (w.calls c).stage <;>
      simp only [World.advance, stage, Option.some.injEq, reduceCtorEq] at taken
    all_goals subst taken
    case acquire =>
      unfold World.acquire
      split
      · exact Int.le_refl _
      · rename_i taken
        simp only [not_or, not_not, gt_iff_lt, Int.not_lt] at taken
        obtain ⟨-, free, -, number⟩ := acquire_free h stage taken.1 taken.2
        simp only [number]
        omega
    case publish =>
      obtain ⟨-, odd, -, -, number⟩ := publish_number h stage
      simp only [World.publish, number]
      omega
    all_goals exact Int.le_refl _
  | process =>
    simp only [World.step] at taken
    cases stage : w.game.stage <;>
      simp only [World.process, stage, Option.some.injEq, reduceCtorEq] at taken
    all_goals subst taken
    case setPosition =>
      unfold World.setPosition
      split <;> exact Int.le_refl _
    all_goals exact Int.le_refl _
  | _ =>
    simp only [World.step, Option.ite_none_right_eq_some, Option.some.injEq] at taken
    obtain ⟨-, rfl⟩ := taken
    exact Int.le_refl _

def Writing (call : Call) : Prop :=
  call.stage = .writeX ∨ call.stage = .writeY ∨ call.stage = .writeZ ∨ call.stage = .publish

def Outstanding (w : World) (c : CallId) (id : Int) : Prop :=
  Writing (w.calls c) ∧ id = (w.calls c).previous + 2 ∨
    ∃ p ∈ w.published, p.holder = c ∧ p.id = id ∧ id ∉ w.processed.map Acknowledged.id

def Processed (w : World) (p : Entry CallId Vector3) : Prop :=
  p.id ∈ w.processed.map Acknowledged.id ∧
    (ValidTeleport p.payload → ⟨p.id, p.payload⟩ ∈ w.executed)

theorem writing_owns {w : World} {writer : Option CallId} {c : CallId} (h : Safe w writer)
    (writing : Writing (w.calls c)) :
    writer = some c ∧ (w.calls c).previous = w.completedId := by
  have here := h.calls c
  rcases writing with stage | stage | stage | stage <;> simp only [CallAt, stage] at here
  · exact ⟨here.1, here.2.1⟩
  · exact ⟨here.1.1, here.1.2.1⟩
  · exact ⟨here.1.1, here.1.2.1⟩
  · exact ⟨here.1.1, here.1.2.1⟩

theorem outstanding_unique {w : World} {writer : Option CallId} {c d : CallId} {i j : Int}
    (h : Safe w writer) (first : Outstanding w c i) (second : Outstanding w d j) :
    c = d ∧ i = j := by
  rcases first with ⟨writing, same⟩ | ⟨p, member, holder, id, waiting⟩
  · obtain ⟨own, previous⟩ := writing_owns h writing
    subst own
    rcases second with ⟨writing', same'⟩ | ⟨q, member', -, id', waiting'⟩
    · obtain ⟨own', previous'⟩ := writing_owns h writing'
      exact ⟨Option.some.inj own', by omega⟩
    · exact absurd (id' ▸ ledger_writing_settled h.ledger member') waiting'
  · rcases second with ⟨writing', -⟩ | ⟨q, member', holder', id', waiting'⟩
    · obtain ⟨own', -⟩ := writing_owns h writing'
      subst own'
      exact absurd (id ▸ ledger_writing_settled h.ledger member) waiting
    · subst id
      subst id'
      have equal : p = q := ledger_pending_unique h.ledger member member' waiting waiting'
      subst equal
      exact ⟨holder.symm.trans holder', rfl⟩

theorem completed_processed {w : World} {writer : Option CallId} (h : Safe w writer) :
    w.completedId = 0 ∨ ∃ p ∈ w.published, p.id = w.completedId ∧ Processed w p := by
  rcases h.ledger.latest with zero | last
  · exact Or.inl zero
  · obtain ⟨-, p, member, same⟩ := h.ledger.settled w.completedId last
    have processed : p.id ∈ w.processed.map Acknowledged.id := same ▸ last
    exact Or.inr ⟨p, member, same, processed, h.done p member processed⟩

/-- What the mailbox promises in a reachable world. -/
structure MailboxSafety (w : World) : Prop where
  whole : ∀ e ∈ w.executed, ∃ p ∈ w.published, p.id = e.id ∧ e.position = p.payload ∧
    (w.calls p.holder).position = p.payload
  distinct : (w.published.map Entry.id).Nodup
  once : ∀ p ∈ w.published, w.executed.countP (fun e => e.id = p.id) ≤ 1
  alone : ∀ c d i j, Outstanding w c i → Outstanding w d j → c = d ∧ i = j
  completed : w.completedId = 0 ∨ ∃ p ∈ w.published, p.id = w.completedId ∧ Processed w p
  bounded : 0 ≤ w.requestId ∧ w.requestId ≤ longMax
  ascending : ∀ acts v, mailbox.exec w acts = some v → w.requestId ≤ v.requestId

theorem mailbox_safety {w : World} (reach : mailbox.Reachable w) : MailboxSafety w := by
  obtain ⟨writer, h⟩ := reachable_invariant mailbox safe_invariant reach
  constructor
  case whole =>
    intro e member
    obtain ⟨p, published, same, payload⟩ := h.known e member
    exact ⟨p, published, same, payload.symm, (h.senders p published).position⟩
  case distinct => exact h.ledger.distinct
  case once =>
    intro p _
    have once := List.nodup_iff_count_le_one.mp h.once p.id
    rwa [List.count, List.countP_map] at once
  case alone => exact fun c d i j first second => outstanding_unique h first second
  case completed => exact completed_processed h
  case bounded =>
    have nonneg := h.ledger.nonneg
    have low := (ledger_bounds h.ledger).1
    exact ⟨Int.le_trans nonneg low, h.limit⟩
  case ascending =>
    intro acts v run
    have kept : ∀ u a t, mailbox.Reachable u → mailbox.step u a = some t →
        u.requestId ≤ t.requestId := by
      intro u a t reach taken
      obtain ⟨writer, h⟩ := reachable_invariant mailbox safe_invariant reach
      exact request_id_step h taken
    exact exec_monotone mailbox (R := fun u t => u.requestId ≤ t.requestId)
      (fun _ => Int.le_refl _) (fun _ _ _ => Int.le_trans) kept reach run

def zeroWorld : World where
  teleport := ⟨0, 0, 0⟩
  requestId := 0
  completedId := 0
  succeeded := 0
  calls := fun _ => ⟨.notCalled, ⟨0, 0, 0⟩, 0⟩
  game := ⟨.idle, 0, ⟨0, 0, 0⟩, 0⟩
  published := []
  executed := []
  processed := []

def oneTwoThree : Vector3 := ⟨0x3F800000, 0x40000000, 0x40400000⟩

def threeTwoOne : Vector3 := ⟨0x40400000, 0x40000000, 0x3F800000⟩

/-- Two calls race for the mailbox, the one that wins is carried out while the other finds
   it taken, and a third stops in the middle of its writes. -/
def racing : List Act :=
  [.call 0 oneTwoThree true true, .call 1 threeTwoOne true true, .advance 0, .advance 1,
   .advance 0, .advance 1, .advance 0, .advance 1, .advance 0, .tick true, .process, .advance 0,
   .advance 0, .advance 0, .tick true, .process, .process, .process, .process, .poll 0 false,
   .process, .process, .process, .publishPosition (some oneTwoThree), .process, .process,
   .poll 0 false, .advance 0, .call 2 threeTwoOne true true, .advance 2, .advance 2, .advance 2,
   .advance 2, .tick true, .process]

def racingWorld : World := (mailbox.exec zeroWorld racing).get rfl

theorem mailbox_safety_racing :
    racingWorld.executed = [⟨2, oneTwoThree⟩] ∧
      (racingWorld.calls 0).stage = .returned .completed ∧
      (racingWorld.calls 1).stage = .returned .lost ∧ racingWorld.requestId = 3 ∧
      MailboxSafety racingWorld :=
  ⟨rfl, rfl, rfl, rfl, mailbox_safety
    ⟨zeroWorld, racing, ⟨rfl, rfl, fun _ => rfl, rfl, rfl, rfl, rfl⟩, (Option.some_get _).symm⟩⟩

end TeleportSafety
