import GameSecurity.RelayViewers

/- The producer slot of a room: a flag, a generation counter and a connection, claimed
   and given back by runs of handleProducer. -/
namespace RelayProducers
open Runs RelayRoom RelaySession RelayLifecycle

/-- Claimed and not yet released. -/
def Holds (run : ProducerRun) : Prop := run.releases < run.claims

/-- What a run's stage says about the run alone. An attached run gives the slot back in
   its second deferred call, any other run in its first. -/
def AtStage (closed : Finset Conn) (p : ProducerId) (run : ProducerRun) : Prop :=
  (run.claims = 0 → run.generation = 0) ∧
  (run.attached = true → run.conn = some (.producer p)) ∧
  match run.stage with
  | .waiting | .admitted =>
    run.deferred = [] ∧ run.conn = none ∧ run.attached = false ∧ run.claims = 0 ∧ run.releases = 0
  | .claimed =>
    run.deferred = [.releaseUnlessAttached] ∧ run.conn = none ∧ run.attached = false ∧
      run.claims = 1 ∧ run.releases = 0
  | .upgraded | .refused =>
    run.deferred = [.releaseUnlessAttached] ∧ run.conn = some (.producer p) ∧
      run.attached = false ∧ run.claims = 1 ∧ run.releases = 0
  | .reading =>
    run.deferred = [.closeConn, .releaseProducer, .releaseUnlessAttached] ∧
      run.conn = some (.producer p) ∧ run.attached = true ∧ run.claims = 1 ∧ run.releases = 0
  | .returning =>
    (run.deferred = [] ∧ run.claims = run.releases ∧ run.claims ≤ 1 ∨
      run.deferred = [.releaseUnlessAttached] ∧ run.attached = true ∧ run.claims = 1 ∧
        run.releases = 1 ∨
      run.deferred = [.releaseUnlessAttached] ∧ run.attached = false ∧ run.claims = 1 ∧
        run.releases = 0 ∨
      run.deferred = [.releaseProducer, .releaseUnlessAttached] ∧ run.attached = true ∧
        run.claims = 1 ∧ run.releases = 0 ∨
      run.deferred = [.closeConn, .releaseProducer, .releaseUnlessAttached] ∧
        run.attached = true ∧ run.claims = 1 ∧ run.releases = 0) ∧
      (run.conn = none ∨ run.conn = some (.producer p)) ∧
      (.closeConn ∈ run.deferred ∨ run.conn = none ∨ .producer p ∈ closed)
  | .ended =>
    run.deferred = [] ∧ run.claims = run.releases ∧ run.claims ≤ 1 ∧
      (run.conn = none ∨ run.conn = some (.producer p)) ∧
      (run.conn = none ∨ .producer p ∈ closed)

theorem atStage_mono {closed more : Finset Conn} {p : ProducerId} {run : ProducerRun}
    (grows : closed ⊆ more) (h : AtStage closed p run) : AtStage more p run := by
  obtain ⟨unclaimed, connected, h⟩ := h
  refine ⟨unclaimed, connected, ?_⟩
  cases stage : run.stage <;> simp only [stage] at h ⊢
  case returning =>
    obtain ⟨stack, own, left | never | shut⟩ := h
    · exact ⟨stack, own, Or.inl left⟩
    · exact ⟨stack, own, Or.inr (Or.inl never)⟩
    · exact ⟨stack, own, Or.inr (Or.inr (grows shut))⟩
  case ended =>
    obtain ⟨stack, even, once, own, never | shut⟩ := h
    · exact ⟨stack, even, once, own, Or.inl never⟩
    · exact ⟨stack, even, once, own, Or.inr (grows shut)⟩
  all_goals exact h

structure Moves (old run : ProducerRun) : Prop where
  begun : old.stage ≠ .waiting
  room : run.room = old.room
  conn : old.conn = none ∨ run.conn = old.conn

structure Keeps (old run : ProducerRun) : Prop extends Moves old run where
  generation : run.generation = old.generation
  attached : run.attached = old.attached
  claims : run.claims = old.claims
  releases : run.releases = old.releases

/-- What one step of a producer run can do to the server. -/
inductive Effect (w : World) (p : ProducerId) (old : ProducerRun) : World → Prop where
  | begin (run : ProducerRun) (before : old.claims = 0) (unconnected : old.conn = none)
      (after : run.claims = 0 ∧ run.releases = 0) (known : run.room ∈ w.roomIds) :
      Effect w p old (w.setProducer p run)
  | quiet (run : ProducerRun) (keeps : Keeps old run) : Effect w p old (w.setProducer p run)
  | claim (room : Room) (run : ProducerRun) (moves : Moves old run) (before : old.claims = 0)
      (after : run.claims = 1 ∧ run.releases = 0)
      (ok : (w.rooms old.room).claimProducer = .ok (room, run.generation)) :
      Effect w p old ((w.setRoom old.room room).setProducer p run)
  | attach (room : Room) (run : ProducerRun) (moves : Moves old run)
      (held : old.claims = 1 ∧ old.releases = 0)
      (same : run.generation = old.generation ∧ run.claims = old.claims ∧
        run.releases = old.releases)
      (attached : run.attached = true) (own : run.conn = some (.producer p))
      (ok : (w.rooms old.room).attachProducer old.generation (.producer p) = some room) :
      Effect w p old { (w.setRoom old.room room).setProducer p run with
        attachedToRoom := Function.update w.attachedToRoom old.room
          (insert (.producer p) (w.attachedToRoom old.room)) }
  | close (run : ProducerRun) (keeps : Keeps old run) :
      Effect w p old ((w.close old.conn).setProducer p run)
  | release (run : ProducerRun) (moves : Moves old run)
      (shut : run.conn = none ∨ .producer p ∈ w.closed)
      (before : old.claims = 1 ∧ old.releases = 0) (after : run.claims = 1 ∧ run.releases = 1)
      (same : run.generation = old.generation) :
      Effect w p old
        ((w.setRoom old.room ((w.rooms old.room).releaseProducer old.generation)).setProducer p
          run)

theorem effect {w next : World} {p : ProducerId} {a : ProducerAct} {old : ProducerRun}
    (here : AtStage w.closed p old) (h : producerStep w p old a = some next) :
    Effect w p old next := by
  obtain ⟨-, -, here⟩ := here
  cases a with
  | begin r =>
    simp only [producerStep, Option.ite_none_right_eq_some, Option.some.injEq] at h
    obtain ⟨⟨stage, -, known⟩, rfl⟩ := h
    simp only [stage] at here
    obtain ⟨-, conn, -, claims, releases⟩ := here
    exact .begin _ claims conn ⟨claims, releases⟩ known
  | claim =>
    simp only [producerStep, Option.ite_none_right_eq_some] at h
    obtain ⟨stage, h⟩ := h
    simp only [stage] at here
    obtain ⟨-, conn, -, claims, releases⟩ := here
    have moves : ∀ run : ProducerRun, run.room = old.room → run.conn = old.conn → Moves old run :=
      fun run room conn => ⟨by simp [stage], room, Or.inr conn⟩
    split at h <;> rw [← Option.some.inj h]
    · exact .quiet _ ⟨moves _ rfl rfl, rfl, rfl, rfl, rfl⟩
    · rename_i room generation ok
      exact .claim room _ (moves _ rfl rfl) claims ⟨by simp [claims], releases⟩ ok
  | upgrade ok =>
    simp only [producerStep, Option.ite_none_right_eq_some] at h
    obtain ⟨stage, h⟩ := h
    simp only [stage] at here
    split at h <;> rw [← Option.some.inj h] <;>
      exact .quiet _ ⟨⟨by simp [stage], rfl, Or.inl here.2.1⟩, rfl, rfl, rfl, rfl⟩
  | attach =>
    simp only [producerStep, Option.ite_none_right_eq_some] at h
    obtain ⟨stage, h⟩ := h
    simp only [stage] at here
    obtain ⟨-, conn, -, claims, releases⟩ := here
    split at h <;> rw [← Option.some.inj h]
    · exact .quiet _ ⟨⟨by simp [stage], rfl, Or.inr rfl⟩, rfl, rfl, rfl, rfl⟩
    · rename_i room ok
      exact .attach room _ ⟨by simp [stage], rfl, Or.inr rfl⟩ ⟨claims, releases⟩ ⟨rfl, rfl, rfl⟩
        rfl conn ok
  | discard =>
    simp only [producerStep, Option.ite_none_right_eq_some, Option.some.injEq] at h
    obtain ⟨stage, rfl⟩ := h
    exact .close _ ⟨⟨by simp [stage], rfl, Or.inr rfl⟩, rfl, rfl, rfl, rfl⟩
  | leave =>
    simp only [producerStep, Option.ite_none_right_eq_some, Option.some.injEq] at h
    obtain ⟨stage, rfl⟩ := h
    exact .quiet _ ⟨⟨by simp [stage], rfl, Or.inr rfl⟩, rfl, rfl, rfl, rfl⟩
  | finish =>
    simp only [producerStep, Option.ite_none_right_eq_some, Option.some.injEq] at h
    obtain ⟨⟨stage, _⟩, rfl⟩ := h
    exact .quiet _ ⟨⟨by simp [stage], rfl, Or.inr rfl⟩, rfl, rfl, rfl, rfl⟩
  | unwind =>
    simp only [producerStep, Option.ite_none_right_eq_some] at h
    obtain ⟨stage, h⟩ := h
    simp only [stage] at here
    obtain ⟨stack, -, shut⟩ := here
    have moves : ∀ run : ProducerRun, run.room = old.room → run.conn = old.conn → Moves old run :=
      fun run room conn => ⟨by simp [stage], room, Or.inr conn⟩
    rcases stack with ⟨e, -⟩ | ⟨e, attached, claims, releases⟩ | ⟨e, attached, claims, releases⟩ |
      ⟨e, attached, claims, releases⟩ | ⟨e, attached, claims, releases⟩
    · simp [e] at h
    · simp only [e, unwindProducer, attached, if_true, Option.some.injEq] at h
      subst next
      exact .quiet _ ⟨moves _ rfl rfl, rfl, attached.symm, rfl, rfl⟩
    · simp only [e, unwindProducer, attached, Bool.false_eq_true, if_false, Option.some.injEq] at h
      subst next
      exact .release _ (moves _ rfl rfl) (by simpa [e] using shut) ⟨claims, releases⟩
        ⟨claims, by simp [releases]⟩ rfl
    · simp only [e, unwindProducer, Option.some.injEq] at h
      subst next
      exact .release _ (moves _ rfl rfl) (by simpa [e] using shut) ⟨claims, releases⟩
        ⟨claims, by simp [releases]⟩ rfl
    · simp only [e, unwindProducer, Option.some.injEq] at h
      subst next
      exact .close _ ⟨moves _ rfl rfl, rfl, rfl, rfl, rfl⟩

theorem unwind_local {w : World} {p : ProducerId} {old : ProducerRun} {call : ProducerDefer}
    {rest : List ProducerDefer} (stage : old.stage = .returning)
    (here : AtStage w.closed p old) (top : old.deferred = call :: rest) :
    AtStage (unwindProducer w p { old with deferred := rest } call).closed p
      ((unwindProducer w p { old with deferred := rest } call).producerRuns p) := by
  obtain ⟨unclaimed, connected, here⟩ := here
  simp only [stage] at here
  obtain ⟨stack, own, shut⟩ := here
  rcases stack with ⟨e, -⟩ | ⟨e, attached, claims, releases⟩ | ⟨e, attached, claims, releases⟩ |
      ⟨e, attached, claims, releases⟩ | ⟨e, attached, claims, releases⟩ <;> rw [e] at top
  · cases top
  all_goals
    simp only [List.cons.injEq] at top
    obtain ⟨rfl, rfl⟩ := top
    refine ⟨?_, ?_, ?_⟩ <;>
      simp_all [unwindProducer, World.setProducer, World.setRoom, World.close]

theorem step_local {w next : World} {p : ProducerId} {a : ProducerAct} {old : ProducerRun}
    (here : AtStage w.closed p old) (h : producerStep w p old a = some next) :
    AtStage next.closed p (next.producerRuns p) := by
  cases a with
  | unwind =>
    simp only [producerStep, Option.ite_none_right_eq_some] at h
    obtain ⟨stage, h⟩ := h
    split at h
    · cases h
    · rename_i top
      rw [← Option.some.inj h]
      exact unwind_local stage here top
  | finish =>
    simp only [producerStep, Option.ite_none_right_eq_some, Option.some.injEq] at h
    obtain ⟨⟨stage, empty⟩, rfl⟩ := h
    obtain ⟨unclaimed, connected, here⟩ := here
    simp only [stage, empty] at here
    obtain ⟨stack, own, shut⟩ := here
    have even : old.claims = old.releases ∧ old.claims ≤ 1 := by simpa using stack
    have left : old.conn = none ∨ .producer p ∈ w.closed := by simpa using shut
    simpa [AtStage, World.setProducer, empty] using
      ⟨unclaimed, connected, even.1, even.2, own, left⟩
  | _ =>
    simp only [producerStep, Option.ite_none_right_eq_some] at h
    obtain ⟨stage, h⟩ := h
    obtain ⟨unclaimed, connected, here⟩ := here
    (try split at h) <;> simp only [Option.some.injEq] at h <;> subst next <;>
      refine ⟨?_, ?_, ?_⟩ <;>
      simp_all [World.setProducer, World.setRoom, World.close]

/-- A step that is no producer's leaves the producers' side of every room alone. -/
structure Untouched (w next : World) : Prop where
  producerRuns : next.producerRuns = w.producerRuns
  active : ∀ r, (next.rooms r).producerActive = (w.rooms r).producerActive
  generation : ∀ r, (next.rooms r).producerGeneration = (w.rooms r).producerGeneration
  conn : ∀ r, (next.rooms r).producerConn = (w.rooms r).producerConn
  roomIds : next.roomIds = w.roomIds
  closed : w.closed ⊆ next.closed

theorem untouched_refl (w : World) : Untouched w w :=
  ⟨rfl, fun _ => rfl, fun _ => rfl, fun _ => rfl, rfl, subset_rfl⟩

theorem untouched_setRoom {w : World} {r : RoomId} {room : Room}
    (active : room.producerActive = (w.rooms r).producerActive)
    (generation : room.producerGeneration = (w.rooms r).producerGeneration)
    (conn : room.producerConn = (w.rooms r).producerConn) :
    Untouched w (w.setRoom r room) := by
  refine ⟨rfl, fun j => ?_, fun j => ?_, fun j => ?_, rfl, subset_rfl⟩
  all_goals by_cases e : j = r <;> simp_all [World.setRoom]

theorem untouched_viewer {limits : Limits} {w next : World} {v : ViewerId} {old : ViewerRun}
    (eff : RelayViewers.Effect limits w v old next) : Untouched w next := by
  have self := untouched_refl w
  cases eff with
  | add now room run moves before after ok =>
    obtain ⟨-, -, rfl, -⟩ := add_viewer_ok ok
    have kept : Untouched w (w.setRoom old.room
        { w.rooms old.room with viewers := insert v (w.rooms old.room).viewers }) :=
      untouched_setRoom rfl rfl rfl
    exact { kept with }
  | remove run moves shut before after =>
    have kept : Untouched w (w.setRoom old.room ((w.rooms old.room).removeViewer v)) :=
      untouched_setRoom rfl rfl rfl
    exact { kept with }
  | close run keeps => exact { self with closed := Finset.subset_union_left }
  | _ => exact { self with }

theorem untouched_revoke {w next : World} {k : CallId} {call : RevokeCall}
    (eff : RevokeEffect w k call next) : Untouched w next := by
  have self := untouched_refl w
  cases eff with
  | close s left c member => exact { self with closed := Finset.subset_union_left }
  | _ => exact { self with }

theorem untouched_close {w next : World} {k : CallId} {call : CloseCall}
    (eff : CloseEffect w k call next) : Untouched w next := by
  have self := untouched_refl w
  cases eff with
  | lock r =>
    have kept : Untouched w (w.setRoom r ((w.rooms r).collect w.objects).1) :=
      untouched_setRoom rfl rfl rfl
    exact { kept with }
  | close r left c member => exact { self with closed := Finset.subset_union_left }
  | _ => exact { self with }

theorem untouched_server {w next : World} {state : ServerClose}
    (eff : ServerEffect w state next) : Untouched w next := by
  have self := untouched_refl w
  cases eff <;> exact { self with }

theorem untouched_step {limits : Limits} {w next : World} {a : Act}
    (places : RelayViewers.Places limits w) (notProducer : ∀ p b, a ≠ .producer p b)
    (h : step limits w a = some next) : Untouched w next := by
  have self := untouched_refl w
  cases a with
  | producer p b => exact absurd rfl (notProducer p b)
  | viewer v b => exact untouched_viewer (RelayViewers.effect (places.atStage v) h)
  | revoke k b => exact untouched_revoke (revoke_effect h)
  | close k b => exact untouched_close (close_effect h)
  | server b => exact untouched_server (server_effect h)
  | drop c =>
    simp only [step, Option.ite_none_right_eq_some, Option.some.injEq] at h
    obtain ⟨-, rfl⟩ := h
    exact { self with closed := Finset.subset_union_left }
  | login s r t =>
    simp only [step, Option.ite_none_right_eq_some, Option.some.injEq] at h
    obtain ⟨-, rfl⟩ := h
    exact { self with }
  | unmap s | setReady ready =>
    simp only [step, Option.some.injEq] at h
    subst next
    exact { self with }

/-- The slot of every room against the runs that hold it. The generation tells two claims
   of one room apart, so a run that gave the slot back can never match it again. -/
structure Holders (rooms : RoomId → Room) (runs : ProducerId → ProducerRun) : Prop where
  issued : ∀ p, 0 < (runs p).claims →
    (runs p).generation ≤ (rooms (runs p).room).producerGeneration
  distinct : ∀ p q, 0 < (runs p).claims → 0 < (runs q).claims →
    (runs p).room = (runs q).room → (runs p).generation = (runs q).generation → p = q
  holder : ∀ p, Holds (runs p) → (rooms (runs p).room).producerActive = true ∧
    (runs p).generation = (rooms (runs p).room).producerGeneration
  active : ∀ r, (rooms r).producerActive = true → ∃ p, Holds (runs p) ∧ (runs p).room = r
  numbered : ∀ r, (rooms r).producerActive = true → 0 < (rooms r).producerGeneration
  conn : ∀ r c, (rooms r).producerConn = some c →
    ∃ p, Holds (runs p) ∧ (runs p).room = r ∧ (runs p).attached = true ∧ c = .producer p

theorem holds_claims {run : ProducerRun} (h : Holds run) : 0 < run.claims := by
  unfold Holds at h
  omega

theorem one_holder {rooms : RoomId → Room} {runs : ProducerId → ProducerRun}
    (h : Holders rooms runs) {p q : ProducerId} (left : Holds (runs p)) (right : Holds (runs q))
    (room : (runs p).room = (runs q).room) : p = q := by
  refine h.distinct p q (holds_claims left) (holds_claims right) room ?_
  rw [(h.holder p left).2, (h.holder q right).2, room]

/-- Two runs the slot cannot tell apart. -/
def Same (old run : ProducerRun) : Prop :=
  run.claims = old.claims ∧ (0 < old.claims → run.room = old.room ∧
    run.generation = old.generation ∧ run.releases = old.releases ∧
    (old.attached = true → run.attached = true))

theorem same_refl (run : ProducerRun) : Same run run :=
  ⟨rfl, fun _ => ⟨rfl, rfl, rfl, id⟩⟩

theorem same_holds {old run : ProducerRun} (h : Same old run) : Holds run ↔ Holds old := by
  obtain ⟨claims, rest⟩ := h
  unfold Holds
  constructor <;> intro held <;> have := rest (by omega) <;> omega

theorem same_update {runs : ProducerId → ProducerRun} {p : ProducerId} {run : ProducerRun}
    (h : Same (runs p) run) (q : ProducerId) : Same (runs q) (Function.update runs p run q) := by
  by_cases e : q = p
  · subst q
    rw [Function.update_self]
    exact h
  · rw [Function.update_of_ne e]
    exact same_refl _

theorem holders_same {rooms : RoomId → Room} {old runs : ProducerId → ProducerRun}
    (h : Holders rooms old) (same : ∀ p, Same (old p) (runs p)) : Holders rooms runs where
  issued p claimed := by
    obtain ⟨claims, rest⟩ := same p
    rw [claims] at claimed
    obtain ⟨room, generation, -⟩ := rest claimed
    rw [room, generation]
    exact h.issued p claimed
  distinct p q left right := by
    obtain ⟨claimsP, restP⟩ := same p
    obtain ⟨claimsQ, restQ⟩ := same q
    rw [claimsP] at left
    rw [claimsQ] at right
    obtain ⟨roomP, generationP, -⟩ := restP left
    obtain ⟨roomQ, generationQ, -⟩ := restQ right
    rw [roomP, roomQ, generationP, generationQ]
    exact h.distinct p q left right
  holder p held := by
    have before := (same_holds (same p)).mp held
    obtain ⟨room, generation, -⟩ := (same p).2 (holds_claims before)
    rw [room, generation]
    exact h.holder p before
  active r on := by
    obtain ⟨p, held, home⟩ := h.active r on
    obtain ⟨room, -⟩ := (same p).2 (holds_claims held)
    exact ⟨p, (same_holds (same p)).mpr held, room.trans home⟩
  numbered := h.numbered
  conn r c attached := by
    obtain ⟨p, held, home, flag, own⟩ := h.conn r c attached
    obtain ⟨room, -, -, kept⟩ := (same p).2 (holds_claims held)
    exact ⟨p, (same_holds (same p)).mpr held, room.trans home, kept flag, own⟩

theorem holders_claim {rooms : RoomId → Room} {runs : ProducerId → ProducerRun}
    {p : ProducerId} {room : Room} {run : ProducerRun} (h : Holders rooms runs)
    (home : run.room = (runs p).room) (before : (runs p).claims = 0)
    (after : run.claims = 1 ∧ run.releases = 0)
    (ok : (rooms (runs p).room).claimProducer = .ok (room, run.generation)) :
    Holders (Function.update rooms (runs p).room room) (Function.update runs p run) := by
  obtain ⟨-, off, generation, rfl⟩ := claim_ok_iff.mp ok
  -- the room was free, so no other run holds it
  have free : ∀ q, Holds (runs q) → (runs q).room ≠ (runs p).room := by
    intro q held here
    have on := (h.holder q held).1
    rw [here, off] at on
    cases on
  have idle : ¬ Holds (runs p) := fun held => by
    have := holds_claims held
    omega
  have holds : Holds run := by
    unfold Holds
    omega
  constructor
  case issued =>
    intro q claimed
    by_cases e : q = p
    · subst q
      simp [home]
    · rw [Function.update_of_ne e] at claimed ⊢
      have issued := h.issued q claimed
      by_cases here : (runs q).room = (runs p).room
      · rw [here] at issued ⊢
        simp only [Function.update_self]
        omega
      · rwa [Function.update_of_ne here]
  case distinct =>
    intro q u left right here match_
    by_cases e : q = p <;> by_cases f : u = p
    · rw [e, f]
    · subst q
      rw [Function.update_self, Function.update_of_ne f] at here match_
      rw [Function.update_of_ne f] at right
      have issued := h.issued u right
      rw [← here, home] at issued
      omega
    · subst u
      rw [Function.update_self, Function.update_of_ne e] at here match_
      rw [Function.update_of_ne e] at left
      have issued := h.issued q left
      rw [here, home] at issued
      omega
    · rw [Function.update_of_ne e] at left here match_
      rw [Function.update_of_ne f] at right here match_
      exact h.distinct q u left right here match_
  case holder =>
    intro q held
    by_cases e : q = p
    · subst q
      simp [home]
    · rw [Function.update_of_ne e] at held ⊢
      rw [Function.update_of_ne (free q held)]
      exact h.holder q held
  case active =>
    intro r on
    by_cases here : r = (runs p).room
    · exact ⟨p, by simpa using holds, by simp [home, here]⟩
    · rw [Function.update_of_ne here] at on
      obtain ⟨q, held, room⟩ := h.active r on
      have other : q ≠ p := fun e => idle (e ▸ held)
      exact ⟨q, by rwa [Function.update_of_ne other], by rwa [Function.update_of_ne other]⟩
  case numbered =>
    intro r on
    by_cases here : r = (runs p).room
    · subst r
      simp only [Function.update_self]
      omega
    · rw [Function.update_of_ne here] at on ⊢
      exact h.numbered r on
  case conn =>
    intro r c attached
    by_cases here : r = (runs p).room
    · subst r
      rw [Function.update_self] at attached
      obtain ⟨q, held, room, -⟩ := h.conn _ c attached
      exact absurd room (free q held)
    · rw [Function.update_of_ne here] at attached
      obtain ⟨q, held, room, flag, own⟩ := h.conn r c attached
      have other : q ≠ p := fun e => idle (e ▸ held)
      exact ⟨q, by rwa [Function.update_of_ne other], by rwa [Function.update_of_ne other],
        by rwa [Function.update_of_ne other], own⟩

theorem holders_attach {rooms : RoomId → Room} {runs : ProducerId → ProducerRun}
    {p : ProducerId} {room : Room} {run : ProducerRun} (h : Holders rooms runs)
    (same : Same (runs p) run) (held : Holds (runs p)) (attached : run.attached = true)
    (ok : (rooms (runs p).room).attachProducer (runs p).generation (.producer p) = some room) :
    Holders (Function.update rooms (runs p).room room) (Function.update runs p run) := by
  obtain ⟨-, on, -, rfl⟩ := attach_producer_some_iff.mp ok
  have kept := holders_same h (same_update same)
  have slot : ∀ r,
      (Function.update rooms (runs p).room
          { rooms (runs p).room with producerConn := some (.producer p) } r).producerActive =
        (rooms r).producerActive ∧
      (Function.update rooms (runs p).room
          { rooms (runs p).room with producerConn := some (.producer p) } r).producerGeneration =
        (rooms r).producerGeneration := by
    intro r
    by_cases here : r = (runs p).room <;> simp [here]
  refine ⟨?_, kept.distinct, ?_, ?_, ?_, ?_⟩
  · intro q claimed
    rw [(slot _).2]
    exact kept.issued q claimed
  · intro q held
    rw [(slot _).1, (slot _).2]
    exact kept.holder q held
  · intro r on
    rw [(slot r).1] at on
    exact kept.active r on
  · intro r on
    rw [(slot r).1] at on
    rw [(slot r).2]
    exact kept.numbered r on
  · intro r c conn
    by_cases here : r = (runs p).room
    · subst r
      simp only [Function.update_self, Option.some.injEq] at conn
      refine ⟨p, ?_, ?_, ?_, conn.symm⟩
      · rw [Function.update_self]
        exact (same_holds same).mpr held
      · rw [Function.update_self]
        exact (same.2 (holds_claims held)).1
      · rwa [Function.update_self]
    · rw [Function.update_of_ne here] at conn
      exact kept.conn r c conn

theorem release_by_holder {rooms : RoomId → Room} {runs : ProducerId → ProducerRun}
    {p : ProducerId} (h : Holders rooms runs) (held : Holds (runs p)) :
    (rooms (runs p).room).releaseProducer (runs p).generation =
      { rooms (runs p).room with producerActive := false, producerConn := none } := by
  simp [Room.releaseProducer, (h.holder p held).2]

theorem holders_release {rooms : RoomId → Room} {runs : ProducerId → ProducerRun}
    {p : ProducerId} {run : ProducerRun} (h : Holders rooms runs) (held : Holds (runs p))
    (home : run.room = (runs p).room) (generation : run.generation = (runs p).generation)
    (claims : run.claims = (runs p).claims) (done : ¬ Holds run) :
    Holders
      (Function.update rooms (runs p).room
        ((rooms (runs p).room).releaseProducer (runs p).generation))
      (Function.update runs p run) := by
  rw [release_by_holder h held]
  have claimed := holds_claims held
  have others : ∀ q, Holds (Function.update runs p run q) →
      Holds (runs q) ∧ (runs q).room ≠ (runs p).room ∧ Function.update runs p run q = runs q := by
    intro q now
    by_cases e : q = p
    · subst q
      rw [Function.update_self] at now
      exact absurd now done
    · rw [Function.update_of_ne e] at now ⊢
      exact ⟨now, fun here => e (one_holder h now held here), rfl⟩
  have elsewhere : ∀ q, Holds (runs q) → (runs q).room ≠ (runs p).room →
      Function.update runs p run q = runs q := by
    intro q now away
    exact Function.update_of_ne (fun e => away (by rw [e])) _ _
  have data : ∀ q, (Function.update runs p run q).claims = (runs q).claims ∧
      (Function.update runs p run q).room = (runs q).room ∧
      (Function.update runs p run q).generation = (runs q).generation := by
    intro q
    by_cases e : q = p
    · subst q
      simp [claims, home, generation]
    · simp [Function.update_of_ne e]
  constructor
  case issued =>
    intro q now
    rw [(data q).1] at now
    rw [(data q).2.1, (data q).2.2]
    have issued := h.issued q now
    by_cases here : (runs q).room = (runs p).room
    · rw [here] at issued ⊢
      simpa using issued
    · rwa [Function.update_of_ne here]
  case distinct =>
    intro q u left right here match_
    rw [(data q).1] at left
    rw [(data u).1] at right
    rw [(data q).2.1, (data u).2.1] at here
    rw [(data q).2.2, (data u).2.2] at match_
    exact h.distinct q u left right here match_
  case holder =>
    intro q now
    obtain ⟨before, away, same⟩ := others q now
    rw [same, Function.update_of_ne away]
    exact h.holder q before
  case active =>
    intro r on
    by_cases here : r = (runs p).room
    · simp [here] at on
    · rw [Function.update_of_ne here] at on
      obtain ⟨q, before, room⟩ := h.active r on
      have same := elsewhere q before (room ▸ here)
      exact ⟨q, by rwa [same], by rwa [same]⟩
  case numbered =>
    intro r on
    by_cases here : r = (runs p).room
    · simp [here] at on
    · rw [Function.update_of_ne here] at on ⊢
      exact h.numbered r on
  case conn =>
    intro r c conn
    by_cases here : r = (runs p).room
    · simp [here] at conn
    · rw [Function.update_of_ne here] at conn
      obtain ⟨q, before, room, flag, own⟩ := h.conn r c conn
      have same := elsewhere q before (room ▸ here)
      exact ⟨q, by rwa [same], by rwa [same], by rwa [same], own⟩

theorem holders_untouched {w next : World} (h : Holders w.rooms w.producerRuns)
    (same : Untouched w next) : Holders next.rooms next.producerRuns where
  issued p := by
    rw [same.producerRuns, same.generation]
    exact h.issued p
  distinct := by
    rw [same.producerRuns]
    exact h.distinct
  holder p := by
    rw [same.producerRuns, same.active, same.generation]
    exact h.holder p
  active r := by
    rw [same.producerRuns, same.active]
    exact h.active r
  numbered r := by
    rw [same.active, same.generation]
    exact h.numbered r
  conn r := by
    rw [same.producerRuns, same.conn]
    exact h.conn r

theorem holders_effect {w next : World} {p : ProducerId}
    (h : Holders w.rooms w.producerRuns) (eff : Effect w p (w.producerRuns p) next) :
    Holders next.rooms next.producerRuns := by
  have held : (w.producerRuns p).claims = 1 ∧ (w.producerRuns p).releases = 0 →
      Holds (w.producerRuns p) := fun ⟨claims, releases⟩ => by
    unfold Holds
    omega
  cases eff with
  | begin run before unconnected after =>
    exact holders_same h (same_update ⟨by omega, by omega⟩)
  | quiet run keeps | close run keeps =>
    exact holders_same h (same_update ⟨keeps.claims, fun _ =>
      ⟨keeps.room, keeps.generation, keeps.releases, by rw [keeps.attached]; exact id⟩⟩)
  | claim room run moves before after ok => exact holders_claim h moves.room before after ok
  | attach room run moves before same attached own ok =>
    exact holders_attach h
      ⟨same.2.1, fun _ => ⟨moves.room, same.1, same.2.2, fun _ => attached⟩⟩ (held before)
      attached ok
  | release run moves shut before after same =>
    refine holders_release h (held before) moves.room same (by omega) ?_
    unfold Holds
    omega

structure Slot (w : World) : Prop where
  atStage : ∀ p, AtStage w.closed p (w.producerRuns p)
  begun : ∀ p, (w.producerRuns p).stage ≠ .waiting → (w.producerRuns p).room ∈ w.roomIds
  holders : Holders w.rooms w.producerRuns

theorem effect_frame {w next : World} {p : ProducerId} {old : ProducerRun}
    (eff : Effect w p old next) :
    next.roomIds = w.roomIds ∧ w.closed ⊆ next.closed ∧
      ∀ q, q ≠ p → next.producerRuns q = w.producerRuns q := by
  cases eff with
  | close run keeps =>
    exact ⟨rfl, Finset.subset_union_left, fun q other => Function.update_of_ne other _ _⟩
  | _ => exact ⟨rfl, subset_rfl, fun q other => Function.update_of_ne other _ _⟩

theorem effect_begun {w next : World} {p : ProducerId} (h : Slot w)
    (eff : Effect w p (w.producerRuns p) next) : (next.producerRuns p).room ∈ w.roomIds := by
  have moved : ∀ run, Moves (w.producerRuns p) run → run.room ∈ w.roomIds := by
    intro run moves
    rw [moves.room]
    exact h.begun p moves.begun
  cases eff with
  | begin run before unconnected after known => simpa [World.setProducer] using known
  | quiet run keeps | close run keeps => simpa [World.setProducer] using moved run keeps.toMoves
  | claim room run moves | attach room run moves | release run moves =>
    simpa [World.setProducer] using moved run moves

theorem slot_producer {w next : World} {p : ProducerId} {a : ProducerAct} (h : Slot w)
    (taken : producerStep w p (w.producerRuns p) a = some next) : Slot next := by
  have eff := effect (h.atStage p) taken
  obtain ⟨roomIds, closed, others⟩ := effect_frame eff
  refine ⟨fun q => ?_, fun q started => ?_, holders_effect h.holders eff⟩
  · by_cases same : q = p
    · subst q
      exact step_local (h.atStage p) taken
    · rw [others q same]
      exact atStage_mono closed (h.atStage q)
  · rw [roomIds]
    by_cases same : q = p
    · subst q
      exact effect_begun h eff
    · rw [others q same] at started ⊢
      exact h.begun q started

theorem slot_untouched {w next : World} (h : Slot w) (same : Untouched w next) : Slot next where
  atStage p := by
    rw [same.producerRuns]
    exact atStage_mono same.closed (h.atStage p)
  begun p := by
    rw [same.producerRuns, same.roomIds]
    exact h.begun p
  holders := holders_untouched h.holders same

theorem slot_started (maxViewers : RoomId → Nat) (roomIds : Finset RoomId) :
    Slot (started maxViewers roomIds) where
  atStage p := by simp [started, AtStage, ProducerRun.fresh]
  begun p := by simp [started, ProducerRun.fresh]
  holders := by
    constructor <;> simp [started, newRoom, ProducerRun.fresh, Holds]

theorem slot_invariant (limits : Limits) {w : World} (reach : (server limits).Reachable w) :
    Slot w := by
  refine reachable_invariant_using (server limits)
    (fun s => reachable_invariant (server limits) (RelayViewers.places_invariant limits)) ?_ ?_ reach
  · rintro w ⟨maxViewers, roomIds, rfl⟩
    exact slot_started maxViewers roomIds
  · intro w a next places h taken
    change step limits w a = some next at taken
    by_cases producer : ∃ p b, a = .producer p b
    · obtain ⟨p, b, rfl⟩ := producer
      exact slot_producer h taken
    · exact slot_untouched h (untouched_step places (fun p b e => producer ⟨p, b, e⟩) taken)

/-- Nothing opens a closing room again. -/
def ClosingKept (w next : World) : Prop :=
  ∀ r, (w.rooms r).closing = true → (next.rooms r).closing = true

theorem closing_setRoom {w : World} {r : RoomId} {room : Room}
    (kept : (w.rooms r).closing = true → room.closing = true) :
    ClosingKept w (w.setRoom r room) := by
  intro j closing
  by_cases e : j = r
  · subst j
    simpa [World.setRoom] using kept closing
  · simpa [World.setRoom, e] using closing

theorem closing_viewer {limits : Limits} {w next : World} {v : ViewerId} {old : ViewerRun}
    (eff : RelayViewers.Effect limits w v old next) : ClosingKept w next := by
  cases eff with
  | add now room run moves before after ok =>
    obtain ⟨-, -, rfl, -⟩ := add_viewer_ok ok
    exact closing_setRoom id
  | remove run => exact closing_setRoom id
  | _ => exact fun _ closing => closing

theorem closing_producer {w next : World} {p : ProducerId} {old : ProducerRun}
    (eff : Effect w p old next) : ClosingKept w next := by
  cases eff with
  | claim room run moves before after ok =>
    obtain ⟨-, -, -, rfl⟩ := claim_ok_iff.mp ok
    exact closing_setRoom id
  | attach room run moves before same attached own ok =>
    obtain ⟨-, -, -, rfl⟩ := attach_producer_some_iff.mp ok
    exact closing_setRoom id
  | release run =>
    refine closing_setRoom ?_
    unfold Room.releaseProducer
    split <;> exact id
  | _ => exact fun _ closing => closing

theorem closing_close {w next : World} {k : CallId} {call : CloseCall}
    (eff : CloseEffect w k call next) : ClosingKept w next := by
  cases eff with
  | lock r => exact closing_setRoom fun _ => rfl
  | _ => exact fun _ closing => closing

theorem closing_revoke {w next : World} {k : CallId} {call : RevokeCall}
    (eff : RevokeEffect w k call next) : ClosingKept w next := by
  cases eff <;> exact fun _ closing => closing

theorem closing_server {w next : World} {state : ServerClose}
    (eff : ServerEffect w state next) : ClosingKept w next := by
  cases eff <;> exact fun _ closing => closing

theorem closing_rest {limits : Limits} {w next : World} {a : Act}
    (notViewer : ∀ v b, a ≠ .viewer v b) (notProducer : ∀ p b, a ≠ .producer p b)
    (h : step limits w a = some next) : ClosingKept w next := by
  cases a with
  | viewer v b => exact absurd rfl (notViewer v b)
  | producer p b => exact absurd rfl (notProducer p b)
  | close k b => exact closing_close (close_effect h)
  | revoke k b => exact closing_revoke (revoke_effect h)
  | server b => exact closing_server (server_effect h)
  | login s r t | drop c =>
    simp only [step, Option.ite_none_right_eq_some, Option.some.injEq] at h
    obtain ⟨-, rfl⟩ := h
    exact fun _ closing => closing
  | unmap s | setReady ready =>
    simp only [step, Option.some.injEq] at h
    subst next
    exact fun _ closing => closing

theorem closing_step {limits : Limits} {w next : World} {a : Act}
    (reach : (server limits).Reachable w) (h : step limits w a = some next) :
    ClosingKept w next := by
  have places := reachable_invariant (server limits) (RelayViewers.places_invariant limits) reach
  have slot := slot_invariant limits reach
  by_cases viewer : ∃ v b, a = .viewer v b
  · obtain ⟨v, b, rfl⟩ := viewer
    exact closing_viewer (RelayViewers.effect (places.atStage v) h)
  · by_cases producer : ∃ p b, a = .producer p b
    · obtain ⟨p, b, rfl⟩ := producer
      exact closing_producer (effect (slot.atStage p) h)
    · exact closing_rest (fun v b e => viewer ⟨v, b, e⟩) (fun p b e => producer ⟨p, b, e⟩) h

theorem closing_exec {limits : Limits} {w later : World} {actions : List Act}
    (reach : (server limits).Reachable w) (run : (server limits).exec w actions = some later) :
    ClosingKept w later :=
  exec_monotone (server limits) (fun _ _ closing => closing)
    (fun _ _ _ left right r closing => right r (left r closing))
    (fun _ _ _ reached taken => closing_step reached taken) reach run

/-- One room's slot, whatever the other runs, sessions and shutdowns are doing. -/
structure ExclusiveSlot (limits : Limits) (w : World) (r : RoomId) : Prop where
  oneHolder : ∀ p q, Holds (w.producerRuns p) → Holds (w.producerRuns q) →
    (w.producerRuns p).room = r → (w.producerRuns q).room = r → p = q
  staleRelease : ∀ p, ¬ Holds (w.producerRuns p) → (w.producerRuns p).room = r →
    (w.rooms r).releaseProducer (w.producerRuns p).generation = w.rooms r
  connection : (w.rooms r).producerConn = none ∨ ∃ p, Holds (w.producerRuns p) ∧
    (w.producerRuns p).room = r ∧ (w.producerRuns p).attached = true ∧
    (w.producerRuns p).conn = some (.producer p) ∧
    (w.rooms r).producerConn = some (.producer p)
  nextClaim : (∀ p, (w.producerRuns p).room = r → ¬ Holds (w.producerRuns p)) →
    (w.rooms r).closing = false →
    ∃ room generation, (w.rooms r).claimProducer = .ok (room, generation)
  closed : (w.rooms r).closing = true → ∀ actions later,
    (server limits).exec w actions = some later →
    (later.rooms r).claimProducer = .error .roomClosing ∧
      ∀ generation conn, (later.rooms r).attachProducer generation conn = none

theorem stale_release {w : World} (h : Slot w) {p : ProducerId}
    (stale : ¬ Holds (w.producerRuns p)) :
    (w.rooms (w.producerRuns p).room).releaseProducer (w.producerRuns p).generation =
      w.rooms (w.producerRuns p).room := by
  unfold Room.releaseProducer
  split
  · rfl
  · rename_i current
    have matched : (w.producerRuns p).generation =
        (w.rooms (w.producerRuns p).room).producerGeneration := not_not.mp current
    -- the slot is free: its holder would have this very generation
    have free : (w.rooms (w.producerRuns p).room).producerActive = false := by
      rw [Bool.eq_false_iff]
      intro on
      obtain ⟨q, held, home⟩ := h.holders.active _ on
      have numbered := h.holders.numbered _ on
      have claimed : 0 < (w.producerRuns p).claims := by
        rcases Nat.eq_zero_or_pos (w.producerRuns p).claims with none | some
        · have := (h.atStage p).1 none
          omega
        · exact some
      have generation := (h.holders.holder q held).2
      rw [home] at generation
      have same := h.holders.distinct q p (holds_claims held) claimed home
        (generation.trans matched.symm)
      exact stale (same ▸ held)
    have unconnected : (w.rooms (w.producerRuns p).room).producerConn = none := by
      rw [Option.eq_none_iff_forall_ne_some]
      intro c attached
      obtain ⟨q, held, home, -⟩ := h.holders.conn _ c attached
      have on := (h.holders.holder q held).1
      rw [home, free] at on
      cases on
    rw [← free, ← unconnected]

theorem exclusive_producer_slot (limits : Limits) {w : World}
    (reach : (server limits).Reachable w) (r : RoomId) : ExclusiveSlot limits w r := by
  have slot := slot_invariant limits reach
  constructor
  case oneHolder =>
    intro p q left right roomP roomQ
    exact one_holder slot.holders left right (roomP.trans roomQ.symm)
  case staleRelease =>
    intro p stale home
    subst home
    exact stale_release slot stale
  case connection =>
    cases conn : (w.rooms r).producerConn with
    | none => exact Or.inl rfl
    | some c =>
      obtain ⟨p, held, home, attached, own⟩ := slot.holders.conn r c conn
      exact Or.inr ⟨p, held, home, attached, (slot.atStage p).2.1 attached, by rw [own]⟩
  case nextClaim =>
    intro nobody isOpen
    have free : (w.rooms r).producerActive = false := by
      rw [Bool.eq_false_iff]
      intro on
      obtain ⟨p, held, home⟩ := slot.holders.active r on
      exact nobody p home held
    exact ⟨_, _, claim_ok_iff.mpr ⟨isOpen, free, rfl, rfl⟩⟩
  case closed =>
    intro closing actions later run
    have refused := closing_refuses (closing_exec reach run r closing)
    exact ⟨refused.1, refused.2.1⟩

/-- The first producer comes and goes, another is refused meanwhile, a third follows. -/
def handover : List Act :=
  [.producer 0 (.begin [97]), .producer 0 .claim, .producer 1 (.begin [97]), .producer 1 .claim,
   .producer 0 (.upgrade true), .producer 0 .attach, .producer 0 .leave, .producer 0 .unwind,
   .producer 0 .unwind, .producer 2 (.begin [97]), .producer 2 .claim,
   .producer 2 (.upgrade true), .producer 2 .attach, .producer 0 .unwind, .producer 0 .finish]

def handoverLimits : Limits := ⟨2, 3000⟩

def handoverWorld : World :=
  ((server handoverLimits).exec (started (fun _ => 1) {[97]}) handover).get rfl

theorem exclusive_producer_slot_handover :
    (handoverWorld.rooms [97]).producerConn = some (.producer 2) ∧
      (handoverWorld.producerRuns 0).stage = .ended ∧
      ExclusiveSlot handoverLimits handoverWorld [97] :=
  ⟨rfl, rfl, exclusive_producer_slot handoverLimits
    ⟨_, handover, ⟨_, _, rfl⟩, (Option.some_get _).symm⟩ [97]⟩

end RelayProducers
