import GameSecurity.RelayLifecycle
import GameSecurity.Occupancy

/- The places of viewer runs: reservations in sessions and memberships in rooms. What
   one step can do is said once, in `Effect`; the invariants are read off it. -/
namespace RelayViewers
open Runs RelayRoom RelaySession RelayLifecycle Occupancy

def Stack (l : List ViewerDefer) : Prop :=
  l = [] ∨ l = [.releaseViewer] ∨ l = [.removeViewer, .releaseViewer] ∨
    l = [.closeConn, .removeViewer, .releaseViewer] ∨
    l = [.closeDone, .closeConn, .removeViewer, .releaseViewer]

structure Counts (run : ViewerRun) : Prop where
  reserved : run.reserved = run.released + run.deferred.count .releaseViewer
  added : run.added = run.removed + run.deferred.count .removeViewer
  reservedOnce : run.reserved ≤ 1
  addedOnce : run.added ≤ 1

/-- What a run's stage says about the run alone. -/
def AtStage (closed : Finset Conn) (v : ViewerId) (run : ViewerRun) : Prop :=
  match run.stage with
  | .waiting | .checked | .admitted =>
    run.deferred = [] ∧ run.conn = none ∧ run.reserved = 0 ∧ run.added = 0
  | .reserved => run.deferred = [.releaseViewer] ∧ run.conn = none ∧ run.added = 0
  | .added => run.deferred = [.removeViewer, .releaseViewer] ∧ run.conn = none
  | .upgraded | .compressed | .roomAttached | .refused =>
    run.deferred = [.removeViewer, .releaseViewer] ∧ run.conn = some (.viewer v)
  | .reading =>
    run.deferred = [.closeDone, .closeConn, .removeViewer, .releaseViewer] ∧
      run.conn = some (.viewer v)
  | .returning =>
    Stack run.deferred ∧ (run.conn = none ∨ run.conn = some (.viewer v)) ∧
      (.closeConn ∈ run.deferred ∨ run.conn = none ∨ .viewer v ∈ closed)
  | .ended =>
    run.deferred = [] ∧ (run.conn = none ∨ run.conn = some (.viewer v)) ∧
    (run.conn = none ∨ .viewer v ∈ closed)

/-- From the authentication on a run has a session and a room. -/
def Begun (run : ViewerRun) : Prop := run.stage ≠ .waiting ∧ run.stage ≠ .checked

structure Moves (old run : ViewerRun) : Prop where
  begun : Begun run → Begun old
  session : run.session = old.session
  room : run.room = old.room
  conn : old.conn = none ∨ run.conn = old.conn

structure Keeps (old run : ViewerRun) : Prop extends Moves old run where
  reservation : .releaseViewer ∈ run.deferred ↔ .releaseViewer ∈ old.deferred
  membership : .removeViewer ∈ run.deferred ↔ .removeViewer ∈ old.deferred

/-- What one step of a viewer run can do to the server. -/
inductive Effect (limits : Limits) (w : World) (v : ViewerId) (old : ViewerRun) :
    World → Prop where
  | begin (run : ViewerRun) (before : old.deferred = []) (after : run.deferred = [])
      (unconnected : old.conn = none) (mapped : run.session ∈ w.sessionMap)
      (home : run.room = (w.sessions run.session).room) :
      Effect limits w v old (w.setViewer v run)
  | quiet (run : ViewerRun) (keeps : Keeps old run) :
      Effect limits w v old (w.setViewer v run)
  | reserve (now : Time) (session : Session) (run : ViewerRun) (moves : Moves old run)
      (before : old.deferred = []) (after : run.deferred = [.releaseViewer])
      (ok : (w.sessions old.session).reserveViewer now limits.maxViewersPerSession v =
        some session) :
      Effect limits w v old ((w.setSession old.session session).setViewer v run)
  | add (now : Time) (room : Room) (run : ViewerRun) (moves : Moves old run)
      (before : old.deferred = [.releaseViewer])
      (after : run.deferred = [.removeViewer, .releaseViewer])
      (ok : (w.rooms old.room).addViewer v now limits.snapshotTTL = .ok (room, run.latest)) :
      Effect limits w v old ((w.setRoom old.room room).setViewer v run)
  | attachRoom (object : Viewer) (run : ViewerRun) (keeps : Keeps old run)
      (member : .removeViewer ∈ run.deferred) (own : run.conn = some (.viewer v))
      (ok : (w.rooms old.room).attachViewer v (w.objects v) (.viewer v) = some object) :
      Effect limits w v old { w.setViewer v run with
        objects := Function.update w.objects v object
        attachedToRoom := Function.update w.attachedToRoom old.room
          (insert (.viewer v) (w.attachedToRoom old.room)) }
  | attachSession (now : Time) (reservation : SessionViewer) (run : ViewerRun)
      (keeps : Keeps old run) (passed : old.stage = .roomAttached)
      (member : .releaseViewer ∈ run.deferred) (own : run.conn = some (.viewer v))
      (ok : (w.sessions old.session).attachViewer v (.viewer v) now = some reservation) :
      Effect limits w v old { w.setViewer v run with
        reservations := Function.update w.reservations v reservation
        attachedToSession := Function.update w.attachedToSession old.session
          (insert (.viewer v) (w.attachedToSession old.session)) }
  | close (run : ViewerRun) (keeps : Keeps old run) :
      Effect limits w v old ((w.close old.conn).setViewer v run)
  | release (run : ViewerRun) (moves : Moves old run) (shut : run.conn = none ∨ .viewer v ∈ w.closed)
      (before : old.deferred = [.releaseViewer]) (after : run.deferred = []) :
      Effect limits w v old
        ((w.setSession old.session ((w.sessions old.session).releaseViewer v)).setViewer v run)
  | remove (run : ViewerRun) (moves : Moves old run) (shut : run.conn = none ∨ .viewer v ∈ w.closed)
      (before : old.deferred = [.removeViewer, .releaseViewer])
      (after : run.deferred = [.releaseViewer]) :
      Effect limits w v old
        ((w.setRoom old.room ((w.rooms old.room).removeViewer v)).setViewer v run)

theorem effect {limits : Limits} {w next : World} {v : ViewerId} {a : ViewerAct}
    {old : ViewerRun} (here : AtStage w.closed v old)
    (h : viewerStep limits w v old a = some next) :
    Effect limits w v old next := by
  cases a with
  | check =>
    simp only [viewerStep, Option.ite_none_right_eq_some, Option.some.injEq] at h
    obtain ⟨-, rfl⟩ := h
    exact .quiet _ ⟨⟨fun begun => absurd rfl begun.2, rfl, rfl, Or.inr rfl⟩, Iff.rfl, Iff.rfl⟩
  | begin s now =>
    simp only [viewerStep, Option.ite_none_right_eq_some, Option.some.injEq] at h
    obtain ⟨⟨stage, mapped, -⟩, rfl⟩ := h
    simp only [AtStage, stage] at here
    exact .begin _ here.1 here.1 here.2.1 mapped rfl
  | reserve now =>
    simp only [viewerStep, Option.ite_none_right_eq_some] at h
    obtain ⟨stage, h⟩ := h
    simp only [AtStage, stage] at here
    have begun : Begun old := by simp [Begun, stage]
    split at h <;> rw [← Option.some.inj h]
    · exact .quiet _ ⟨⟨fun _ => begun, rfl, rfl, Or.inr rfl⟩, Iff.rfl, Iff.rfl⟩
    · rename_i session ok
      exact .reserve now session _ ⟨fun _ => begun, rfl, rfl, Or.inr rfl⟩ here.1
        (by simp [here.1]) ok
  | add now =>
    simp only [viewerStep, Option.ite_none_right_eq_some] at h
    obtain ⟨stage, h⟩ := h
    simp only [AtStage, stage] at here
    have begun : Begun old := by simp [Begun, stage]
    split at h <;> rw [← Option.some.inj h]
    · exact .quiet _ ⟨⟨fun _ => begun, rfl, rfl, Or.inr rfl⟩, Iff.rfl, Iff.rfl⟩
    · rename_i room latest ok
      exact .add now room _ ⟨fun _ => begun, rfl, rfl, Or.inr rfl⟩ here.1 (by simp [here.1]) ok
  | upgrade ok =>
    simp only [viewerStep, Option.ite_none_right_eq_some] at h
    obtain ⟨stage, h⟩ := h
    simp only [AtStage, stage] at here
    have begun : Begun old := by simp [Begun, stage]
    split at h <;> rw [← Option.some.inj h] <;>
      exact .quiet _ ⟨⟨fun _ => begun, rfl, rfl, Or.inl here.2⟩, Iff.rfl, Iff.rfl⟩
  | compress ok =>
    simp only [viewerStep, Option.ite_none_right_eq_some, Option.some.injEq] at h
    obtain ⟨stage, rfl⟩ := h
    exact .quiet _ ⟨⟨fun _ => by simp [Begun, stage], rfl, rfl, Or.inr rfl⟩, Iff.rfl, Iff.rfl⟩
  | attachRoom =>
    simp only [viewerStep, Option.ite_none_right_eq_some] at h
    obtain ⟨stage, h⟩ := h
    simp only [AtStage, stage] at here
    have keeps : ∀ s, Keeps old { old with stage := s } := fun s =>
      ⟨⟨fun _ => by simp [Begun, stage], rfl, rfl, Or.inr rfl⟩, Iff.rfl, Iff.rfl⟩
    split at h <;> rw [← Option.some.inj h]
    · exact .quiet _ (keeps _)
    · rename_i object ok
      exact .attachRoom object _ (keeps _) (by simp [here.1]) here.2 ok
  | attachSession now =>
    simp only [viewerStep, Option.ite_none_right_eq_some] at h
    obtain ⟨stage, h⟩ := h
    simp only [AtStage, stage] at here
    have begun : Begun old := by simp [Begun, stage]
    split at h <;> rw [← Option.some.inj h]
    · exact .quiet _ ⟨⟨fun _ => begun, rfl, rfl, Or.inr rfl⟩, Iff.rfl, Iff.rfl⟩
    · rename_i reservation ok
      exact .attachSession now reservation _
        ⟨⟨fun _ => begun, rfl, rfl, Or.inr rfl⟩, by simp, by simp⟩ stage (by simp [here.1])
        here.2 ok
  | discard =>
    simp only [viewerStep, Option.ite_none_right_eq_some, Option.some.injEq] at h
    obtain ⟨stage, rfl⟩ := h
    exact .close _ ⟨⟨fun _ => by simp [Begun, stage], rfl, rfl, Or.inr rfl⟩, Iff.rfl, Iff.rfl⟩
  | leave =>
    simp only [viewerStep, Option.ite_none_right_eq_some, Option.some.injEq] at h
    obtain ⟨stage, rfl⟩ := h
    exact .quiet _ ⟨⟨fun _ => by simp [Begun, stage], rfl, rfl, Or.inr rfl⟩, Iff.rfl, Iff.rfl⟩
  | finish =>
    simp only [viewerStep, Option.ite_none_right_eq_some, Option.some.injEq] at h
    obtain ⟨⟨stage, _⟩, rfl⟩ := h
    exact .quiet _ ⟨⟨fun _ => by simp [Begun, stage], rfl, rfl, Or.inr rfl⟩, Iff.rfl, Iff.rfl⟩
  | unwind =>
    simp only [viewerStep, Option.ite_none_right_eq_some] at h
    obtain ⟨stage, h⟩ := h
    simp only [AtStage, stage] at here
    obtain ⟨stack, -, shut⟩ := here
    have begun : Begun old := by simp [Begun, stage]
    rcases stack with e | e | e | e | e <;> simp only [e, reduceCtorEq, Option.some.injEq] at h <;>
      subst next
    · exact .release _ ⟨fun _ => begun, rfl, rfl, Or.inr rfl⟩ (by simpa [e] using shut) e rfl
    · exact .remove _ ⟨fun _ => begun, rfl, rfl, Or.inr rfl⟩ (by simpa [e] using shut) e rfl
    · exact .close _ ⟨⟨fun _ => begun, rfl, rfl, Or.inr rfl⟩, by simp [e], by simp [e]⟩
    · exact .quiet _ ⟨⟨fun _ => begun, rfl, rfl, Or.inr rfl⟩, by simp [e], by simp [e]⟩



theorem unwind_local {w : World} {v : ViewerId} {old : ViewerRun} {call : ViewerDefer}
    {rest : List ViewerDefer} (stage : old.stage = .returning)
    (here : AtStage w.closed v old) (counts : Counts old) (top : old.deferred = call :: rest) :
    AtStage (unwindViewer w v { old with deferred := rest } call).closed v
        ((unwindViewer w v { old with deferred := rest } call).viewerRuns v) ∧
      Counts ((unwindViewer w v { old with deferred := rest } call).viewerRuns v) := by
  simp only [AtStage, stage] at here
  obtain ⟨stack, own, shut⟩ := here
  obtain ⟨reserved, added, reservedOnce, addedOnce⟩ := counts
  rcases stack with e | e | e | e | e <;> rw [e] at top
  · cases top
  all_goals
    simp only [List.cons.injEq] at top
    obtain ⟨rfl, rfl⟩ := top
    refine ⟨?_, ⟨?_, ?_, ?_, ?_⟩⟩ <;>
      simp_all [AtStage, Stack, unwindViewer, World.setViewer, World.setSession, World.setRoom,
        World.close]
  tauto

theorem step_local {limits : Limits} {w next : World} {v : ViewerId} {a : ViewerAct}
    {old : ViewerRun} (here : AtStage w.closed v old) (counts : Counts old)
    (h : viewerStep limits w v old a = some next) :
    AtStage next.closed v (next.viewerRuns v) ∧ Counts (next.viewerRuns v) := by
  cases a with
  | unwind =>
    simp only [viewerStep, Option.ite_none_right_eq_some] at h
    obtain ⟨stage, h⟩ := h
    split at h
    · cases h
    · rename_i top
      rw [← Option.some.inj h]
      exact unwind_local stage here counts top
  | _ =>
    simp only [viewerStep, Option.ite_none_right_eq_some] at h
    obtain ⟨stage, h⟩ := h
    obtain ⟨reserved, added, reservedOnce, addedOnce⟩ := counts
    (try split at h) <;> simp only [Option.some.injEq] at h <;> subst next <;>
      refine ⟨?_, ⟨?_, ?_, ?_, ?_⟩⟩ <;>
      simp_all [AtStage, Stack, World.setViewer, World.setSession, World.setRoom, World.close]


def HoldsReservation (run : ViewerRun) : Prop := .releaseViewer ∈ run.deferred
def HoldsMembership (run : ViewerRun) : Prop := .removeViewer ∈ run.deferred

structure Places (limits : Limits) (w : World) : Prop where
  atStage : ∀ v, AtStage w.closed v (w.viewerRuns v)
  counts : ∀ v, Counts (w.viewerRuns v)
  mapped : ∀ s ∈ w.sessionMap, s ∈ w.created
  home : ∀ s ∈ w.created, (w.sessions s).room ∈ w.roomIds
  begun : ∀ v, Begun (w.viewerRuns v) →
    (w.viewerRuns v).session ∈ w.created ∧ (w.viewerRuns v).room ∈ w.roomIds
  inSession : Exact (fun s => (w.sessions s).viewers) w.viewerRuns HoldsReservation
    ViewerRun.session
  inRoom : Exact (fun r => (w.rooms r).viewers) w.viewerRuns HoldsMembership ViewerRun.room
  sessionCap : Within (fun s => (w.sessions s).viewers) fun _ => limits.maxViewersPerSession
  roomCap : Within (fun r => (w.rooms r).viewers) fun r => (w.rooms r).maxViewers

theorem atStage_mono {closed more : Finset Conn} {v : ViewerId} {run : ViewerRun}
    (grows : closed ⊆ more) (h : AtStage closed v run) : AtStage more v run := by
  cases stage : run.stage <;> simp only [AtStage, stage] at h ⊢
  case returning =>
    obtain ⟨stack, own, left | never | shut⟩ := h
    · exact ⟨stack, own, Or.inl left⟩
    · exact ⟨stack, own, Or.inr (Or.inl never)⟩
    · exact ⟨stack, own, Or.inr (Or.inr (grows shut))⟩
  case ended =>
    obtain ⟨stack, own, never | shut⟩ := h
    · exact ⟨stack, own, Or.inl never⟩
    · exact ⟨stack, own, Or.inr (grows shut)⟩
  all_goals exact h

/-- A step that is no viewer's and no login leaves the viewers' side alone. -/
structure Untouched (w next : World) : Prop where
  viewerRuns : next.viewerRuns = w.viewerRuns
  sessionViewers : ∀ s, (next.sessions s).viewers = (w.sessions s).viewers
  sessionRoom : ∀ s, (next.sessions s).room = (w.sessions s).room
  roomViewers : ∀ r, (next.rooms r).viewers = (w.rooms r).viewers
  maxViewers : ∀ r, (next.rooms r).maxViewers = (w.rooms r).maxViewers
  created : next.created = w.created
  roomIds : next.roomIds = w.roomIds
  sessionMap : next.sessionMap ⊆ w.sessionMap
  closed : w.closed ⊆ next.closed

theorem untouched_setRoom {w next : World} {r : RoomId} {room : Room} (h : Untouched w next)
    (viewers : room.viewers = (w.rooms r).viewers)
    (cap : room.maxViewers = (w.rooms r).maxViewers) :
    Untouched w (next.setRoom r room) := by
  obtain ⟨h1, h2, h3, h4, h5, h6, h7, h8, h9⟩ := h
  refine ⟨h1, h2, h3, ?_, ?_, h6, h7, h8, h9⟩ <;> intro j <;> by_cases e : j = r <;>
    simp_all [World.setRoom]

theorem untouched_refl (w : World) : Untouched w w :=
  ⟨rfl, fun _ => rfl, fun _ => rfl, fun _ => rfl, fun _ => rfl, rfl, rfl, subset_rfl, subset_rfl⟩

theorem claim_viewers {r next : Room} {generation : Nat}
    (h : r.claimProducer = .ok (next, generation)) :
    next.viewers = r.viewers ∧ next.maxViewers = r.maxViewers := by
  obtain ⟨-, -, -, rfl⟩ := claim_ok_iff.mp h
  exact ⟨rfl, rfl⟩

theorem release_viewers (r : Room) (generation : Nat) :
    (r.releaseProducer generation).viewers = r.viewers ∧
      (r.releaseProducer generation).maxViewers = r.maxViewers := by
  unfold Room.releaseProducer
  split <;> exact ⟨rfl, rfl⟩

theorem untouched_producer {w next : World} {p : ProducerId} {a : ProducerAct}
    {run : ProducerRun} (h : producerStep w p run a = some next) : Untouched w next := by
  have self := untouched_refl w
  cases a with
  | claim =>
    simp only [producerStep, Option.ite_none_right_eq_some] at h
    obtain ⟨-, h⟩ := h
    split at h <;> rw [← Option.some.inj h]
    · exact { self with }
    · rename_i ok
      have same := claim_viewers ok
      exact { untouched_setRoom self same.1 same.2 with }
  | attach =>
    simp only [producerStep, Option.ite_none_right_eq_some] at h
    obtain ⟨-, h⟩ := h
    split at h <;> rw [← Option.some.inj h]
    · exact { self with }
    · rename_i ok
      obtain ⟨-, -, -, rfl⟩ := attach_producer_some_iff.mp ok
      have kept : Untouched w (w.setRoom run.room
          { w.rooms run.room with producerConn := some (.producer p) }) :=
        untouched_setRoom self rfl rfl
      exact { kept with }
  | unwind =>
    simp only [producerStep, Option.ite_none_right_eq_some] at h
    obtain ⟨-, h⟩ := h
    have same := release_viewers (w.rooms run.room) run.generation
    have released : Untouched w
        (w.setRoom run.room ((w.rooms run.room).releaseProducer run.generation)) :=
      untouched_setRoom self same.1 same.2
    split at h
    · cases h
    · rename_i call rest top
      rw [← Option.some.inj h]
      cases call with
      | releaseUnlessAttached =>
        simp only [unwindProducer]
        split
        · exact { self with }
        · exact { released with }
      | releaseProducer => exact { released with }
      | closeConn => exact { self with closed := Finset.subset_union_left }
  | _ =>
    simp only [producerStep, Option.ite_none_right_eq_some] at h
    obtain ⟨-, h⟩ := h
    (try split at h) <;> rw [← Option.some.inj h] <;>
      exact { self with closed := by first | exact subset_rfl | exact Finset.subset_union_left }

theorem untouched_revoke {w next : World} {k : CallId} {call : RevokeCall}
    (eff : RevokeEffect w k call next) : Untouched w next := by
  have self := untouched_refl w
  cases eff with
  | lock s session conns ok =>
    obtain ⟨-, rfl, rfl⟩ := revoke_some_iff.mp ok
    have viewers : ∀ j, ((w.setSession s { w.sessions s with
        revoked := true, doneCloses := (w.sessions s).doneCloses + 1 }).sessions j).viewers =
        (w.sessions j).viewers := by
      intro j
      by_cases e : j = s <;> simp [World.setSession, e]
    have rooms : ∀ j, ((w.setSession s { w.sessions s with
        revoked := true, doneCloses := (w.sessions s).doneCloses + 1 }).sessions j).room =
        (w.sessions j).room := by
      intro j
      by_cases e : j = s <;> simp [World.setSession, e]
    exact { self with sessionViewers := viewers, sessionRoom := rooms }
  | close s left c member => exact { self with closed := Finset.subset_union_left }
  | _ => exact { self with }

theorem untouched_close {w next : World} {k : CallId} {call : CloseCall}
    (eff : CloseEffect w k call next) : Untouched w next := by
  have self := untouched_refl w
  cases eff with
  | lock r =>
    have kept : Untouched w (w.setRoom r ((w.rooms r).collect w.objects).1) :=
      untouched_setRoom self rfl rfl
    exact { kept with }
  | close r left c member => exact { self with closed := Finset.subset_union_left }
  | _ => exact { self with }

theorem untouched_server {w next : World} {state : ServerClose}
    (eff : ServerEffect w state next) : Untouched w next := by
  have self := untouched_refl w
  cases eff with
  | clear => exact { self with sessionMap := Finset.empty_subset _ }
  | _ => exact { self with }

theorem untouched_step {limits : Limits} {w next : World} {a : Act}
    (notViewer : ∀ v b, a ≠ .viewer v b) (notLogin : ∀ s r t, a ≠ .login s r t)
    (h : step limits w a = some next) : Untouched w next := by
  have self := untouched_refl w
  cases a with
  | viewer v b => exact absurd rfl (notViewer v b)
  | login s r t => exact absurd rfl (notLogin s r t)
  | unmap s =>
    simp only [step, Option.some.injEq] at h
    subst next
    exact { self with sessionMap := Finset.erase_subset _ _ }
  | setReady ready =>
    simp only [step, Option.some.injEq] at h
    subst next
    exact { self with }
  | drop c =>
    simp only [step, Option.ite_none_right_eq_some, Option.some.injEq] at h
    obtain ⟨-, rfl⟩ := h
    exact { self with closed := Finset.subset_union_left }
  | producer p b => exact untouched_producer h
  | revoke k b => exact untouched_revoke (revoke_effect h)
  | close k b => exact untouched_close (close_effect h)
  | server b => exact untouched_server (server_effect h)

theorem places_untouched {limits : Limits} {w next : World} (h : Places limits w)
    (same : Untouched w next) : Places limits next where
  atStage v := by
    rw [same.viewerRuns]
    exact atStage_mono same.closed (h.atStage v)
  counts v := by
    rw [same.viewerRuns]
    exact h.counts v
  mapped s member := by
    rw [same.created]
    exact h.mapped s (same.sessionMap member)
  home s member := by
    rw [same.created] at member
    rw [same.sessionRoom, same.roomIds]
    exact h.home s member
  begun v started := by
    rw [same.viewerRuns] at started ⊢
    rw [same.created, same.roomIds]
    exact h.begun v started
  inSession := by
    rw [same.viewerRuns]
    exact exact_same h.inSession same.sessionViewers
  inRoom := by
    rw [same.viewerRuns]
    exact exact_same h.inRoom same.roomViewers
  sessionCap := within_shrink h.sessionCap fun s => (same.sessionViewers s).subset
  roomCap r := by
    simp only [same.roomViewers, same.maxViewers]
    exact h.roomCap r

/-- A session nobody created yet has no reservations, so a login cannot lose any. -/
theorem uncreated_empty {limits : Limits} {w : World} (h : Places limits w) {s : SessionId}
    (unborn : s ∉ w.created) : (w.sessions s).viewers = ∅ := by
  apply Finset.eq_empty_of_forall_notMem
  intro v member
  obtain ⟨held, here⟩ := (h.inSession s v).mp member
  have here' : (w.viewerRuns v).session = s := here
  have begun : Begun (w.viewerRuns v) := by
    have stage := h.atStage v
    constructor <;> intro idle <;> simp only [AtStage, idle] at stage <;>
      simp [HoldsReservation, stage.1] at held
  exact unborn (here' ▸ (h.begun v begun).1)

theorem places_login {limits : Limits} {w next : World} {s : SessionId} {r : RoomId} {t : Time}
    (h : Places limits w) (taken : step limits w (.login s r t) = some next) :
    Places limits next := by
  simp only [step, Option.ite_none_right_eq_some, Option.some.injEq] at taken
  obtain ⟨⟨unborn, known⟩, rfl⟩ := taken
  have empty := uncreated_empty h unborn
  have viewers : ∀ j, (Function.update w.sessions s (newSession r t) j).viewers =
      (w.sessions j).viewers := by
    intro j
    by_cases e : j = s
    · subst j
      simp [newSession, empty]
    · simp [e]
  exact {
    atStage := h.atStage
    counts := h.counts
    mapped := by
      intro j member
      rcases Finset.mem_insert.mp member with e | old
      · exact Finset.mem_insert.mpr (Or.inl e)
      · exact Finset.mem_insert_of_mem (h.mapped j old)
    home := by
      intro j member
      by_cases e : j = s
      · subst j
        simpa [World.setSession, newSession] using known
      · have old := h.home j (Finset.mem_of_mem_insert_of_ne member e)
        simpa [World.setSession, e] using old
    begun := fun v started =>
      ⟨Finset.mem_insert_of_mem (h.begun v started).1, (h.begun v started).2⟩
    inSession := exact_same h.inSession viewers
    inRoom := h.inRoom
    sessionCap := within_shrink h.sessionCap fun j => (viewers j).subset
    roomCap := h.roomCap }

@[simp] theorem setSession_viewerRuns (w : World) (s : SessionId) (session : Session) :
    (w.setSession s session).viewerRuns = w.viewerRuns := rfl

@[simp] theorem setRoom_viewerRuns (w : World) (r : RoomId) (room : Room) :
    (w.setRoom r room).viewerRuns = w.viewerRuns := rfl

theorem setSession_viewers (w : World) (s : SessionId) (session : Session) :
    ((w.setSession s session).sessions s).viewers = session.viewers ∧
      ∀ j, j ≠ s → ((w.setSession s session).sessions j).viewers = (w.sessions j).viewers := by
  constructor
  · simp [World.setSession]
  · intro j other
    simp [World.setSession, other]

theorem setRoom_viewers (w : World) (r : RoomId) (room : Room) :
    ((w.setRoom r room).rooms r).viewers = room.viewers ∧
      ∀ j, j ≠ r → ((w.setRoom r room).rooms j).viewers = (w.rooms j).viewers := by
  constructor
  · simp [World.setRoom]
  · intro j other
    simp [World.setRoom, other]

theorem setRoom_cap {w : World} {r : RoomId} {room : Room}
    (same : room.maxViewers = (w.rooms r).maxViewers) (j : RoomId) :
    ((w.setRoom r room).rooms j).maxViewers = (w.rooms j).maxViewers := by
  by_cases e : j = r <;> simp [World.setRoom, e, same]

theorem effect_inSession {limits : Limits} {w next : World} {v : ViewerId}
    (h : Exact (fun s => (w.sessions s).viewers) w.viewerRuns HoldsReservation ViewerRun.session)
    (eff : Effect limits w v (w.viewerRuns v) next) :
    Exact (fun s => (next.sessions s).viewers) next.viewerRuns HoldsReservation
      ViewerRun.session := by
  cases eff with
  | begin run before after =>
    exact exact_keep h (by simp [HoldsReservation, before, after])
      (by simp [HoldsReservation, after])
  | quiet run keeps | attachRoom object run keeps | attachSession now reservation run keeps
  | close run keeps =>
    exact exact_keep h keeps.reservation fun _ => keeps.session
  | add now room run moves before after =>
    exact exact_keep h (by simp [HoldsReservation, before, after]) fun _ => moves.session
  | remove run moves shut before after =>
    exact exact_keep h (by simp [HoldsReservation, before, after]) fun _ => moves.session
  | reserve now session run moves before after ok =>
    obtain ⟨-, -, -, rfl⟩ := reserve_some_iff.mp ok
    have viewers := setSession_viewers w (w.viewerRuns v).session
      { w.sessions (w.viewerRuns v).session with
        viewers := insert v (w.sessions (w.viewerRuns v).session).viewers }
    exact exact_take h (by simp [HoldsReservation, before]) (by simp [HoldsReservation, after])
      moves.session viewers.1 viewers.2
  | release run moves shut before after =>
    have viewers := setSession_viewers w (w.viewerRuns v).session
      ((w.sessions (w.viewerRuns v).session).releaseViewer v)
    exact exact_give h (by simp [HoldsReservation, after]) rfl viewers.1 viewers.2

theorem effect_inRoom {limits : Limits} {w next : World} {v : ViewerId}
    (h : Exact (fun r => (w.rooms r).viewers) w.viewerRuns HoldsMembership ViewerRun.room)
    (eff : Effect limits w v (w.viewerRuns v) next) :
    Exact (fun r => (next.rooms r).viewers) next.viewerRuns HoldsMembership ViewerRun.room := by
  cases eff with
  | begin run before after =>
    exact exact_keep h (by simp [HoldsMembership, before, after])
      (by simp [HoldsMembership, after])
  | quiet run keeps | attachRoom object run keeps | attachSession now reservation run keeps
  | close run keeps =>
    exact exact_keep h keeps.membership fun _ => keeps.room
  | reserve now session run moves before after =>
    exact exact_keep h (by simp [HoldsMembership, before, after]) fun _ => moves.room
  | release run moves shut before after =>
    exact exact_keep h (by simp [HoldsMembership, before, after]) fun _ => moves.room
  | add now room run moves before after ok =>
    obtain ⟨-, -, rfl, -⟩ := add_viewer_ok ok
    have viewers := setRoom_viewers w (w.viewerRuns v).room
      { w.rooms (w.viewerRuns v).room with
        viewers := insert v (w.rooms (w.viewerRuns v).room).viewers }
    exact exact_take h (by simp [HoldsMembership, before]) (by simp [HoldsMembership, after])
      moves.room viewers.1 viewers.2
  | remove run moves shut before after =>
    have viewers := setRoom_viewers w (w.viewerRuns v).room
      ((w.rooms (w.viewerRuns v).room).removeViewer v)
    exact exact_give h (by simp [HoldsMembership, after]) rfl viewers.1 viewers.2

theorem effect_sessionCap {limits : Limits} {w next : World} {v : ViewerId}
    (h : Within (fun s => (w.sessions s).viewers) fun _ => limits.maxViewersPerSession)
    (eff : Effect limits w v (w.viewerRuns v) next) :
    Within (fun s => (next.sessions s).viewers) fun _ => limits.maxViewersPerSession := by
  cases eff with
  | reserve now session run moves before after ok =>
    obtain ⟨-, -, free, rfl⟩ := reserve_some_iff.mp ok
    have viewers := setSession_viewers w (w.viewerRuns v).session
      { w.sessions (w.viewerRuns v).session with
        viewers := insert v (w.sessions (w.viewerRuns v).session).viewers }
    exact within_take h free viewers.1 viewers.2
  | release run moves shut before after =>
    have viewers := setSession_viewers w (w.viewerRuns v).session
      ((w.sessions (w.viewerRuns v).session).releaseViewer v)
    refine within_shrink h fun s => ?_
    by_cases e : s = (w.viewerRuns v).session
    · subst s
      exact viewers.1 ▸ Finset.erase_subset _ _
    · exact (viewers.2 s e).subset
  | _ => exact h

theorem effect_roomCap {limits : Limits} {w next : World} {v : ViewerId}
    (h : Within (fun r => (w.rooms r).viewers) fun r => (w.rooms r).maxViewers)
    (eff : Effect limits w v (w.viewerRuns v) next) :
    (∀ r, (next.rooms r).maxViewers = (w.rooms r).maxViewers) ∧
      Within (fun r => (next.rooms r).viewers) fun r => (w.rooms r).maxViewers := by
  cases eff with
  | add now room run moves before after ok =>
    obtain ⟨-, free, rfl, -⟩ := add_viewer_ok ok
    have viewers := setRoom_viewers w (w.viewerRuns v).room
      { w.rooms (w.viewerRuns v).room with
        viewers := insert v (w.rooms (w.viewerRuns v).room).viewers }
    exact ⟨setRoom_cap rfl, within_take h free viewers.1 viewers.2⟩
  | remove run moves shut before after =>
    have viewers := setRoom_viewers w (w.viewerRuns v).room
      ((w.rooms (w.viewerRuns v).room).removeViewer v)
    refine ⟨setRoom_cap rfl, within_shrink h fun r => ?_⟩
    by_cases e : r = (w.viewerRuns v).room
    · subst r
      exact viewers.1 ▸ Finset.erase_subset _ _
    · exact (viewers.2 r e).subset
  | _ => exact ⟨fun _ => rfl, h⟩

/-- The rest of the server, as far as a viewer step can change it. -/
theorem effect_frame {limits : Limits} {w next : World} {v : ViewerId} {old : ViewerRun}
    (eff : Effect limits w v old next) :
    next.created = w.created ∧ next.roomIds = w.roomIds ∧ next.sessionMap = w.sessionMap ∧
      (∀ s, (next.sessions s).room = (w.sessions s).room) ∧ w.closed ⊆ next.closed ∧
      ∀ u, u ≠ v → next.viewerRuns u = w.viewerRuns u := by
  cases eff with
  | reserve now session run moves before after ok =>
    obtain ⟨-, -, -, rfl⟩ := reserve_some_iff.mp ok
    refine ⟨rfl, rfl, rfl, fun s => ?_, subset_rfl, fun u other => Function.update_of_ne other _ _⟩
    by_cases e : s = old.session <;> simp [World.setViewer, World.setSession, e]
  | release run moves shut before after =>
    refine ⟨rfl, rfl, rfl, fun s => ?_, subset_rfl, fun u other => Function.update_of_ne other _ _⟩
    by_cases e : s = old.session <;>
      simp [World.setViewer, World.setSession, Session.releaseViewer, e]
  | close run keeps =>
    exact ⟨rfl, rfl, rfl, fun _ => rfl, Finset.subset_union_left,
      fun u other => Function.update_of_ne other _ _⟩
  | _ =>
    exact ⟨rfl, rfl, rfl, fun _ => rfl, subset_rfl, fun u other => Function.update_of_ne other _ _⟩

theorem effect_begun {limits : Limits} {w next : World} {v : ViewerId} (h : Places limits w)
    (eff : Effect limits w v (w.viewerRuns v) next) (started : Begun (next.viewerRuns v)) :
    (next.viewerRuns v).session ∈ w.created ∧ (next.viewerRuns v).room ∈ w.roomIds := by
  have moved : ∀ run, Moves (w.viewerRuns v) run → Begun run →
      run.session ∈ w.created ∧ run.room ∈ w.roomIds := by
    intro run moves started
    rw [moves.session, moves.room]
    exact h.begun v (moves.begun started)
  cases eff with
  | begin run before after unconnected mapped home =>
    have born := h.mapped _ mapped
    simp only [World.setViewer, Function.update_self]
    exact ⟨born, home ▸ h.home _ born⟩
  | quiet run keeps | attachRoom object run keeps | attachSession now reservation run keeps
  | close run keeps =>
    simp only [World.setViewer, World.close, Function.update_self] at started ⊢
    exact moved run keeps.toMoves started
  | reserve now session run moves | add now room run moves | release run moves
  | remove run moves =>
    simp only [World.setViewer, Function.update_self] at started ⊢
    exact moved run moves started

theorem places_viewer {limits : Limits} {w next : World} {v : ViewerId} {a : ViewerAct}
    (h : Places limits w) (taken : viewerStep limits w v (w.viewerRuns v) a = some next) :
    Places limits next := by
  have eff := effect (h.atStage v) taken
  obtain ⟨created, roomIds, sessionMap, sessionRoom, closed, others⟩ := effect_frame eff
  obtain ⟨stage, counts⟩ := step_local (h.atStage v) (h.counts v) taken
  obtain ⟨maxViewers, roomCap⟩ := effect_roomCap h.roomCap eff
  exact {
    atStage := by
      intro u
      by_cases same : u = v
      · subst u
        exact stage
      · rw [others u same]
        exact atStage_mono closed (h.atStage u)
    counts := by
      intro u
      by_cases same : u = v
      · subst u
        exact counts
      · rw [others u same]
        exact h.counts u
    mapped := by
      rw [created, sessionMap]
      exact h.mapped
    home := by
      intro s born
      rw [created] at born
      rw [sessionRoom, roomIds]
      exact h.home s born
    begun := by
      intro u started
      rw [created, roomIds]
      by_cases same : u = v
      · subst u
        exact effect_begun h eff started
      · rw [others u same] at started ⊢
        exact h.begun u started
    inSession := effect_inSession h.inSession eff
    inRoom := effect_inRoom h.inRoom eff
    sessionCap := effect_sessionCap h.sessionCap eff
    roomCap := by
      intro r
      simp only [maxViewers]
      exact roomCap r }

theorem places_started (limits : Limits) (maxViewers : RoomId → Nat) (roomIds : Finset RoomId) :
    Places limits (started maxViewers roomIds) where
  atStage v := by simp [started, AtStage, ViewerRun.fresh]
  counts v := by constructor <;> simp [started, ViewerRun.fresh]
  mapped := by simp [started]
  home := by simp [started]
  begun v := by simp [started, ViewerRun.fresh, Begun]
  inSession s v := by simp [started, newSession, HoldsReservation, ViewerRun.fresh]
  inRoom r v := by simp [started, newRoom, HoldsMembership, ViewerRun.fresh]
  sessionCap s := by simp [started, newSession]
  roomCap r := by simp [started, newRoom]

theorem places_invariant (limits : Limits) : Invariant (server limits) (Places limits) where
  start w := by
    rintro ⟨maxViewers, roomIds, rfl⟩
    exact places_started limits maxViewers roomIds
  kept w a next h taken := by
    change step limits w a = some next at taken
    by_cases viewer : ∃ v b, a = .viewer v b
    · obtain ⟨v, b, rfl⟩ := viewer
      exact places_viewer h taken
    · by_cases login : ∃ s r t, a = .login s r t
      · obtain ⟨s, r, t, rfl⟩ := login
        exact places_login h taken
      · exact places_untouched h (untouched_step (fun v b e => viewer ⟨v, b, e⟩)
          (fun s r t e => login ⟨s, r, t, e⟩) taken)

/-- Room and session places counted against the runs that hold them. -/
structure CapacityAccounting (limits : Limits) (w : World) : Prop where
  roomBound : ∀ r, (w.rooms r).viewers.card ≤ (w.rooms r).maxViewers
  sessionBound : ∀ s, (w.sessions s).viewers.card ≤ limits.maxViewersPerSession
  roomMembers : ∀ r v, v ∈ (w.rooms r).viewers ↔
    (w.viewerRuns v).room = r ∧ (w.viewerRuns v).removed < (w.viewerRuns v).added
  sessionMembers : ∀ s v, v ∈ (w.sessions s).viewers ↔
    (w.viewerRuns v).session = s ∧ (w.viewerRuns v).released < (w.viewerRuns v).reserved
  takenOnce : ∀ v, (w.viewerRuns v).added ≤ 1 ∧ (w.viewerRuns v).reserved ≤ 1
  givenBack : ∀ v, (w.viewerRuns v).stage = .ended →
    (w.viewerRuns v).removed = (w.viewerRuns v).added ∧
      (w.viewerRuns v).released = (w.viewerRuns v).reserved
  allEnded : (∀ v, (w.viewerRuns v).stage = .waiting ∨ (w.viewerRuns v).stage = .ended) →
    (∀ r, (w.rooms r).viewers = ∅) ∧ ∀ s, (w.sessions s).viewers = ∅

theorem stack_nodup {l : List ViewerDefer} (h : Stack l) : l.Nodup := by
  rcases h with rfl | rfl | rfl | rfl | rfl <;> decide

theorem deferred_stack {closed : Finset Conn} {v : ViewerId} {run : ViewerRun}
    (h : AtStage closed v run) : Stack run.deferred := by
  cases stage : run.stage <;> simp only [AtStage, stage] at h <;> simp [Stack, h.1]
  exact h.1

theorem holdsMembership_iff {closed : Finset Conn} {v : ViewerId} {run : ViewerRun}
    (stage : AtStage closed v run) (counts : Counts run) :
    HoldsMembership run ↔ run.removed < run.added := by
  have once := (stack_nodup (deferred_stack stage)).count (a := ViewerDefer.removeViewer)
  have added := counts.added
  unfold HoldsMembership
  split at once <;> rename_i member <;> simp only [member, true_iff, false_iff] <;> omega

theorem holdsReservation_iff {closed : Finset Conn} {v : ViewerId} {run : ViewerRun}
    (stage : AtStage closed v run) (counts : Counts run) :
    HoldsReservation run ↔ run.released < run.reserved := by
  have once := (stack_nodup (deferred_stack stage)).count (a := ViewerDefer.releaseViewer)
  have reserved := counts.reserved
  unfold HoldsReservation
  split at once <;> rename_i member <;> simp only [member, true_iff, false_iff] <;> omega

theorem idle_holds_nothing {closed : Finset Conn} {v : ViewerId} {run : ViewerRun}
    (h : AtStage closed v run) (idle : run.stage = .waiting ∨ run.stage = .ended) :
    run.deferred = [] := by
  rcases idle with stage | stage <;> simp only [AtStage, stage] at h <;> exact h.1

theorem viewer_capacity_accounting (limits : Limits) {w : World}
    (reach : (server limits).Reachable w) : CapacityAccounting limits w := by
  have inv := reachable_invariant (server limits) (places_invariant limits) reach
  have membership : ∀ v, HoldsMembership (w.viewerRuns v) ↔
      (w.viewerRuns v).removed < (w.viewerRuns v).added :=
    fun v => holdsMembership_iff (inv.atStage v) (inv.counts v)
  have reservation : ∀ v, HoldsReservation (w.viewerRuns v) ↔
      (w.viewerRuns v).released < (w.viewerRuns v).reserved :=
    fun v => holdsReservation_iff (inv.atStage v) (inv.counts v)
  constructor
  case roomBound => exact inv.roomCap
  case sessionBound => exact inv.sessionCap
  case roomMembers =>
    intro r v
    rw [← membership v]
    exact (inv.inRoom r v).trans and_comm
  case sessionMembers =>
    intro s v
    rw [← reservation v]
    exact (inv.inSession s v).trans and_comm
  case takenOnce => exact fun v => ⟨(inv.counts v).addedOnce, (inv.counts v).reservedOnce⟩
  case givenBack =>
    intro v ended
    have nothing := idle_holds_nothing (inv.atStage v) (Or.inr ended)
    have added := (inv.counts v).added
    have reserved := (inv.counts v).reserved
    simp only [nothing, List.count_nil] at added reserved
    omega
  case allEnded =>
    intro idle
    have nothing : ∀ v, (w.viewerRuns v).deferred = [] :=
      fun v => idle_holds_nothing (inv.atStage v) (idle v)
    exact ⟨empty_when_nobody_holds inv.inRoom fun v => by simp [HoldsMembership, nothing v],
      empty_when_nobody_holds inv.inSession fun v => by simp [HoldsReservation, nothing v]⟩

/-- One viewer joins and stays, another is refused by the full room and ends. -/
def fullRoom : List Act :=
  [.login 0 [97] 100,
   .viewer 0 .check, .viewer 0 (.begin 0 1), .viewer 0 (.reserve 1), .viewer 0 (.add 2),
   .viewer 0 (.upgrade true),
   .viewer 1 .check, .viewer 1 (.begin 0 3), .viewer 1 (.reserve 3), .viewer 1 (.add 4),
   .viewer 1 .unwind, .viewer 1 .finish]

def fullRoomLimits : Limits := ⟨2, 3000⟩

def fullRoomWorld : World :=
  (((server fullRoomLimits).exec (started (fun _ => 1) {[97]}) fullRoom).get rfl)

theorem viewer_capacity_accounting_full_room :
    (fullRoomWorld.viewerRuns 1).stage = .ended ∧ (fullRoomWorld.rooms [97]).viewers = {0} ∧
      CapacityAccounting fullRoomLimits fullRoomWorld :=
  ⟨rfl, rfl, viewer_capacity_accounting fullRoomLimits
    ⟨_, fullRoom, ⟨_, _, rfl⟩, (Option.some_get _).symm⟩⟩

end RelayViewers
