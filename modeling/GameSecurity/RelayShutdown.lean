import GameSecurity.RelayProducers

/- Revocation and shutdown: what they close, what they leave impossible, and that no
   order of the other critical sections gets round them. -/
namespace RelayShutdown
open Runs RelayRoom RelaySession RelayLifecycle RelayProducers
open RelayViewers (HoldsReservation HoldsMembership Places Begun)

/-- What no step takes back. An attachment to a revoked session or to a closing room
   would be a new one, so these histories stand still. -/
structure Grows (w next : World) : Prop where
  closed : w.closed ⊆ next.closed
  created : w.created ⊆ next.created
  roomIds : next.roomIds = w.roomIds
  closing : ClosingKept w next
  revoked : ∀ s ∈ w.created, (w.sessions s).revoked = true → (next.sessions s).revoked = true
  sessionAttached : ∀ s ∈ w.created, (w.sessions s).revoked = true →
    next.attachedToSession s = w.attachedToSession s
  roomAttached : ∀ r, (w.rooms r).closing = true → next.attachedToRoom r = w.attachedToRoom r

theorem grows_refl (w : World) : Grows w w :=
  ⟨subset_rfl, subset_rfl, rfl, fun _ => id, fun _ _ => id, fun _ _ _ => rfl, fun _ _ => rfl⟩

theorem grows_trans {w mid next : World} (first : Grows w mid) (second : Grows mid next) :
    Grows w next where
  closed := first.closed.trans second.closed
  created := first.created.trans second.created
  roomIds := second.roomIds.trans first.roomIds
  closing r closing := second.closing r (first.closing r closing)
  revoked s born revoked := second.revoked s (first.created born) (first.revoked s born revoked)
  sessionAttached s born revoked :=
    (second.sessionAttached s (first.created born) (first.revoked s born revoked)).trans
      (first.sessionAttached s born revoked)
  roomAttached r closing :=
    (second.roomAttached r (first.closing r closing)).trans (first.roomAttached r closing)

theorem grows_setSession {w : World} {s : SessionId} {session : Session}
    (kept : (w.sessions s).revoked = true → session.revoked = true) :
    Grows w (w.setSession s session) := by
  have self := grows_refl w
  refine { self with revoked := fun j _ revoked => ?_ }
  by_cases e : j = s
  · subst j
    simpa [World.setSession] using kept revoked
  · simpa [World.setSession, e] using revoked

theorem grows_viewer {limits : Limits} {w next : World} {v : ViewerId} {old : ViewerRun}
    (eff : RelayViewers.Effect limits w v old next) : Grows w next := by
  have self := grows_refl w
  have closing := closing_viewer eff
  cases eff with
  | begin run | quiet run => exact { self with }
  | remove run => exact { self with closing := closing }
  | reserve now session run moves before after ok =>
    obtain ⟨-, -, -, rfl⟩ := reserve_some_iff.mp ok
    have kept : Grows w (w.setSession old.session
        { w.sessions old.session with viewers := insert v (w.sessions old.session).viewers }) :=
      grows_setSession id
    exact { kept with }
  | add now room run => exact { self with closing := closing }
  | attachRoom object run keeps member own ok =>
    obtain ⟨isOpen, -⟩ := attach_viewer_some_iff.mp ok
    refine { self with roomAttached := fun r closing => ?_ }
    have other : r ≠ old.room := fun e => by simp [e, isOpen] at closing
    exact Function.update_of_ne other _ _
  | attachSession now reservation run keeps passed member own ok =>
    obtain ⟨live, -⟩ := attach_some_iff.mp ok
    refine { self with sessionAttached := fun s _ revoked => ?_ }
    have other : s ≠ old.session := fun e => by simp [e, live] at revoked
    exact Function.update_of_ne other _ _
  | close run => exact { self with closed := Finset.subset_union_left }
  | release run =>
    have kept : Grows w (w.setSession old.session
        ((w.sessions old.session).releaseViewer v)) := grows_setSession id
    exact { kept with }

theorem grows_producer {w next : World} {p : ProducerId} {old : ProducerRun}
    (eff : Effect w p old next) : Grows w next := by
  have self := grows_refl w
  have closing := closing_producer eff
  cases eff with
  | begin run | quiet run => exact { self with }
  | claim room run | release run => exact { self with closing := closing }
  | close run => exact { self with closed := Finset.subset_union_left }
  | attach room run moves held same attached own ok =>
    obtain ⟨isOpen, -⟩ := attach_producer_some_iff.mp ok
    refine { self with closing := closing, roomAttached := fun r closing => ?_ }
    have other : r ≠ old.room := fun e => by simp [e, isOpen] at closing
    exact Function.update_of_ne other _ _

theorem grows_revoke {w next : World} {k : CallId} {call : RevokeCall}
    (eff : RevokeEffect w k call next) : Grows w next := by
  have self := grows_refl w
  cases eff with
  | lock s session conns ok =>
    obtain ⟨-, rfl, -⟩ := revoke_some_iff.mp ok
    have kept : Grows w (w.setSession s { w.sessions s with
        revoked := true, doneCloses := (w.sessions s).doneCloses + 1 }) :=
      grows_setSession fun _ => rfl
    exact { kept with }
  | close s left c member => exact { self with closed := Finset.subset_union_left }
  | _ => exact { self with }

theorem grows_close {w next : World} {k : CallId} {call : CloseCall}
    (eff : CloseEffect w k call next) : Grows w next := by
  have self := grows_refl w
  have closing := closing_close eff
  cases eff with
  | close r left c member => exact { self with closed := Finset.subset_union_left }
  | _ => exact { self with closing := closing }

theorem grows_server {w next : World} {state : ServerClose}
    (eff : ServerEffect w state next) : Grows w next := by
  have self := grows_refl w
  cases eff <;> exact { self with }

theorem grows_step {limits : Limits} {w next : World} {a : Act} (places : Places limits w)
    (slot : Slot w) (h : step limits w a = some next) : Grows w next := by
  have self := grows_refl w
  cases a with
  | login s r t =>
    simp only [step, Option.ite_none_right_eq_some, Option.some.injEq] at h
    obtain ⟨⟨unborn, -⟩, rfl⟩ := h
    refine { self with
      created := Finset.subset_insert _ _, revoked := fun j born revoked => ?_ }
    have other : j ≠ s := fun e => unborn (e ▸ born)
    simpa [World.setSession, other] using revoked
  | unmap s | setReady ready =>
    simp only [step, Option.some.injEq] at h
    subst next
    exact { self with }
  | drop c =>
    simp only [step, Option.ite_none_right_eq_some, Option.some.injEq] at h
    obtain ⟨-, rfl⟩ := h
    exact { self with closed := Finset.subset_union_left }
  | viewer v b => exact grows_viewer (RelayViewers.effect (places.atStage v) h)
  | producer p b => exact grows_producer (effect (slot.atStage p) h)
  | revoke k b => exact grows_revoke (revoke_effect h)
  | close k b => exact grows_close (close_effect h)
  | server b => exact grows_server (server_effect h)

theorem grows_exec {limits : Limits} {w later : World} {actions : List Act}
    (reach : (server limits).Reachable w) (run : (server limits).exec w actions = some later) :
    Grows w later :=
  exec_monotone (server limits) grows_refl (fun _ _ _ => grows_trans)
    (fun _ _ _ reached taken => grows_step
      (reachable_invariant (server limits) (RelayViewers.places_invariant limits) reached)
      (slot_invariant limits reached) taken) reach run

/-- A connection attached to a session is open only while its handler's reservation is
   still there to be found by a revocation. -/
def SessionLink (w : World) (s : SessionId) (v : ViewerId) : Prop :=
  (w.viewerRuns v).session = s ∧ (w.viewerRuns v).conn = some (.viewer v) ∧
  .viewer v ∈ w.attachedToRoom (w.viewerRuns v).room ∧
  (.viewer v ∈ w.closed ∨
    HoldsReservation (w.viewerRuns v) ∧ (w.reservations v).conn = some (.viewer v))

def RoomLink (w : World) (r : RoomId) (v : ViewerId) : Prop :=
  (w.viewerRuns v).room = r ∧ (w.viewerRuns v).conn = some (.viewer v) ∧
  (.viewer v ∈ w.closed ∨
    HoldsMembership (w.viewerRuns v) ∧ (w.objects v).conn = some (.viewer v))

def ProducerLink (w : World) (r : RoomId) (p : ProducerId) : Prop :=
  (w.producerRuns p).room = r ∧ (w.producerRuns p).conn = some (.producer p) ∧
  (.producer p ∈ w.closed ∨
    Holds (w.producerRuns p) ∧ (w.rooms r).producerConn = some (.producer p))

structure Links (w : World) : Prop where
  viewersOnly : ∀ s p, .producer p ∉ w.attachedToSession s
  session : ∀ s v, .viewer v ∈ w.attachedToSession s → SessionLink w s v
  room : ∀ r v, .viewer v ∈ w.attachedToRoom r → RoomLink w r v
  producer : ∀ r p, .producer p ∈ w.attachedToRoom r → ProducerLink w r p
  passed : ∀ v, (w.viewerRuns v).stage = .roomAttached →
    .viewer v ∈ w.attachedToRoom (w.viewerRuns v).room

/-- What the links of a viewer are made of, apart from its own run. -/
structure SameViewer (w next : World) (v : ViewerId) : Prop where
  run : next.viewerRuns v = w.viewerRuns v
  object : next.objects v = w.objects v
  reservation : next.reservations v = w.reservations v
  closed : w.closed ⊆ next.closed
  sessions : ∀ s, .viewer v ∈ next.attachedToSession s ↔ .viewer v ∈ w.attachedToSession s
  rooms : ∀ r, .viewer v ∈ next.attachedToRoom r ↔ .viewer v ∈ w.attachedToRoom r

structure ViewerLinks (w : World) (v : ViewerId) : Prop where
  session : ∀ s, .viewer v ∈ w.attachedToSession s → SessionLink w s v
  room : ∀ r, .viewer v ∈ w.attachedToRoom r → RoomLink w r v
  passed : (w.viewerRuns v).stage = .roomAttached →
    .viewer v ∈ w.attachedToRoom (w.viewerRuns v).room

theorem viewerLinks_same {w next : World} {v : ViewerId} (h : ViewerLinks w v)
    (same : SameViewer w next v) : ViewerLinks next v where
  session s attached := by
    obtain ⟨home, conn, room, found⟩ := h.session s ((same.sessions s).mp attached)
    unfold SessionLink
    rw [same.run, same.reservation, same.rooms]
    exact ⟨home, conn, room, found.imp_left fun shut => same.closed shut⟩
  room r attached := by
    obtain ⟨home, conn, found⟩ := h.room r ((same.rooms r).mp attached)
    unfold RoomLink
    rw [same.run, same.object]
    exact ⟨home, conn, found.imp_left fun shut => same.closed shut⟩
  passed stage := by
    rw [same.run] at stage ⊢
    exact (same.rooms _).mpr (h.passed stage)

theorem mem_attach {K : Type} [DecidableEq K] {history : K → Finset Conn} {r j : K} {c d : Conn}
    (other : c ≠ d) :
    c ∈ Function.update history r (insert d (history r)) j ↔ c ∈ history j := by
  by_cases e : j = r
  · subst j
    simp [other]
  · simp [e]

theorem sameViewer_others {limits : Limits} {w next : World} {v u : ViewerId} {old : ViewerRun}
    (eff : RelayViewers.Effect limits w v old next) (other : u ≠ v) : SameViewer w next u := by
  obtain ⟨-, -, -, -, closed, runs⟩ := RelayViewers.effect_frame eff
  have unnamed : (Conn.viewer u) ≠ .viewer v := fun e => other (Conn.viewer.inj e)
  cases eff with
  | attachRoom object run =>
    exact ⟨runs u other, Function.update_of_ne other _ _, rfl, closed, fun _ => Iff.rfl,
      fun _ => mem_attach unnamed⟩
  | attachSession now reservation run =>
    exact ⟨runs u other, rfl, Function.update_of_ne other _ _, closed,
      fun _ => mem_attach unnamed, fun _ => Iff.rfl⟩
  | _ => exact ⟨runs u other, rfl, rfl, closed, fun _ => Iff.rfl, fun _ => Iff.rfl⟩

/-- A run keeps its links over a step that moves it, as long as a place it gives up is
   one whose connection is closed. -/
theorem sessionLink_moves {w next : World} {s : SessionId} {v : ViewerId} {run : ViewerRun}
    (h : SessionLink w s v) (moves : RelayViewers.Moves (w.viewerRuns v) run)
    (after : next.viewerRuns v = run) (closed : w.closed ⊆ next.closed)
    (rooms : ∀ r, w.attachedToRoom r ⊆ next.attachedToRoom r)
    (reservation : next.reservations v = w.reservations v)
    (held : HoldsReservation (w.viewerRuns v) →
      HoldsReservation run ∨ run.conn = none ∨ .viewer v ∈ next.closed) :
    SessionLink next s v := by
  obtain ⟨home, conn, room, found⟩ := h
  have kept : run.conn = some (.viewer v) := by
    rcases moves.conn with none | same
    · rw [conn] at none
      cases none
    · exact same.trans conn
  unfold SessionLink
  rw [after, reservation, moves.session, moves.room, kept]
  refine ⟨home, rfl, rooms _ room, ?_⟩
  rcases found with shut | ⟨holds, named⟩
  · exact Or.inl (closed shut)
  · rcases held holds with still | never | shut
    · exact Or.inr ⟨still, named⟩
    · rw [kept] at never
      cases never
    · exact Or.inl shut

theorem roomLink_moves {w next : World} {r : RoomId} {v : ViewerId} {run : ViewerRun}
    (h : RoomLink w r v) (moves : RelayViewers.Moves (w.viewerRuns v) run)
    (after : next.viewerRuns v = run) (closed : w.closed ⊆ next.closed)
    (object : (w.objects v).conn = some (.viewer v) → (next.objects v).conn = some (.viewer v))
    (held : HoldsMembership (w.viewerRuns v) →
      HoldsMembership run ∨ run.conn = none ∨ .viewer v ∈ next.closed) :
    RoomLink next r v := by
  obtain ⟨home, conn, found⟩ := h
  have kept : run.conn = some (.viewer v) := by
    rcases moves.conn with none | same
    · rw [conn] at none
      cases none
    · exact same.trans conn
  unfold RoomLink
  rw [after, moves.room, kept]
  refine ⟨home, rfl, ?_⟩
  rcases found with shut | ⟨holds, named⟩
  · exact Or.inl (closed shut)
  · rcases held holds with still | never | shut
    · exact Or.inr ⟨still, object named⟩
    · rw [kept] at never
      cases never
    · exact Or.inl shut

/-- Steps of a run that attach nothing. -/
theorem viewerLinks_moves {w next : World} {v : ViewerId} {run : ViewerRun}
    (h : ViewerLinks w v) (moves : RelayViewers.Moves (w.viewerRuns v) run)
    (after : next.viewerRuns v = run) (closed : w.closed ⊆ next.closed)
    (sessions : next.attachedToSession = w.attachedToSession)
    (rooms : next.attachedToRoom = w.attachedToRoom)
    (reservation : next.reservations v = w.reservations v)
    (object : next.objects v = w.objects v)
    (reserved : HoldsReservation (w.viewerRuns v) →
      HoldsReservation run ∨ run.conn = none ∨ .viewer v ∈ next.closed)
    (member : HoldsMembership (w.viewerRuns v) →
      HoldsMembership run ∨ run.conn = none ∨ .viewer v ∈ next.closed)
    (passed : (next.viewerRuns v).stage = .roomAttached →
      .viewer v ∈ next.attachedToRoom (next.viewerRuns v).room) : ViewerLinks next v where
  session s attached := by
    rw [sessions] at attached
    have grows : ∀ r, w.attachedToRoom r ⊆ next.attachedToRoom r := fun r => by rw [rooms]
    exact sessionLink_moves (h.session s attached) moves after closed grows reservation reserved
  room r attached := by
    rw [rooms] at attached
    have named : (w.objects v).conn = some (.viewer v) →
        (next.objects v).conn = some (.viewer v) := by
      rw [object]
      exact id
    exact roomLink_moves (h.room r attached) moves after closed named member
  passed := passed

theorem viewerLinks_effect {limits : Limits} {w next : World} {v : ViewerId}
    (h : ViewerLinks w v) (eff : RelayViewers.Effect limits w v (w.viewerRuns v) next)
    (passed : (next.viewerRuns v).stage = .roomAttached →
      .viewer v ∈ next.attachedToRoom (next.viewerRuns v).room) : ViewerLinks next v := by
  have self : ∀ run, Function.update w.viewerRuns v run v = run := fun run =>
    Function.update_self _ _ _
  cases eff with
  | begin run before after unconnected =>
    refine ⟨fun s attached => ?_, fun r attached => ?_, passed⟩
    · have conn := (h.session s attached).2.1
      rw [unconnected] at conn
      cases conn
    · have conn := (h.room r attached).2.1
      rw [unconnected] at conn
      cases conn
  | quiet run keeps =>
    refine viewerLinks_moves h keeps.toMoves (self run) subset_rfl rfl rfl rfl rfl ?_ ?_ passed
    · exact fun holds => Or.inl (keeps.reservation.mpr holds)
    · exact fun holds => Or.inl (keeps.membership.mpr holds)
  | close run keeps =>
    refine viewerLinks_moves h keeps.toMoves (self run) Finset.subset_union_left rfl rfl rfl rfl
      ?_ ?_ passed
    · exact fun holds => Or.inl (keeps.reservation.mpr holds)
    · exact fun holds => Or.inl (keeps.membership.mpr holds)
  | reserve now session run moves before after ok =>
    refine viewerLinks_moves h moves (self run) subset_rfl rfl rfl rfl rfl ?_ ?_ passed
    · exact fun _ => Or.inl (by simp [HoldsReservation, after])
    · intro holds
      simp [HoldsMembership, before] at holds
  | add now room run moves before after ok =>
    refine viewerLinks_moves h moves (self run) subset_rfl rfl rfl rfl rfl ?_ ?_ passed
    · exact fun _ => Or.inl (by simp [HoldsReservation, after])
    · exact fun _ => Or.inl (by simp [HoldsMembership, after])
  | release run moves shut before after | remove run moves shut before after =>
    refine viewerLinks_moves h moves (self run) subset_rfl rfl rfl rfl rfl ?_ ?_ passed
    · exact fun _ => Or.inr shut
    · exact fun _ => Or.inr shut
  | attachRoom object run keeps member own ok =>
    obtain ⟨-, -, rfl⟩ := attach_viewer_some_iff.mp ok
    have grows : ∀ r, w.attachedToRoom r ⊆ Function.update w.attachedToRoom (w.viewerRuns v).room
        (insert (.viewer v) (w.attachedToRoom (w.viewerRuns v).room)) r := by
      intro r
      by_cases e : r = (w.viewerRuns v).room
      · subst r
        simp
      · simp [e]
    refine ⟨fun s attached => ?_, fun r attached => ?_, passed⟩
    · exact sessionLink_moves (h.session s attached) keeps.toMoves (self run) subset_rfl
        grows rfl fun holds => Or.inl (keeps.reservation.mpr holds)
    · have home : r = (w.viewerRuns v).room := by
        by_contra other
        have before : .viewer v ∈ w.attachedToRoom r := by
          simpa [other] using attached
        exact other (h.room r before).1.symm
      unfold RoomLink
      simp only [World.setViewer, Function.update_self]
      exact ⟨keeps.room.trans home.symm, own, Or.inr ⟨member, trivial⟩⟩
  | attachSession now reservation run keeps before member own ok =>
    obtain ⟨-, -, -, rfl⟩ := attach_some_iff.mp ok
    refine ⟨fun s attached => ?_, fun r attached => ?_, passed⟩
    · have home : s = (w.viewerRuns v).session := by
        by_contra other
        have before : .viewer v ∈ w.attachedToSession s := by
          simpa [other] using attached
        exact other (h.session s before).1.symm
      unfold SessionLink
      simp only [World.setViewer, Function.update_self]
      refine ⟨keeps.session.trans home.symm, own, ?_, Or.inr ⟨member, trivial⟩⟩
      rw [keeps.room]
      exact h.passed before
    · exact roomLink_moves (h.room r attached) keeps.toMoves (self run) subset_rfl id
        fun holds => Or.inl (keeps.membership.mpr holds)

/-- Only room.attachViewer leads to the session attach. -/
theorem passed_step {limits : Limits} {w next : World} {v : ViewerId} {a : ViewerAct}
    {old : ViewerRun} (h : viewerStep limits w v old a = some next)
    (stage : (next.viewerRuns v).stage = .roomAttached) :
    .viewer v ∈ next.attachedToRoom (next.viewerRuns v).room := by
  cases a with
  | unwind =>
    simp only [viewerStep, Option.ite_none_right_eq_some] at h
    obtain ⟨returning, h⟩ := h
    split at h
    · cases h
    · rename_i call rest top
      rw [← Option.some.inj h] at stage
      cases call <;> simp [unwindViewer, World.setViewer, World.close, returning] at stage
  | compress ok =>
    simp only [viewerStep, Option.ite_none_right_eq_some, Option.some.injEq] at h
    obtain ⟨-, rfl⟩ := h
    cases ok <;> simp [World.setViewer] at stage
  | _ =>
    simp only [viewerStep, Option.ite_none_right_eq_some] at h
    obtain ⟨-, h⟩ := h
    (try split at h) <;> simp only [Option.some.injEq] at h <;> subst next <;>
      simp_all [World.setViewer, World.close]

theorem links_viewer {limits : Limits} {w next : World} {v : ViewerId} {a : ViewerAct}
    (places : Places limits w) (h : Links w)
    (taken : viewerStep limits w v (w.viewerRuns v) a = some next) : Links next := by
  have eff := RelayViewers.effect (places.atStage v) taken
  have same := untouched_viewer eff
  have sessions : ∀ s p, .producer p ∈ next.attachedToSession s ↔
      .producer p ∈ w.attachedToSession s := by
    intro s p
    cases eff with
    | attachSession => exact mem_attach (by simp)
    | _ => exact Iff.rfl
  have rooms : ∀ r p, .producer p ∈ next.attachedToRoom r ↔
      .producer p ∈ w.attachedToRoom r := by
    intro r p
    cases eff with
    | attachRoom => exact mem_attach (by simp)
    | _ => exact Iff.rfl
  have viewers : ∀ u, ViewerLinks next u := by
    intro u
    have before : ViewerLinks w u := ⟨fun s => h.session s u, fun r => h.room r u, h.passed u⟩
    by_cases e : u = v
    · subst u
      exact viewerLinks_effect before eff (passed_step taken)
    · exact viewerLinks_same before (sameViewer_others eff e)
  refine ⟨?_, fun s u => (viewers u).session s, fun r u => (viewers u).room r, ?_,
    fun u => (viewers u).passed⟩
  · intro s p attached
    exact h.viewersOnly s p ((sessions s p).mp attached)
  · intro r p attached
    obtain ⟨home, conn, found⟩ := h.producer r p ((rooms r p).mp attached)
    unfold ProducerLink
    rw [same.producerRuns, same.conn]
    exact ⟨home, conn, found.imp_left fun shut => same.closed shut⟩

/-- A producer's step cannot disturb the connection of another that holds a slot. -/
theorem conn_kept {w next : World} {p q : ProducerId} (slot : Slot w)
    (eff : Effect w p (w.producerRuns p) next) (other : q ≠ p)
    (holds : Holds (w.producerRuns q)) :
    (next.rooms (w.producerRuns q).room).producerConn =
      (w.rooms (w.producerRuns q).room).producerConn := by
  have elsewhere : (w.producerRuns p).claims = 1 ∧ (w.producerRuns p).releases = 0 →
      (w.producerRuns q).room ≠ (w.producerRuns p).room := by
    rintro ⟨claims, releases⟩ here
    have held : Holds (w.producerRuns p) := by
      unfold Holds
      omega
    exact other (one_holder slot.holders holds held here)
  cases eff with
  | begin | quiet | close => rfl
  | claim room run moves before after ok =>
    obtain ⟨-, -, -, rfl⟩ := claim_ok_iff.mp ok
    by_cases here : (w.producerRuns q).room = (w.producerRuns p).room <;>
      simp [World.setProducer, World.setRoom, here]
  | attach room run moves held =>
    simp [World.setProducer, World.setRoom, elsewhere held]
  | release run moves shut before =>
    simp [World.setProducer, World.setRoom, elsewhere before]

theorem producerLink_other {w next : World} {p q : ProducerId} (slot : Slot w)
    (eff : Effect w p (w.producerRuns p) next) (other : q ≠ p) {r : RoomId}
    (h : ProducerLink w r q) : ProducerLink next r q := by
  obtain ⟨-, closed, runs⟩ := RelayProducers.effect_frame eff
  obtain ⟨home, conn, found⟩ := h
  unfold ProducerLink
  rw [runs q other]
  refine ⟨home, conn, ?_⟩
  rcases found with shut | ⟨holds, named⟩
  · exact Or.inl (closed shut)
  · have kept := conn_kept slot eff other holds
    rw [home] at kept
    exact Or.inr ⟨holds, kept.trans named⟩

theorem producerLink_self {w next : World} {p : ProducerId}
    (h : ∀ r, .producer p ∈ w.attachedToRoom r → ProducerLink w r p)
    (eff : Effect w p (w.producerRuns p) next) (r : RoomId)
    (attached : .producer p ∈ next.attachedToRoom r) : ProducerLink next r p := by
  have conn_of : ∀ run, Moves (w.producerRuns p) run →
      (w.producerRuns p).conn = some (.producer p) → run.conn = some (.producer p) := by
    intro run moves conn
    rcases moves.conn with none | same
    · rw [conn] at none
      cases none
    · exact same.trans conn
  cases eff with
  | begin run before unconnected =>
    have conn := (h r attached).2.1
    rw [unconnected] at conn
    cases conn
  | quiet run keeps =>
    obtain ⟨home, conn, found⟩ := h r attached
    have holds : Holds run ↔ Holds (w.producerRuns p) := by
      simp only [Holds, keeps.claims, keeps.releases]
    simp only [ProducerLink, World.setProducer, Function.update_self, holds]
    exact ⟨keeps.room.trans home, conn_of run keeps.toMoves conn, found⟩
  | close run keeps =>
    obtain ⟨home, conn, found⟩ := h r attached
    simp only [ProducerLink, World.setProducer, World.close, Function.update_self]
    refine ⟨keeps.room.trans home, conn_of run keeps.toMoves conn, Or.inl ?_⟩
    simp [conn]
  | claim room run moves before =>
    obtain ⟨home, conn, found⟩ := h r attached
    simp only [ProducerLink, World.setProducer, Function.update_self]
    refine ⟨moves.room.trans home, conn_of run moves conn, found.imp_right ?_⟩
    rintro ⟨holds, -⟩
    have := holds_claims holds
    omega
  | attach room run moves held same flag own ok =>
    obtain ⟨-, -, -, rfl⟩ := attach_producer_some_iff.mp ok
    have home : r = (w.producerRuns p).room := by
      by_contra other
      have before : .producer p ∈ w.attachedToRoom r := by
        simpa [other] using attached
      exact other (h r before).1.symm
    have holds : Holds run := by
      unfold Holds
      omega
    subst home
    simp only [ProducerLink, World.setProducer, World.setRoom, Function.update_self]
    exact ⟨moves.room, own, Or.inr ⟨holds, trivial⟩⟩
  | release run moves shut =>
    obtain ⟨home, conn, found⟩ := h r attached
    have kept := conn_of run moves conn
    simp only [ProducerLink, World.setProducer, Function.update_self]
    refine ⟨moves.room.trans home, kept, Or.inl ?_⟩
    rcases shut with never | shut
    · rw [kept] at never
      cases never
    · exact shut

theorem links_producer {w next : World} {p : ProducerId} {a : ProducerAct} (slot : Slot w)
    (h : Links w) (taken : producerStep w p (w.producerRuns p) a = some next) : Links next := by
  have eff := effect (slot.atStage p) taken
  obtain ⟨-, closed, runs⟩ := RelayProducers.effect_frame eff
  have rooms : ∀ r c, c ≠ .producer p →
      (c ∈ next.attachedToRoom r ↔ c ∈ w.attachedToRoom r) := by
    intro r c other
    cases eff with
    | attach => exact mem_attach other
    | _ => exact Iff.rfl
  have viewers : ∀ u, SameViewer w next u := by
    intro u
    have named : ∀ r, .viewer u ∈ next.attachedToRoom r ↔ .viewer u ∈ w.attachedToRoom r :=
      fun r => rooms r _ (by simp)
    cases eff <;> exact ⟨rfl, rfl, rfl, closed, fun _ => Iff.rfl, named⟩
  have sessions : next.attachedToSession = w.attachedToSession := by
    cases eff <;> rfl
  have links : ∀ u, ViewerLinks next u := fun u =>
    viewerLinks_same ⟨fun s => h.session s u, fun r => h.room r u, h.passed u⟩ (viewers u)
  refine ⟨?_, fun s u => (links u).session s, fun r u => (links u).room r, ?_,
    fun u => (links u).passed⟩
  · rw [sessions]
    exact h.viewersOnly
  · intro r q attached
    by_cases e : q = p
    · subst q
      exact producerLink_self (fun r => h.producer r p) eff r attached
    · have before : .producer q ∈ w.attachedToRoom r :=
        (rooms r _ (fun same => e (Conn.producer.inj same))).mp attached
      exact producerLink_other slot eff e (h.producer r q before)

/-- Logins, revocations and shutdowns touch no run and attach nothing. -/
structure Quiet (w next : World) : Prop where
  viewerRuns : next.viewerRuns = w.viewerRuns
  producers : Untouched w next
  objects : next.objects = w.objects
  reservations : next.reservations = w.reservations
  sessions : next.attachedToSession = w.attachedToSession
  rooms : next.attachedToRoom = w.attachedToRoom

theorem quiet_revoke {w next : World} {k : CallId} {call : RevokeCall}
    (eff : RevokeEffect w k call next) : Quiet w next := by
  have producers := untouched_revoke eff
  cases eff <;> exact ⟨rfl, producers, rfl, rfl, rfl, rfl⟩

theorem quiet_close {w next : World} {k : CallId} {call : CloseCall}
    (eff : CloseEffect w k call next) : Quiet w next := by
  have producers := untouched_close eff
  cases eff <;> exact ⟨rfl, producers, rfl, rfl, rfl, rfl⟩

theorem quiet_server {w next : World} {state : ServerClose}
    (eff : ServerEffect w state next) : Quiet w next := by
  have producers := untouched_server eff
  cases eff <;> exact ⟨rfl, producers, rfl, rfl, rfl, rfl⟩

theorem quiet_step {limits : Limits} {w next : World} {a : Act} (places : Places limits w)
    (notViewer : ∀ v b, a ≠ .viewer v b) (notProducer : ∀ p b, a ≠ .producer p b)
    (h : step limits w a = some next) : Quiet w next := by
  have producers := untouched_step places notProducer h
  cases a with
  | viewer v b => exact absurd rfl (notViewer v b)
  | producer p b => exact absurd rfl (notProducer p b)
  | revoke k b => exact quiet_revoke (revoke_effect h)
  | close k b => exact quiet_close (close_effect h)
  | server b => exact quiet_server (server_effect h)
  | login s r t | drop c =>
    simp only [step, Option.ite_none_right_eq_some, Option.some.injEq] at h
    obtain ⟨-, rfl⟩ := h
    exact ⟨rfl, producers, rfl, rfl, rfl, rfl⟩
  | unmap s | setReady ready =>
    simp only [step, Option.some.injEq] at h
    subst next
    exact ⟨rfl, producers, rfl, rfl, rfl, rfl⟩

theorem links_quiet {w next : World} (h : Links w) (same : Quiet w next) : Links next := by
  have links : ∀ u, ViewerLinks next u := fun u =>
    viewerLinks_same ⟨fun s => h.session s u, fun r => h.room r u, h.passed u⟩
      ⟨by rw [same.viewerRuns], by rw [same.objects], by rw [same.reservations],
        same.producers.closed, by simp [same.sessions], by simp [same.rooms]⟩
  refine ⟨?_, fun s u => (links u).session s, fun r u => (links u).room r, ?_,
    fun u => (links u).passed⟩
  · rw [same.sessions]
    exact h.viewersOnly
  · intro r p attached
    rw [same.rooms] at attached
    obtain ⟨home, conn, found⟩ := h.producer r p attached
    unfold ProducerLink
    rw [same.producers.producerRuns, same.producers.conn]
    exact ⟨home, conn, found.imp_left fun shut => same.producers.closed shut⟩

theorem links_invariant (limits : Limits) {w : World} (reach : (server limits).Reachable w) :
    Links w := by
  have known : ∀ s, (server limits).Reachable s → Places limits s ∧ Slot s := fun s reached =>
    ⟨reachable_invariant (server limits) (RelayViewers.places_invariant limits) reached,
      slot_invariant limits reached⟩
  refine reachable_invariant_using (server limits) known ?_ ?_ reach
  · rintro w ⟨maxViewers, roomIds, rfl⟩
    constructor <;> simp [started, ViewerRun.fresh]
  · rintro w a next ⟨places, slot⟩ h taken
    change step limits w a = some next at taken
    by_cases viewer : ∃ v b, a = .viewer v b
    · obtain ⟨v, b, rfl⟩ := viewer
      exact links_viewer places h taken
    · by_cases producer : ∃ p b, a = .producer p b
      · obtain ⟨p, b, rfl⟩ := producer
        exact links_producer slot h taken
      · exact links_quiet h (quiet_step places (fun v b e => viewer ⟨v, b, e⟩)
          (fun p b e => producer ⟨p, b, e⟩) taken)

def RevokeOk (w : World) : RevokeCall → Prop
  | .idle => True
  | .started s => s ∈ w.created
  | .closing s left => s ∈ w.created ∧ (w.sessions s).revoked = true ∧
    ∀ c ∈ w.attachedToSession s, c ∈ w.closed ∨ c ∈ left
  | .returned s setRevoked => s ∈ w.created ∧ (setRevoked = true →
    (w.sessions s).revoked = true ∧ w.attachedToSession s ⊆ w.closed)

def CloseOk (w : World) : CloseCall → Prop
  | .idle | .started _ => True
  | .closing r left => (w.rooms r).closing = true ∧
    ∀ c ∈ w.attachedToRoom r, c ∈ w.closed ∨ c ∈ left
  | .returned r => (w.rooms r).closing = true ∧ w.attachedToRoom r ⊆ w.closed

def callRoom : CloseCall → Option RoomId
  | .idle => none
  | .started r | .closing r _ | .returned r => some r

/-- A room the server has to close is still to do, under way or done. -/
def ServerOk (w : World) : ServerClose → Prop
  | .idle | .stopping => True
  | .revoking todo _ => todo ⊆ w.created
  | .closing todo current => ∀ r ∈ w.roomIds, r ∈ todo ∨ (∃ k, w.closes k = .returned r) ∨
    ∃ k, current = some k ∧ callRoom (w.closes k) = some r
  | .returned => ∀ r ∈ w.roomIds, ∃ k, w.closes k = .returned r

structure Calls (w : World) : Prop where
  done : ∀ s, (w.sessions s).doneCloses = if (w.sessions s).revoked then 1 else 0
  revokes : ∀ k, RevokeOk w (w.revokes k)
  closes : ∀ k, CloseOk w (w.closes k)
  server : ServerOk w w.server

theorem revokeOk_grows {w next : World} {call : RevokeCall} (grows : Grows w next)
    (h : RevokeOk w call) : RevokeOk next call := by
  cases call with
  | idle => trivial
  | started s => exact grows.created h
  | closing s left =>
    obtain ⟨born, revoked, swept⟩ := h
    refine ⟨grows.created born, grows.revoked s born revoked, ?_⟩
    rw [grows.sessionAttached s born revoked]
    exact fun c attached => (swept c attached).imp_left fun shut => grows.closed shut
  | returned s setRevoked =>
    obtain ⟨born, rest⟩ := h
    refine ⟨grows.created born, fun set => ?_⟩
    obtain ⟨revoked, swept⟩ := rest set
    refine ⟨grows.revoked s born revoked, ?_⟩
    rw [grows.sessionAttached s born revoked]
    exact swept.trans grows.closed

theorem closeOk_grows {w next : World} {call : CloseCall} (grows : Grows w next)
    (h : CloseOk w call) : CloseOk next call := by
  cases call with
  | idle | started r => trivial
  | closing r left =>
    obtain ⟨closing, swept⟩ := h
    refine ⟨grows.closing r closing, ?_⟩
    rw [grows.roomAttached r closing]
    exact fun c attached => (swept c attached).imp_left fun shut => grows.closed shut
  | returned r =>
    obtain ⟨closing, swept⟩ := h
    refine ⟨grows.closing r closing, ?_⟩
    rw [grows.roomAttached r closing]
    exact swept.trans grows.closed

theorem serverOk_grows {w next : World} {state : ServerClose} (grows : Grows w next)
    (rooms : ∀ k r, callRoom (w.closes k) = some r → callRoom (next.closes k) = some r)
    (returned : ∀ k r, w.closes k = .returned r → next.closes k = .returned r)
    (h : ServerOk w state) : ServerOk next state := by
  cases state with
  | idle | stopping => trivial
  | revoking todo current => exact Finset.Subset.trans h grows.created
  | closing todo current =>
    intro r known
    rw [grows.roomIds] at known
    rcases h r known with left | ⟨k, done⟩ | ⟨k, current, here⟩
    · exact Or.inl left
    · exact Or.inr (Or.inl ⟨k, returned k r done⟩)
    · exact Or.inr (Or.inr ⟨k, current, rooms k r here⟩)
  | returned =>
    intro r known
    rw [grows.roomIds] at known
    obtain ⟨k, done⟩ := h r known
    exact ⟨k, returned k r done⟩

/-- What a revocation collects under the session's lock is all that is still open. -/
theorem revoke_collects {limits : Limits} {w : World} {s : SessionId} {session : Session}
    {conns : Finset Conn} (places : Places limits w) (links : Links w)
    (ok : (w.sessions s).revoke w.reservations = some (session, conns)) :
    ∀ c ∈ w.attachedToSession s, c ∈ w.closed ∨ c ∈ conns := by
  obtain ⟨-, -, rfl⟩ := revoke_some_iff.mp ok
  intro c attached
  cases c with
  | producer p => exact absurd attached (links.viewersOnly s p)
  | viewer v =>
    obtain ⟨home, -, -, shut | ⟨holds, named⟩⟩ := links.session s v attached
    · exact Or.inl shut
    · have reserved : v ∈ (w.sessions s).viewers := (places.inSession s v).mpr ⟨holds, home⟩
      exact Or.inr (Finset.mem_biUnion.mpr ⟨v, reserved, by simp [named]⟩)

theorem close_collects {limits : Limits} {w : World} {r : RoomId} (places : Places limits w)
    (links : Links w) :
    ∀ c ∈ w.attachedToRoom r, c ∈ w.closed ∨ c ∈ ((w.rooms r).collect w.objects).2 := by
  intro c attached
  rw [mem_collect]
  cases c with
  | producer p =>
    obtain ⟨-, -, shut | ⟨-, named⟩⟩ := links.producer r p attached
    · exact Or.inl shut
    · exact Or.inr (Or.inl named)
  | viewer v =>
    obtain ⟨home, -, shut | ⟨holds, named⟩⟩ := links.room r v attached
    · exact Or.inl shut
    · have member : v ∈ (w.rooms r).viewers := (places.inRoom r v).mpr ⟨holds, home⟩
      exact Or.inr (Or.inr ⟨v, member, named⟩)

/-- Steps that are neither a call's nor the server's leave the calls as they are. -/
structure NoCall (w next : World) : Prop where
  grows : Grows w next
  done : ∀ s, (next.sessions s).doneCloses = if (next.sessions s).revoked then 1 else 0
  revokes : next.revokes = w.revokes
  closes : next.closes = w.closes
  server : next.server = w.server

theorem calls_noCall {w next : World} (h : Calls w) (same : NoCall w next) : Calls next where
  done := same.done
  revokes k := by
    rw [same.revokes]
    exact revokeOk_grows same.grows (h.revokes k)
  closes k := by
    rw [same.closes]
    exact closeOk_grows same.grows (h.closes k)
  server := by
    rw [same.server]
    exact serverOk_grows same.grows (by simp [same.closes]) (by simp [same.closes]) h.server

theorem done_setSession {w : World} {s : SessionId} {session : Session}
    (h : ∀ j, (w.sessions j).doneCloses = if (w.sessions j).revoked then 1 else 0)
    (new : session.doneCloses = if session.revoked then 1 else 0) (j : SessionId) :
    ((w.setSession s session).sessions j).doneCloses =
      if ((w.setSession s session).sessions j).revoked then 1 else 0 := by
  by_cases e : j = s
  · subst j
    simpa [World.setSession] using new
  · simpa [World.setSession, e] using h j

theorem noCall_viewer {limits : Limits} {w next : World} {v : ViewerId} {old : ViewerRun}
    (h : Calls w) (eff : RelayViewers.Effect limits w v old next) : NoCall w next := by
  have grows := grows_viewer eff
  cases eff with
  | reserve now session run moves before after ok =>
    obtain ⟨-, -, -, rfl⟩ := reserve_some_iff.mp ok
    exact ⟨grows, done_setSession h.done (h.done old.session), rfl, rfl, rfl⟩
  | release run =>
    exact ⟨grows, done_setSession h.done (h.done old.session), rfl, rfl, rfl⟩
  | _ => exact ⟨grows, h.done, rfl, rfl, rfl⟩

theorem noCall_producer {w next : World} {p : ProducerId} {old : ProducerRun} (h : Calls w)
    (eff : Effect w p old next) : NoCall w next := by
  have grows := grows_producer eff
  cases eff <;> exact ⟨grows, h.done, rfl, rfl, rfl⟩

theorem update_call {K C : Type} [DecidableEq K] {calls : K → C} {P : C → Prop}
    (h : ∀ k, P (calls k)) {k : K} {call : C} (new : P call) (j : K) :
    P (Function.update calls k call j) := by
  by_cases e : j = k
  · subst j
    rwa [Function.update_self]
  · rw [Function.update_of_ne e]
    exact h j

theorem calls_revoke {limits : Limits} {w next : World} {k : CallId} {call : RevokeCall}
    (places : Places limits w) (links : Links w) (h : Calls w) (here : RevokeOk w call)
    (eff : RevokeEffect w k call next) : Calls next := by
  have grows := grows_revoke eff
  have others : ∀ j, RevokeOk next (w.revokes j) := fun j => revokeOk_grows grows (h.revokes j)
  have closes : ∀ j, CloseOk next (w.closes j) := fun j => closeOk_grows grows (h.closes j)
  have server : next.closes = w.closes → ServerOk next w.server := fun same =>
    serverOk_grows grows (fun j r => by rw [same]; exact id) (fun j r => by rw [same]; exact id)
      h.server
  cases eff with
  | start s born => exact ⟨h.done, update_call others born, closes, server rfl⟩
  | already s => exact ⟨h.done, update_call others ⟨here, by simp⟩, closes, server rfl⟩
  | lock s session conns ok =>
    have collected := revoke_collects places links ok
    obtain ⟨live, rfl, -⟩ := revoke_some_iff.mp ok
    have first : (w.sessions s).doneCloses = 0 := by simp [h.done s, live]
    refine ⟨done_setSession h.done (by simp [first]), update_call others ?_, closes, server rfl⟩
    exact ⟨here, by simp [World.setSession, World.setRevoke], collected⟩
  | close s left c member =>
    obtain ⟨born, revoked, swept⟩ := here
    refine ⟨h.done, update_call others ⟨born, revoked, fun d attached => ?_⟩, closes, server rfl⟩
    rcases swept d attached with shut | waiting
    · exact Or.inl (grows.closed shut)
    · by_cases e : d = c
      · exact Or.inl (by simp [World.setRevoke, World.close, e])
      · exact Or.inr (Finset.mem_erase.mpr ⟨e, waiting⟩)
  | finish s =>
    obtain ⟨born, revoked, swept⟩ := here
    refine ⟨h.done, update_call others ⟨born, fun _ => ⟨revoked, fun c attached => ?_⟩⟩, closes,
      server rfl⟩
    have shut : c ∈ w.closed := by simpa using swept c attached
    exact shut

/-- A call that moves on keeps its room, and one that returned does not move. -/
theorem server_closing {w next : World} {k : CallId} {call : CloseCall} (grows : Grows w next)
    (h : ServerOk w w.server) (closes : next.closes = Function.update w.closes k call)
    (room : ∀ r, callRoom (w.closes k) = some r → callRoom call = some r)
    (running : ∀ r, w.closes k ≠ .returned r) : ServerOk next w.server := by
  refine serverOk_grows grows (fun j r => ?_) (fun j r => ?_) h
  · by_cases e : j = k
    · subst j
      rw [closes, Function.update_self]
      exact room r
    · rw [closes, Function.update_of_ne e]
      exact id
  · by_cases e : j = k
    · subst j
      exact fun done => absurd done (running r)
    · rw [closes, Function.update_of_ne e]
      exact id

theorem calls_close {limits : Limits} {w next : World} {k : CallId} {call : CloseCall}
    (places : Places limits w) (links : Links w) (h : Calls w) (current : w.closes k = call)
    (eff : CloseEffect w k call next) : Calls next := by
  have grows := grows_close eff
  have here := h.closes k
  rw [current] at here
  have others : ∀ j, CloseOk next (w.closes j) := fun j => closeOk_grows grows (h.closes j)
  have revokes : ∀ j, RevokeOk next (w.revokes j) := fun j => revokeOk_grows grows (h.revokes j)
  have server : ∀ moved, next.closes = Function.update w.closes k moved →
      (∀ r, callRoom (w.closes k) = some r → callRoom moved = some r) →
      (∀ r, w.closes k ≠ .returned r) → ServerOk next w.server :=
    fun _ closes => server_closing grows h.server closes
  cases eff with
  | start r =>
    exact ⟨h.done, revokes, update_call others trivial,
      server _ rfl (by simp [current, callRoom]) (by simp [current])⟩
  | lock r =>
    refine ⟨h.done, revokes, update_call others ?_,
      server _ rfl (by simp [current, callRoom]) (by simp [current])⟩
    have closing : ((w.rooms r).collect w.objects).1.closing = true := rfl
    exact ⟨by simp [World.setRoom, World.setClose, closing], close_collects places links⟩
  | close r left c member =>
    obtain ⟨closing, swept⟩ := here
    refine ⟨h.done, revokes, update_call others ⟨closing, fun d attached => ?_⟩,
      server _ rfl (by simp [current, callRoom]) (by simp [current])⟩
    rcases swept d attached with shut | waiting
    · exact Or.inl (grows.closed shut)
    · by_cases e : d = c
      · exact Or.inl (by simp [World.setClose, World.close, e])
      · exact Or.inr (Finset.mem_erase.mpr ⟨e, waiting⟩)
  | finish r =>
    obtain ⟨closing, swept⟩ := here
    refine ⟨h.done, revokes, update_call others ⟨closing, fun c attached => ?_⟩,
      server _ rfl (by simp [current, callRoom]) (by simp [current])⟩
    have shut : c ∈ w.closed := by simpa using swept c attached
    exact shut

theorem calls_server {limits : Limits} {w next : World} {state : ServerClose}
    (places : Places limits w) (h : Calls w) (here : ServerOk w state)
    (eff : ServerEffect w state next) : Calls next := by
  have grows := grows_server eff
  have revokes : ∀ j, RevokeOk next (w.revokes j) := fun j => revokeOk_grows grows (h.revokes j)
  have closes : ∀ j, CloseOk next (w.closes j) := fun j => closeOk_grows grows (h.closes j)
  cases eff with
  | begin => exact ⟨h.done, revokes, closes, trivial⟩
  | clear => exact ⟨h.done, revokes, closes, places.mapped⟩
  | revoke todo s k waiting idle =>
    exact ⟨h.done, update_call revokes (here waiting), closes,
      (Finset.erase_subset s todo).trans here⟩
  | revoked todo k s set returned => exact ⟨h.done, revokes, closes, here⟩
  | rooms => exact ⟨h.done, revokes, closes, fun r known => Or.inl known⟩
  | close todo r k waiting idle =>
    refine ⟨h.done, revokes, update_call closes trivial, fun j known => ?_⟩
    by_cases e : j = r
    · subst j
      exact Or.inr (Or.inr ⟨k, rfl, by simp [World.setClose, callRoom]⟩)
    · rcases here j known with left | ⟨i, done⟩ | ⟨i, current, -⟩
      · exact Or.inl (Finset.mem_erase.mpr ⟨e, left⟩)
      · have other : i ≠ k := fun same => by simp [same, idle] at done
        exact Or.inr (Or.inl ⟨i, by simpa [World.setClose, other] using done⟩)
      · cases current
  | closed todo k r returned =>
    refine ⟨h.done, revokes, closes, fun j known => ?_⟩
    rcases here j known with left | done | ⟨i, current, room⟩
    · exact Or.inl left
    · exact Or.inr (Or.inl done)
    · rw [← Option.some.inj current, returned] at room
      exact Or.inr (Or.inl ⟨k, by rw [← Option.some.inj room]; exact returned⟩)
  | finish =>
    refine ⟨h.done, revokes, closes, fun r known => ?_⟩
    rcases here r known with left | done | ⟨i, current, -⟩
    · simp at left
    · exact done
    · cases current

theorem calls_step {limits : Limits} {w next : World} {a : Act} (places : Places limits w)
    (slot : Slot w) (links : Links w) (h : Calls w) (taken : step limits w a = some next) :
    Calls next := by
  have grows := grows_step places slot taken
  cases a with
  | viewer v b =>
    have eff := RelayViewers.effect (places.atStage v) taken
    exact calls_noCall h (noCall_viewer h eff)
  | producer p b => exact calls_noCall h (noCall_producer h (effect (slot.atStage p) taken))
  | revoke k b => exact calls_revoke places links h (h.revokes k) (revoke_effect taken)
  | close k b => exact calls_close places links h rfl (close_effect taken)
  | server b => exact calls_server places h h.server (server_effect taken)
  | login s r t =>
    simp only [step, Option.ite_none_right_eq_some, Option.some.injEq] at taken
    obtain ⟨-, rfl⟩ := taken
    exact calls_noCall h ⟨grows, done_setSession h.done rfl, rfl, rfl, rfl⟩
  | drop c =>
    simp only [step, Option.ite_none_right_eq_some, Option.some.injEq] at taken
    obtain ⟨-, rfl⟩ := taken
    exact calls_noCall h ⟨grows, h.done, rfl, rfl, rfl⟩
  | unmap s | setReady ready =>
    simp only [step, Option.some.injEq] at taken
    subst next
    exact calls_noCall h ⟨grows, h.done, rfl, rfl, rfl⟩

theorem calls_invariant (limits : Limits) {w : World} (reach : (server limits).Reachable w) :
    Calls w := by
  have known : ∀ s, (server limits).Reachable s → Places limits s ∧ Slot s ∧ Links s :=
    fun s reached =>
      ⟨reachable_invariant (server limits) (RelayViewers.places_invariant limits) reached,
        slot_invariant limits reached, links_invariant limits reached⟩
  refine reachable_invariant_using (server limits) known ?_ ?_ reach
  · rintro w ⟨maxViewers, roomIds, rfl⟩
    exact ⟨fun _ => rfl, fun _ => trivial, fun _ => trivial, trivial⟩
  · rintro w a next ⟨places, slot, links⟩ h taken
    exact calls_step places slot links h taken

def SessionRefuses (s : Session) : Prop :=
  (∀ now maximum v, s.reserveViewer now maximum v = none) ∧
    ∀ v conn now, s.attachViewer v conn now = none

def RoomRefuses (r : Room) : Prop :=
  r.claimProducer = .error .roomClosing ∧
    (∀ generation conn, r.attachProducer generation conn = none) ∧
    (∀ v now ttl, r.addViewer v now ttl = .error .roomClosing) ∧
    ∀ v object conn, r.attachViewer v object conn = none

/- `later` is any state a run from `w` leads to, `w` itself included. -/
structure Final (limits : Limits) (w later : World) : Prop where
  doneOnce : ∀ s, (w.sessions s).doneCloses = if (w.sessions s).revoked then 1 else 0
  expired : ∀ s now, (w.sessions s).expiresAt ≤ now →
    (∀ maximum v, (w.sessions s).reserveViewer now maximum v = none) ∧
      ∀ v conn, (w.sessions s).attachViewer v conn now = none
  revoked : ∀ k s, w.revokes k = .returned s true →
    SessionRefuses (later.sessions s) ∧ later.attachedToSession s ⊆ later.closed
  closed : ∀ k r, w.closes k = .returned r →
    RoomRefuses (later.rooms r) ∧ later.attachedToRoom r ⊆ later.closed
  shutdown : w.server = .returned →
    (∀ r ∈ later.roomIds, RoomRefuses (later.rooms r) ∧ later.attachedToRoom r ⊆ later.closed) ∧
      ∀ s, later.attachedToSession s ⊆ later.closed

theorem closed_later {w later : World} {r : RoomId} (grows : Grows w later)
    (h : CloseOk w (.returned r)) :
    RoomRefuses (later.rooms r) ∧ later.attachedToRoom r ⊆ later.closed :=
  have ok := closeOk_grows grows h
  ⟨closing_refuses ok.1, ok.2⟩

/-- An attached session connection was attached to its room before. -/
theorem session_attached_in_room {limits : Limits} {w : World} (places : Places limits w)
    (links : Links w) {s : SessionId} {c : Conn} (attached : c ∈ w.attachedToSession s) :
    ∃ r ∈ w.roomIds, c ∈ w.attachedToRoom r := by
  cases c with
  | producer p => exact absurd attached (links.viewersOnly s p)
  | viewer v =>
    obtain ⟨-, conn, passed, -⟩ := links.session s v attached
    have begun : Begun (w.viewerRuns v) := by
      have stage := places.atStage v
      constructor <;> intro idle <;> simp only [RelayViewers.AtStage, idle] at stage <;>
        simp [stage.2.1] at conn
    exact ⟨_, (places.begun v begun).2, passed⟩

theorem revocation_and_shutdown_final (limits : Limits) {w later : World} {actions : List Act}
    (reach : (server limits).Reachable w) (run : (server limits).exec w actions = some later) :
    Final limits w later := by
  have calls := calls_invariant limits reach
  have grows := grows_exec reach run
  have ended := reachable_exec (server limits) reach run
  have places := reachable_invariant (server limits) (RelayViewers.places_invariant limits) ended
  have links := links_invariant limits ended
  constructor
  case doneOnce => exact calls.done
  case expired => exact fun s now => expired_refuses
  case revoked =>
    intro k s returned
    have ok := calls.revokes k
    rw [returned] at ok
    obtain ⟨revoked, swept⟩ := (revokeOk_grows grows ok).2 rfl
    exact ⟨revoked_refuses revoked, swept⟩
  case closed =>
    intro k r returned
    have ok := calls.closes k
    rw [returned] at ok
    exact closed_later grows ok
  case shutdown =>
    intro returned
    have state := calls.server
    rw [returned] at state
    have rooms : ∀ r ∈ later.roomIds,
        RoomRefuses (later.rooms r) ∧ later.attachedToRoom r ⊆ later.closed := by
      intro r known
      rw [grows.roomIds] at known
      obtain ⟨k, done⟩ := state r known
      have ok := calls.closes k
      rw [done] at ok
      exact closed_later grows ok
    refine ⟨rooms, fun s c attached => ?_⟩
    obtain ⟨r, known, inRoom⟩ := session_attached_in_room places links attached
    exact (rooms r known).2 inRoom

/-- A DELETE takes the session out of the map and has yet to revoke it when the server
   shuts down; the handler in between finds its session alive afterwards. -/
def lateAttach : List Act :=
  [.login 0 [97] 100, .viewer 0 .check, .viewer 0 (.begin 0 1), .viewer 0 (.reserve 1),
   .viewer 0 (.add 2), .viewer 0 (.upgrade true), .viewer 0 (.compress true),
   .viewer 0 .attachRoom, .unmap 0, .server .begin, .server .clear, .server .rooms,
   .server (.close [97] 0), .close 0 .lock, .close 0 (.close (.viewer 0)), .close 0 .finish,
   .server .closed, .server .finish]

def lateLimits : Limits := ⟨2, 3000⟩

def lateWorld : World :=
  ((server lateLimits).exec (started (fun _ => 1) {[97]}) lateAttach).get rfl

theorem late_reachable : (server lateLimits).Reachable lateWorld :=
  ⟨_, lateAttach, ⟨_, _, rfl⟩, (Option.some_get _).symm⟩

def attachedWorld : World :=
  ((server lateLimits).exec lateWorld [.viewer 0 (.attachSession 5)]).get rfl

theorem attached_run :
    (server lateLimits).exec lateWorld [.viewer 0 (.attachSession 5)] = some attachedWorld :=
  (Option.some_get _).symm

theorem revocation_and_shutdown_final_late_attach :
    lateWorld.server = .returned ∧ Final lateLimits lateWorld attachedWorld :=
  ⟨rfl, revocation_and_shutdown_final lateLimits late_reachable attached_run⟩

theorem session_attach_after_shutdown :
    (server lateLimits).Reachable lateWorld ∧ lateWorld.server = .returned ∧
      Conn.viewer 0 ∉ lateWorld.attachedToSession 0 ∧
      (server lateLimits).exec lateWorld [.viewer 0 (.attachSession 5)] = some attachedWorld ∧
      (attachedWorld.viewerRuns 0).stage = .reading ∧
      Conn.viewer 0 ∈ attachedWorld.attachedToSession 0 :=
  ⟨late_reachable, rfl, by decide, attached_run, rfl, by decide⟩

end RelayShutdown
