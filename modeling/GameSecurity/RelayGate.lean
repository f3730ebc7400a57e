import GameSecurity.RelayAnswer

/- Runs of the page's session. Of the requests in flight at most one of each sort still
   counts, and the workspace is shown only for a session the relay has told of. -/
namespace RelayGate
open Runs FiniteTable RelayAccess
open RadarStream (Mode)

def shown (env : Surroundings) (access : RelayAccessState) : RelayAccessState :=
  match access with
  | .authenticated session =>
    if session.expiresAtMs - env.now .effect ≤ 0 then .anonymous else access
  | _ => access

def armed (env : Surroundings) (access : RelayAccessState) : Option ExpiryTimer :=
  match access with
  | .authenticated session =>
    if session.expiresAtMs - env.now .effect ≤ 0 then none
    else some ⟨session, min (session.expiresAtMs - env.now .effect) maxDelay⟩
  | _ => none

theorem setAccess_eq (s : State) (env : Surroundings) (access : RelayAccessState) :
    s.setAccess env access =
      { s with access := shown env access, expiryTimer := armed env access } := by
  cases access with
  | authenticated session =>
    simp only [State.setAccess, shown, armed]
    split <;> rfl
  | _ => rfl

theorem armed_shown (env : Surroundings) (access : RelayAccessState) :
    (armed env access).map ExpiryTimer.session = sessionOf (shown env access) := by
  cases access with
  | authenticated session =>
    simp only [shown, armed]
    split <;> rfl
  | _ => rfl

theorem sessionOf_eq_some {access : RelayAccessState} {session : RelaySession}
    (same : sessionOf access = some session) : access = .authenticated session := by
  cases access with
  | authenticated other =>
    cases same
    rfl
  | _ => cases same

theorem sessionOf_shown {env : Surroundings} {access : RelayAccessState} {session : RelaySession}
    (same : sessionOf (shown env access) = some session) :
    access = .authenticated session ∧ env.now .effect < session.expiresAtMs := by
  cases access with
  | authenticated other =>
    simp only [shown] at same
    split at same
    · cases same
    · next alive =>
      cases same
      exact ⟨rfl, by omega⟩
  | _ => cases same

theorem setAccess_session {s : State} {env : Surroundings} {access : RelayAccessState}
    {session : RelaySession} (same : sessionOf (s.setAccess env access).access = some session) :
    access = .authenticated session ∧ env.now .effect < session.expiresAtMs := by
  rw [setAccess_eq] at same
  exact sessionOf_shown same

/-- Between the two states only what the page shows has changed, and the timer still fits
    the session. -/
structure Redrawn (s t : State) : Prop where
  same : ∃ access timer error,
    t = { s with access := access, expiryTimer := timer, actionError := error }
  timed : s.expiryTimer.map ExpiryTimer.session = sessionOf s.access →
    t.expiryTimer.map ExpiryTimer.session = sessionOf t.access

theorem Redrawn.refl (s : State) : Redrawn s s := ⟨⟨_, _, _, rfl⟩, id⟩

theorem Redrawn.setAccess (s : State) (env : Surroundings) (error : Option String)
    (access : RelayAccessState) : Redrawn s ({ s with actionError := error }.setAccess env access) := by
  rw [setAccess_eq]
  exact ⟨⟨_, _, _, rfl⟩, fun _ => armed_shown env access⟩

/-- The same from a timer that has fired. -/
theorem Redrawn.fired (s : State) (env : Surroundings) (error : Option String)
    (access : RelayAccessState) :
    Redrawn s ({ s with expiryTimer := none, actionError := error }.setAccess env access) := by
  rw [setAccess_eq]
  exact ⟨⟨_, _, _, rfl⟩, fun _ => armed_shown env access⟩

structure OperationsOk (s : State) : Prop where
  fresh : ∀ id operation, s.operations.lookup id = some operation → id < s.nextOperation
  live : ∀ id operation, s.operations.lookup id = some operation → operation.aborted = false →
    s.operationController = some id
  controlled : ∀ id, s.operationController = some id →
    ∃ request, s.operations.lookup id = some ⟨request, false⟩
  submits : s.mounted = true → s.submitting = s.operationController.isSome
  gone : s.mounted = false → s.operationController = none

structure ProbesOk (s : State) : Prop where
  fresh : ∀ id aborted, s.probes.lookup id = some aborted → id < s.nextProbe
  live : ∀ id, s.probes.lookup id = some false → s.probeController = some id
  gone : s.mounted = false → ∀ id, s.probes.lookup id ≠ some false

structure TimerOk (s : State) : Prop where
  timed : s.mounted = true → s.expiryTimer.map ExpiryTimer.session = sessionOf s.access
  gone : s.mounted = false → s.expiryTimer = none

structure HookOk (s : State) : Prop where
  operations : OperationsOk s
  probes : ProbesOk s
  timer : TimerOk s

theorem Redrawn.operations {s t : State} (drawn : Redrawn s t) (ok : OperationsOk s) :
    OperationsOk t := by
  obtain ⟨access, timer, error, rfl⟩ := drawn.same
  exact ⟨ok.fresh, ok.live, ok.controlled, ok.submits, ok.gone⟩

theorem Redrawn.probes {s t : State} (drawn : Redrawn s t) (ok : ProbesOk s) : ProbesOk t := by
  obtain ⟨access, timer, error, rfl⟩ := drawn.same
  exact ⟨ok.fresh, ok.live, ok.gone⟩

theorem Redrawn.mounted {s t : State} (drawn : Redrawn s t) : t.mounted = s.mounted := by
  obtain ⟨access, timer, error, rfl⟩ := drawn.same
  rfl

/-- What is drawn on a mounted page keeps the invariant. -/
theorem Redrawn.ok {s t : State} (drawn : Redrawn s t) (ok : HookOk s)
    (mounted : s.mounted = true) : HookOk t where
  operations := drawn.operations ok.operations
  probes := drawn.probes ok.probes
  timer := by
    have still : t.mounted = true := by rw [drawn.mounted, mounted]
    refine ⟨fun _ => drawn.timed (ok.timer.timed mounted), fun gone => ?_⟩
    rw [still] at gone
    cases gone

def abortedOperations (s : State) : Table Nat Operation := s.abortOperation.operations

def abortedProbes (s : State) : Table Nat Bool := s.abortProbe.probes

theorem abortOperation_eq (s : State) :
    s.abortOperation = { s with operations := abortedOperations s } := by
  unfold abortedOperations State.abortOperation
  split
  · rfl
  · split <;> rfl

theorem abortProbe_eq (s : State) : s.abortProbe = { s with probes := abortedProbes s } := by
  unfold abortedProbes State.abortProbe
  split
  · rfl
  · split <;> rfl

/-- After the abort, what is in flight is aborted, and nothing else is. -/
theorem abortedOperations_spec {s : State} (ok : OperationsOk s) {id : Nat}
    {operation : Operation} (found : (abortedOperations s).lookup id = some operation) :
    operation.aborted = true ∧ id < s.nextOperation := by
  unfold abortedOperations State.abortOperation at found
  cases controller : s.operationController with
  | none =>
    rw [controller] at found
    refine ⟨?_, ok.fresh id operation found⟩
    cases aborted : operation.aborted with
    | true => rfl
    | false =>
      have live := ok.live id operation found aborted
      rw [controller] at live
      cases live
  | some current =>
    obtain ⟨request, held⟩ := ok.controlled current controller
    rw [controller] at found
    simp only [held] at found
    rcases lookup_insert_some found with ⟨same, made⟩ | ⟨other, found⟩
    · subst same made
      exact ⟨rfl, ok.fresh _ _ held⟩
    · refine ⟨?_, ok.fresh id operation found⟩
      cases aborted : operation.aborted with
      | true => rfl
      | false =>
        have live := ok.live id operation found aborted
        rw [controller] at live
        cases live
        exact absurd rfl other

theorem abortedProbes_spec {s : State} (ok : ProbesOk s) {id : Nat} {aborted : Bool}
    (found : (abortedProbes s).lookup id = some aborted) :
    aborted = true ∧ id < s.nextProbe := by
  unfold abortedProbes State.abortProbe at found
  cases controller : s.probeController with
  | none =>
    rw [controller] at found
    refine ⟨?_, ok.fresh id aborted found⟩
    cases aborted with
    | true => rfl
    | false =>
      have live := ok.live id found
      rw [controller] at live
      cases live
  | some current =>
    rw [controller] at found
    cases held : s.probes.lookup current with
    | none =>
      simp only [held] at found
      refine ⟨?_, ok.fresh id aborted found⟩
      cases aborted with
      | true => rfl
      | false =>
        have live := ok.live id found
        rw [controller] at live
        cases live
        rw [held] at found
        cases found
    | some old =>
      simp only [held] at found
      rcases lookup_insert_some found with ⟨same, made⟩ | ⟨other, found⟩
      · subst same made
        exact ⟨rfl, ok.fresh _ _ held⟩
      · refine ⟨?_, ok.fresh id aborted found⟩
        cases aborted with
        | true => rfl
        | false =>
          have live := ok.live id found
          rw [controller] at live
          cases live
          exact absurd rfl other

theorem no_live_aborted {s : State} (ok : OperationsOk s) {id : Nat} {operation : Operation}
    (found : s.operations.lookup id = some operation) (aborted : operation.aborted = true) :
    s.operationController ≠ some id := by
  intro same
  obtain ⟨request, held⟩ := ok.controlled id same
  rw [found] at held
  cases held
  cases aborted

theorem startProbe_ok {s : State} {env : Surroundings} (ok : HookOk s)
    (mounted : s.mounted = true) : HookOk (s.startProbe env) := by
  rw [State.startProbe, abortProbe_eq, setAccess_eq]
  refine ⟨?_, ?_, ?_⟩
  · exact ⟨ok.operations.fresh, ok.operations.live, ok.operations.controlled,
      ok.operations.submits, ok.operations.gone⟩
  · refine ⟨fun id aborted found => ?_, fun id found => ?_, fun gone => ?_⟩
    · rcases lookup_insert_some found with ⟨same, -⟩ | ⟨-, found⟩
      · subst same
        exact Nat.lt_succ_self _
      · exact Nat.lt_succ_of_lt (abortedProbes_spec ok.probes found).2
    · rcases lookup_insert_some found with ⟨same, -⟩ | ⟨-, found⟩
      · subst same
        rfl
      · exact absurd (abortedProbes_spec ok.probes found).1 Bool.false_ne_true
    · rw [show s.mounted = false from gone] at mounted
      cases mounted
  · refine ⟨fun _ => rfl, fun gone => ?_⟩
    rfl

theorem begin_ok {s : State} (ok : HookOk s) (mounted : s.mounted = true) (request : Request) :
    HookOk (s.begin request) := by
  rw [State.begin, abortOperation_eq]
  refine ⟨?_, ⟨ok.probes.fresh, ok.probes.live, ok.probes.gone⟩, ⟨ok.timer.timed, ok.timer.gone⟩⟩
  constructor
  · intro id operation found
    rcases lookup_insert_some found with ⟨same, -⟩ | ⟨-, found⟩
    · subst same
      exact Nat.lt_succ_self _
    · exact Nat.lt_succ_of_lt (abortedOperations_spec ok.operations found).2
  · intro id operation found live
    rcases lookup_insert_some found with ⟨same, -⟩ | ⟨-, found⟩
    · subst same
      rfl
    · rw [(abortedOperations_spec ok.operations found).1] at live
      cases live
  · intro id same
    cases same
    exact ⟨request, lookup_insert_self _ _ _⟩
  · intro
    rfl
  · intro gone
    rw [show s.mounted = false from gone] at mounted
    cases mounted

theorem onProbe_redrawn (s : State) (env : Surroundings) (aborted : Bool) (result : Fetched) :
    Redrawn s (s.onProbe env aborted result) := by
  unfold State.onProbe
  cases aborted with
  | true => exact Redrawn.refl s
  | false =>
    simp only [Bool.false_eq_true, if_false]
    split <;> exact Redrawn.setAccess s env s.actionError _

theorem onLogin_redrawn (s : State) (env : Surroundings) (aborted : Bool) (result : Fetched) :
    Redrawn s (s.onLogin env aborted result) := by
  unfold State.onLogin
  cases aborted with
  | true => exact Redrawn.refl s
  | false =>
    simp only [Bool.false_eq_true, if_false]
    split
    · exact Redrawn.setAccess s env s.actionError _
    · exact Redrawn.setAccess s env _ _

theorem onLogout_redrawn (s : State) (aborted : Bool) (result : Fetched) :
    Redrawn s (s.onLogout aborted result) := by
  unfold State.onLogout
  split
  · exact Redrawn.refl s
  · cases aborted with
    | true => exact Redrawn.refl s
    | false => exact ⟨⟨_, _, _, rfl⟩, id⟩

/-- What a settled request draws before its `finally`. -/
theorem onResult_redrawn (s : State) (env : Surroundings) (operation : Operation)
    (result : Fetched) : Redrawn s (s.onResult env operation result) := by
  unfold State.onResult
  cases operation.request with
  | login => exact onLogin_redrawn s env _ result
  | logout => exact onLogout_redrawn s _ result

theorem onResult_aborted (s : State) (env : Surroundings) {operation : Operation}
    (aborted : operation.aborted = true) (result : Fetched) :
    s.onResult env operation result = s := by
  unfold State.onResult
  rw [aborted]
  cases operation.request with
  | login => rfl
  | logout =>
    simp only [State.onLogout]
    split <;> rfl

/-- An aborted request that settles is no more in flight; nothing else changes. -/
theorem aborted_operation_silent {s : State} (ok : OperationsOk s) {id : Nat}
    {operation : Operation} (found : s.operations.lookup id = some operation)
    (aborted : operation.aborted = true) (env : Surroundings) (result : Fetched) :
    { s with operations := s.operations.erase id }.onOperation env id operation result =
      { s with operations := s.operations.erase id } := by
  have other := no_live_aborted ok found aborted
  rw [State.onOperation, onResult_aborted _ env aborted, State.finish, if_neg other]

theorem onOperation_ok {s : State} {env : Surroundings} {id : Nat} {operation : Operation}
    {result : Fetched} (ok : HookOk s) (found : s.operations.lookup id = some operation) :
    HookOk ({ s with operations := s.operations.erase id }.onOperation env id operation result) := by
  cases aborted : operation.aborted with
  | true =>
    rw [aborted_operation_silent ok.operations found aborted]
    refine ⟨?_, ⟨ok.probes.fresh, ok.probes.live, ok.probes.gone⟩, ⟨ok.timer.timed, ok.timer.gone⟩⟩
    refine ⟨fun j o held => ?_, fun j o held => ?_, fun j same => ?_, ok.operations.submits,
      ok.operations.gone⟩
    · exact ok.operations.fresh j o (lookup_erase_some held).2
    · exact ok.operations.live j o (lookup_erase_some held).2
    · obtain ⟨request, held⟩ := ok.operations.controlled j same
      have apart : j ≠ id := by
        intro equal
        subst equal
        exact no_live_aborted ok.operations found aborted same
      exact ⟨request, by rw [lookup_erase_of_ne apart, held]⟩
  | false =>
    have current : s.operationController = some id := ok.operations.live id operation found aborted
    have mounted : s.mounted = true := by
      cases mounted : s.mounted with
      | true => rfl
      | false =>
        have none_ := ok.operations.gone mounted
        rw [current] at none_
        cases none_
    have drawn := onResult_redrawn { s with operations := s.operations.erase id } env operation result
    have timed := drawn.timed (ok.timer.timed mounted)
    obtain ⟨access, timer, error, same⟩ := drawn.same
    rw [same] at timed
    rw [State.onOperation, same]
    simp only [State.finish, if_pos current]
    refine ⟨?_, ⟨ok.probes.fresh, ok.probes.live, ok.probes.gone⟩, ⟨fun _ => timed, fun gone => ?_⟩⟩
    · refine ⟨fun j o held => ?_, fun j o held live => ?_, ?_, fun _ => rfl, fun _ => rfl⟩
      · exact ok.operations.fresh j o (lookup_erase_some held).2
      · obtain ⟨apart, held⟩ := lookup_erase_some held
        have also_ := ok.operations.live j o held live
        rw [current] at also_
        cases also_
        exact absurd rfl apart
      · intro j none_
        cases none_
    · rw [show s.mounted = false from gone] at mounted
      cases mounted

theorem onProbe_ok {s : State} {env : Surroundings} {id : Nat} {aborted : Bool}
    {result : Fetched} (ok : HookOk s) (found : s.probes.lookup id = some aborted) :
    HookOk ({ s with probes := s.probes.erase id }.onProbe env aborted result) := by
  have erased : HookOk { s with probes := s.probes.erase id } := by
    refine ⟨⟨ok.operations.fresh, ok.operations.live, ok.operations.controlled,
      ok.operations.submits, ok.operations.gone⟩, ?_, ⟨ok.timer.timed, ok.timer.gone⟩⟩
    refine ⟨fun j a held => ?_, fun j held => ?_, fun gone j held => ?_⟩
    · exact ok.probes.fresh j a (lookup_erase_some held).2
    · exact ok.probes.live j (lookup_erase_some held).2
    · exact ok.probes.gone gone j (lookup_erase_some held).2
  cases aborted with
  | true => exact erased
  | false =>
    refine (onProbe_redrawn _ env false result).ok erased ?_
    cases mounted : s.mounted with
    | true => rfl
    | false => exact absurd found (ok.probes.gone mounted id)

theorem unmount_ok {s : State} (ok : HookOk s) : HookOk s.unmount := by
  rw [State.unmount, abortOperation_eq, abortProbe_eq]
  refine ⟨?_, ?_, ?_⟩
  · refine ⟨fun id operation found => (abortedOperations_spec ok.operations found).2,
      fun id operation found live => ?_, ?_, ?_, fun _ => rfl⟩
    · rw [(abortedOperations_spec ok.operations found).1] at live
      cases live
    · intro id same
      cases same
    · intro still
      cases still
  · have probes : ProbesOk { s with operations := abortedOperations s } :=
      ⟨ok.probes.fresh, ok.probes.live, ok.probes.gone⟩
    refine ⟨fun id aborted found => (abortedProbes_spec probes found).2, fun id found => ?_,
      fun _ id found => ?_⟩
    · exact absurd (abortedProbes_spec probes found).1 Bool.false_ne_true
    · exact absurd (abortedProbes_spec probes found).1 Bool.false_ne_true
  · refine ⟨?_, fun _ => rfl⟩
    intro still
    cases still

theorem expire_redrawn (s : State) (env : Surroundings) : Redrawn s (s.expire env) :=
  Redrawn.setAccess s env _ _

theorem retry_ok {s : State} {env : Surroundings} (ok : HookOk s) (mounted : s.mounted = true) :
    HookOk (s.retry env) := by
  have counted : HookOk { s with probeVersion := s.probeVersion + 1 } :=
    ⟨⟨ok.operations.fresh, ok.operations.live, ok.operations.controlled, ok.operations.submits,
      ok.operations.gone⟩, ⟨ok.probes.fresh, ok.probes.live, ok.probes.gone⟩,
      ⟨ok.timer.timed, ok.timer.gone⟩⟩
  exact startProbe_ok counted mounted

theorem resume_ok {s : State} {env : Surroundings} (ok : HookOk s) (mounted : s.mounted = true) :
    HookOk (s.resume env) := by
  unfold State.resume
  split
  · exact ok
  · split
    · split
      · exact (expire_redrawn s env).ok ok mounted
      · exact ok
    · exact retry_ok ok mounted
    · exact ok

theorem expiry_ok {s : State} {env : Surroundings} {timer : ExpiryTimer} (ok : HookOk s)
    (set : s.expiryTimer = some timer) :
    HookOk ({ s with expiryTimer := none }.onExpiryTimer env timer) := by
  have mounted : s.mounted = true := by
    cases mounted : s.mounted with
    | true => rfl
    | false =>
      have none_ := ok.timer.gone mounted
      rw [set] at none_
      cases none_
  have captured := ok.timer.timed mounted
  rw [set] at captured
  have drawn : ∀ error access, HookOk
      ({ s with expiryTimer := none, actionError := error }.setAccess env access) :=
    fun error access => (Redrawn.fired s env error access).ok ok mounted
  unfold State.onExpiryTimer
  split
  · exact drawn _ .anonymous
  · have held := sessionOf_eq_some captured.symm
    split
    · exact drawn s.actionError _
    · next other => exact absurd held (other timer.session)

theorem logout_ok {s : State} {env : Surroundings} (ok : HookOk s) (mounted : s.mounted = true) :
    HookOk (s.logout env) := by
  have begun := begin_ok ok mounted .logout
  refine (Redrawn.setAccess (s.begin .logout) env (s.begin .logout).actionError .anonymous).ok
    begun ?_
  rw [State.begin, abortOperation_eq]
  exact mounted

theorem firstRender_ok (mode : Mode) : HookOk (firstRender mode) := by
  have timer : (none : Option ExpiryTimer).map ExpiryTimer.session =
      sessionOf (firstRender mode).access := by
    cases mode <;> rfl
  refine ⟨⟨?_, ?_, ?_, fun _ => rfl, ?_⟩, ⟨?_, ?_, ?_⟩, ⟨fun _ => timer, ?_⟩⟩ <;>
    simp [firstRender, FiniteTable.empty]

theorem mount_ok (mode : Mode) (env : Surroundings) : HookOk (mount mode env) := by
  unfold mount
  split
  · exact (Redrawn.setAccess (firstRender mode) env none .bypassed).ok (firstRender_ok mode) rfl
  · exact startProbe_ok (firstRender_ok mode) rfl

theorem hook_step_ok {mode : Mode} {s t : State} {a : Event × Surroundings} (ok : HookOk s)
    (taken : step mode s a.1 a.2 = some t) : HookOk t := by
  obtain ⟨event, env⟩ := a
  cases event with
  | probe id result =>
    simp only [step, Option.bind_eq_some_iff] at taken
    obtain ⟨aborted, found, taken⟩ := taken
    split at taken
    · cases taken
      exact onProbe_ok ok found
    · cases taken
  | operation id result =>
    simp only [step, Option.bind_eq_some_iff] at taken
    obtain ⟨operation, found, taken⟩ := taken
    split at taken
    · cases taken
      exact onOperation_ok ok found
    · cases taken
  | expiry =>
    simp only [step, Option.map_eq_some_iff] at taken
    obtain ⟨timer, set, rfl⟩ := taken
    exact expiry_ok ok set
  | resume =>
    simp only [step] at taken
    split at taken
    · next listens =>
      cases taken
      exact resume_ok ok listens.1
    · cases taken
  | login =>
    simp only [step] at taken
    split at taken
    · next mounted =>
      cases taken
      exact begin_ok ok mounted .login
    · cases taken
  | logout =>
    simp only [step] at taken
    split at taken
    · next mounted =>
      cases taken
      exact logout_ok ok mounted
    · cases taken
  | retry =>
    simp only [step] at taken
    split at taken
    · cases taken
    · next mounted =>
      have mounted : s.mounted = true := by simpa using mounted
      split at taken
      · cases taken
        have counted : HookOk { s with probeVersion := s.probeVersion + 1 } :=
          ⟨⟨ok.operations.fresh, ok.operations.live, ok.operations.controlled,
            ok.operations.submits, ok.operations.gone⟩,
            ⟨ok.probes.fresh, ok.probes.live, ok.probes.gone⟩, ⟨ok.timer.timed, ok.timer.gone⟩⟩
        exact (Redrawn.setAccess _ env s.actionError .bypassed).ok counted mounted
      · cases taken
        exact retry_ok ok mounted
  | invalidate =>
    simp only [step] at taken
    split at taken
    · next mounted =>
      cases taken
      exact (Redrawn.setAccess s env _ .anonymous).ok ok mounted
    · cases taken
  | unmount =>
    simp only [step] at taken
    split at taken
    · cases taken
      exact unmount_ok ok
    · cases taken

theorem hook_ok {mode : Mode} {s : State} (reach : (hook mode).Reachable s) : HookOk s := by
  have inv : Invariant (hook mode) HookOk := by
    refine ⟨?_, fun s a t ok taken => hook_step_ok ok taken⟩
    rintro s ⟨env, rfl⟩
    exact mount_ok mode env
  exact reachable_invariant (hook mode) inv reach

theorem begin_aborts {s : State} (ok : OperationsOk s) (request : Request) {id : Nat}
    {operation : Operation} (before : s.operations.lookup id ≠ none)
    (found : (s.begin request).operations.lookup id = some operation) :
    operation.aborted = true := by
  rw [State.begin, abortOperation_eq] at found
  rcases lookup_insert_some found with ⟨same, -⟩ | ⟨-, found⟩
  · subst same
    obtain ⟨old, held⟩ := Option.ne_none_iff_exists'.mp before
    exact absurd (ok.fresh _ _ held) (Nat.lt_irrefl _)
  · exact (abortedOperations_spec ok found).1

/-- Whatever the order in which the hook's functions are called and its requests come back: of
    the logins and logouts in flight one at most still counts, of the probes one at most, and
    `submitting` tells of the former; a request that was superseded changes nothing when it comes
    back, and a new login or logout supersedes those before it. -/
theorem one_request_counts {mode : Mode} {s : State} (reach : (hook mode).Reachable s) :
    (s.mounted = true →
      (s.submitting = true ↔ ∃ id request, s.operations.lookup id = some ⟨request, false⟩)) ∧
    (∀ i j r q, s.operations.lookup i = some ⟨r, false⟩ → s.operations.lookup j = some ⟨q, false⟩ →
      i = j) ∧
    (∀ i j, s.probes.lookup i = some false → s.probes.lookup j = some false → i = j) ∧
    (∀ id operation result env t, s.operations.lookup id = some operation →
      operation.aborted = true → (hook mode).step s (.operation id result, env) = some t →
      t = { s with operations := s.operations.erase id }) ∧
    (∀ id result env t, s.probes.lookup id = some true →
      (hook mode).step s (.probe id result, env) = some t →
      t = { s with probes := s.probes.erase id }) ∧
    (∀ event env t id operation, event = .login ∨ event = .logout →
      (hook mode).step s (event, env) = some t → s.operations.lookup id ≠ none →
      t.operations.lookup id = some operation → operation.aborted = true) := by
  have ok := hook_ok reach
  refine ⟨fun mounted => ?_, ?_, ?_, ?_, ?_, ?_⟩
  · rw [ok.operations.submits mounted, Option.isSome_iff_exists]
    constructor
    · intro controlled
      obtain ⟨id, current⟩ := controlled
      exact ⟨id, ok.operations.controlled id current⟩
    · intro live
      obtain ⟨id, request, found⟩ := live
      exact ⟨id, ok.operations.live id _ found rfl⟩
  · intro i j r q first second
    have one := ok.operations.live i _ first rfl
    have other := ok.operations.live j _ second rfl
    rw [one] at other
    exact Option.some.inj other
  · intro i j first second
    have one := ok.probes.live i first
    have other := ok.probes.live j second
    rw [one] at other
    exact Option.some.inj other
  · intro id operation result env t found aborted taken
    simp only [hook, step, found, Option.bind_some] at taken
    split at taken
    · cases taken
      exact aborted_operation_silent ok.operations found aborted env result
    · cases taken
  · intro id result env t found taken
    simp only [hook, step, found, Option.bind_some] at taken
    split at taken
    · cases taken
      rfl
    · cases taken
  · intro event env t id operation started taken before found
    rcases started with same | same
    · subst same
      simp only [hook, step] at taken
      split at taken
      · cases taken
        exact begin_aborts ok.operations .login before found
      · cases taken
    · subst same
      simp only [hook, step] at taken
      split at taken
      · cases taken
        rw [State.logout, setAccess_eq] at found
        exact begin_aborts ok.operations .logout before found
      · cases taken

/-- Two logins in a row: the first one is aborted. -/
theorem one_request_counts_twice : ∃ env s t,
    (hook .relay).exec (mount .relay env) [(.login, env), (.login, env)] = some s ∧
      (hook .relay).step s (.operation 0 .aborted, env) = some t ∧
      t = { s with operations := s.operations.erase 0 } := by
  let env : Surroundings := ⟨fun _ => 0, false⟩
  let s : State := (mount .relay env).login.login
  have reach : (hook .relay).Reachable s := ⟨_, [(.login, env), (.login, env)], ⟨env, rfl⟩, rfl⟩
  exact ⟨env, s, _, rfl, rfl,
    (one_request_counts reach).2.2.2.1 0 ⟨.login, true⟩ .aborted env _ rfl rfl rfl⟩

/-- What the page keeps up, where requests start only as it offers them. -/
structure PageOk (s : State) : Prop where
  probing : ∀ id, s.probes.lookup id = some false → s.access = .loading
  submitting : s.mounted = true → s.submitting = true → s.access = .anonymous

/-- A request that starts or settles where nothing else is in flight. -/
theorem pageOk_of_idle {s : State} (noProbe : ∀ id, s.probes.lookup id ≠ some false)
    (idle : s.mounted = true → s.submitting = false) : PageOk s := by
  refine ⟨fun id live => absurd live (noProbe id), fun mounted busy => ?_⟩
  rw [idle mounted] at busy
  cases busy

theorem no_probe {s : State} (ok : PageOk s) (other : s.access ≠ .loading) (id : Nat) :
    s.probes.lookup id ≠ some false :=
  fun live => other (ok.probing id live)

theorem not_submitting {s : State} (ok : PageOk s) (other : s.access ≠ .anonymous)
    (mounted : s.mounted = true) : s.submitting = false := by
  cases busy : s.submitting with
  | false => rfl
  | true => exact absurd (ok.submitting mounted busy) other

theorem mounted_of_operation {s : State} (ok : HookOk s) {id : Nat}
    (current : s.operationController = some id) : s.mounted = true := by
  cases mounted : s.mounted with
  | true => rfl
  | false =>
    have none_ := ok.operations.gone mounted
    rw [current] at none_
    cases none_

theorem mounted_of_timer {s : State} (ok : HookOk s) {timer : ExpiryTimer}
    (set : s.expiryTimer = some timer) : s.mounted = true := by
  cases mounted : s.mounted with
  | true => rfl
  | false =>
    have none_ := ok.timer.gone mounted
    rw [set] at none_
    cases none_

theorem submitting_of_operation {s : State} (ok : HookOk s) {id : Nat}
    (current : s.operationController = some id) : s.submitting = true := by
  rw [ok.operations.submits (mounted_of_operation ok current), current]
  rfl

/-- The captured session of a timer is the one shown. -/
theorem access_of_timer {s : State} (ok : HookOk s) {timer : ExpiryTimer}
    (set : s.expiryTimer = some timer) : s.access = .authenticated timer.session := by
  have captured := ok.timer.timed (mounted_of_timer ok set)
  rw [set] at captured
  exact sessionOf_eq_some captured.symm

theorem erase_probe_none {s : State} (ok : HookOk s) {id : Nat}
    (live : s.probes.lookup id = some false) (j : Nat) :
    (s.probes.erase id).lookup j ≠ some false := by
  intro other
  obtain ⟨apart, other⟩ := lookup_erase_some other
  have first := ok.probes.live id live
  have second := ok.probes.live j other
  rw [first] at second
  cases second
  exact apart rfl

theorem Redrawn.idle {s t : State} (drawn : Redrawn s t)
    (noProbe : ∀ id, s.probes.lookup id ≠ some false)
    (idle : s.mounted = true → s.submitting = false) : PageOk t := by
  obtain ⟨access, timer, error, rfl⟩ := drawn.same
  exact pageOk_of_idle noProbe idle

theorem page_probe {s : State} {env : Surroundings} {id : Nat} {aborted : Bool} {result : Fetched}
    (ok : HookOk s) (page : PageOk s) (found : s.probes.lookup id = some aborted) :
    PageOk ({ s with probes := s.probes.erase id }.onProbe env aborted result) := by
  cases aborted with
  | true =>
    refine ⟨fun j live => ?_, page.submitting⟩
    exact page.probing j (lookup_erase_some live).2
  | false =>
    have loading := page.probing id found
    have idle : s.mounted = true → s.submitting = false :=
      not_submitting page (by rw [loading]; exact fun same => by cases same)
    exact (onProbe_redrawn { s with probes := s.probes.erase id } env false result).idle
      (erase_probe_none ok found) idle

theorem page_operation {s : State} {env : Surroundings} {id : Nat} {operation : Operation}
    {result : Fetched} (ok : HookOk s) (page : PageOk s)
    (found : s.operations.lookup id = some operation) :
    PageOk ({ s with operations := s.operations.erase id }.onOperation env id operation result) := by
  cases aborted : operation.aborted with
  | true =>
    rw [aborted_operation_silent ok.operations found aborted]
    exact ⟨page.probing, page.submitting⟩
  | false =>
    have current := ok.operations.live id operation found aborted
    have anonymous := page.submitting (mounted_of_operation ok current)
      (submitting_of_operation ok current)
    have noProbe := no_probe page (by rw [anonymous]; exact fun same => by cases same)
    obtain ⟨access, timer, error, same⟩ :=
      (onResult_redrawn { s with operations := s.operations.erase id } env operation result).same
    rw [State.onOperation, same]
    simp only [State.finish, if_pos current]
    exact pageOk_of_idle noProbe fun _ => rfl

theorem page_retry {s : State} {env : Surroundings} (page : PageOk s)
    (other : s.access ≠ .anonymous) (mounted : s.mounted = true) : PageOk (s.retry env) := by
  rw [State.retry, State.startProbe, abortProbe_eq, setAccess_eq]
  refine ⟨fun id _ => rfl, fun _ busy => ?_⟩
  have busy : s.submitting = true := busy
  exact absurd (page.submitting mounted busy) other

theorem page_login {s : State} (page : PageOk s) (anonymous : s.access = .anonymous) :
    PageOk s.login := by
  rw [State.login, State.begin, abortOperation_eq]
  exact ⟨page.probing, fun _ _ => anonymous⟩

theorem page_logout {s : State} {env : Surroundings} (page : PageOk s)
    (other : s.access ≠ .loading) : PageOk (s.logout env) := by
  have noProbe := no_probe page other
  rw [State.logout, setAccess_eq, State.begin, abortOperation_eq]
  exact ⟨fun id live => absurd live (noProbe id), fun _ _ => rfl⟩

theorem page_unmount {s : State} (ok : HookOk s) : PageOk s.unmount := by
  have gone := (unmount_ok ok).probes.gone
  rw [State.unmount] at gone ⊢
  refine ⟨fun id live => absurd live (gone rfl id), fun still => ?_⟩
  cases still

theorem workspace_session {s : State} (mounted : workspace .relay s = true) :
    ∃ session, s.access = .authenticated session := by
  simp only [workspace, reduceCtorEq, decide_false, Bool.false_or, Option.isSome_iff_exists]
    at mounted
  obtain ⟨session, same⟩ := mounted
  exact ⟨session, sessionOf_eq_some same⟩

/-- What the gate and the workspace offer. -/
theorem offers_login {s : State} (offered : offers .relay s .login = true) :
    s.access = .anonymous ∧ s.submitting = false := by
  simp only [offers, Bool.and_eq_true, decide_eq_true_eq, Bool.not_eq_true'] at offered
  exact ⟨offered.1.2, offered.2⟩

theorem offers_retry {s : State} (offered : offers .relay s .retry = true) :
    ∃ message, s.access = .error message := by
  simp only [offers, Bool.and_eq_true] at offered
  cases same : s.access with
  | error message => exact ⟨message, rfl⟩
  | _ =>
    rw [same] at offered
    exact absurd offered.2 Bool.false_ne_true

theorem offers_logout {s : State} (offered : offers .relay s .logout = true) :
    ∃ session, s.access = .authenticated session := by
  simp only [offers, Bool.and_eq_true] at offered
  exact workspace_session offered.1.1

theorem offers_invalidate {s : State} (offered : offers .relay s .invalidate = true) :
    ∃ session, s.access = .authenticated session :=
  workspace_session offered

theorem page_taken {mode : Mode} {s t : State} {a : Event × Surroundings}
    (taken : (page mode).step s a = some t) :
    offers mode s a.1 = true ∧ step mode s a.1 a.2 = some t := by
  simp only [page] at taken
  split at taken
  · next offered => exact ⟨offered, taken⟩
  · cases taken

theorem page_step_ok {s t : State} {a : Event × Surroundings} (ok : HookOk s) (page_ : PageOk s)
    (taken : (page .relay).step s a = some t) : PageOk t := by
  obtain ⟨offered, taken⟩ := page_taken taken
  obtain ⟨event, env⟩ := a
  cases event with
  | probe id result =>
    simp only [step, Option.bind_eq_some_iff] at taken
    obtain ⟨aborted, found, taken⟩ := taken
    split at taken
    · cases taken
      exact page_probe ok page_ found
    · cases taken
  | operation id result =>
    simp only [step, Option.bind_eq_some_iff] at taken
    obtain ⟨operation, found, taken⟩ := taken
    split at taken
    · cases taken
      exact page_operation ok page_ found
    · cases taken
  | expiry =>
    simp only [step, Option.map_eq_some_iff] at taken
    obtain ⟨timer, set, rfl⟩ := taken
    have shown_ := access_of_timer ok set
    have noProbe := no_probe page_ (by rw [shown_]; exact fun same => by cases same)
    have idle := not_submitting page_ (by rw [shown_]; exact fun same => by cases same)
    unfold State.onExpiryTimer
    split
    · exact (expire_redrawn { s with expiryTimer := none } env).idle noProbe idle
    · split
      · exact (Redrawn.setAccess { s with expiryTimer := none } env s.actionError _).idle noProbe idle
      · exact pageOk_of_idle noProbe idle
  | resume =>
    simp only [step] at taken
    split at taken
    · next listens =>
      cases taken
      unfold State.resume
      split
      · exact page_
      · cases same : s.access with
        | authenticated session =>
          simp only
          split
          · exact (expire_redrawn s env).idle
              (no_probe page_ (by rw [same]; exact fun same => by cases same))
              (not_submitting page_ (by rw [same]; exact fun same => by cases same))
          · exact page_
        | error message =>
          exact page_retry page_ (by rw [same]; exact fun same => by cases same) listens.1
        | _ => exact page_
    · cases taken
  | login =>
    simp only [step] at taken
    split at taken
    · cases taken
      exact page_login page_ (offers_login offered).1
    · cases taken
  | logout =>
    simp only [step] at taken
    split at taken
    · cases taken
      obtain ⟨session, same⟩ := offers_logout offered
      exact page_logout page_ (by rw [same]; exact fun same => by cases same)
    · cases taken
  | retry =>
    simp only [step] at taken
    split at taken
    · cases taken
    · next mounted =>
      simp only [reduceCtorEq, if_false] at taken
      cases taken
      obtain ⟨message, same⟩ := offers_retry offered
      exact page_retry page_ (by rw [same]; exact fun same => by cases same) (by simpa using mounted)
  | invalidate =>
    simp only [step] at taken
    split at taken
    · cases taken
      obtain ⟨session, same⟩ := offers_invalidate offered
      exact (Redrawn.setAccess s env _ .anonymous).idle
        (no_probe page_ (by rw [same]; exact fun same => by cases same))
        (not_submitting page_ (by rw [same]; exact fun same => by cases same))
    · cases taken
  | unmount =>
    simp only [step] at taken
    split at taken
    · cases taken
      exact page_unmount ok
    · cases taken

theorem page_ok {s : State} (reach : (page .relay).Reachable s) : HookOk s ∧ PageOk s := by
  have inv : Invariant (page .relay) fun s => HookOk s ∧ PageOk s := by
    refine ⟨?_, ?_⟩
    · rintro s ⟨env, rfl⟩
      refine ⟨mount_ok .relay env, fun id _ => ?_, fun _ busy => ?_⟩
      · rfl
      · cases busy
    · intro s a t both taken
      exact ⟨hook_step_ok both.1 (page_taken taken).2, page_step_ok both.1 both.2 taken⟩
  exact reachable_invariant (page .relay) inv reach

/-- The relay has answered with the session. -/
def Told (result : Fetched) (session : RelaySession) : Prop :=
  ∃ status body, result = .response status body ∧ isOk status ∧ parseSession body = some session

theorem readSession_ok {body : RadarProtocol.Value} {session : RelaySession}
    (read : readSession body = .ok session) : parseSession body = some session := by
  unfold readSession at read
  split at read
  · cases read
  · split at read
    · next parsed =>
      cases read
      exact parsed
    · cases read

theorem login_told {result : Fetched} {session : RelaySession}
    (ok : loginRelaySession result = .ok session) : Told result session := by
  cases result with
  | response status body =>
    simp only [loginRelaySession, fetchRelay, bind, Except.bind] at ok
    split_ifs at ok
    next _ _ _ _ fine =>
    exact ⟨status, body, rfl, fine, readSession_ok ok⟩
  | _ => cases ok

theorem probe_told {result : Fetched} {session : RelaySession}
    (ok : probeRelaySession result = .ok (.authenticated session)) : Told result session := by
  cases result with
  | response status body =>
    simp only [probeRelaySession, fetchRelay, bind, Except.bind] at ok
    split_ifs at ok <;> try cases ok
    next _ _ _ fine =>
    cases read : readSession body with
    | error failure =>
      rw [read] at ok
      cases ok
    | ok other =>
      rw [read] at ok
      cases ok
      exact ⟨status, body, rfl, fine, readSession_ok read⟩
  | _ => cases ok

/-- The event is the answer to a request that still counts, with a session that has not
    expired. -/
def Accepts (s : State) (a : Event × Surroundings) (session : RelaySession) : Prop :=
  ∃ id result, Told result session ∧ a.2.now .effect < session.expiresAtMs ∧
    (a.1 = .probe id result ∧ s.probes.lookup id = some false ∨
      a.1 = .operation id result ∧ s.operations.lookup id = some ⟨.login, false⟩)

/-- The calls by which the session ends, or another one is asked for. -/
def calls : Event → Bool
  | .login | .logout | .retry | .invalidate => true
  | _ => false

theorem onProbe_accepts {s : State} {env : Surroundings} {result : Fetched}
    {session : RelaySession} (shown_ : sessionOf (s.onProbe env false result).access = some session) :
    Told result session ∧ env.now .effect < session.expiresAtMs := by
  simp only [State.onProbe, Bool.false_eq_true, if_false] at shown_
  split at shown_
  · next told =>
    obtain ⟨same, alive⟩ := setAccess_session shown_
    cases same
    exact ⟨probe_told told, alive⟩
  all_goals cases (setAccess_session shown_).1

theorem onLogin_accepts {s : State} {env : Surroundings} {result : Fetched}
    {session : RelaySession} (shown_ : sessionOf (s.onLogin env false result).access = some session) :
    Told result session ∧ env.now .effect < session.expiresAtMs := by
  simp only [State.onLogin, Bool.false_eq_true, if_false] at shown_
  split at shown_
  · next told =>
    obtain ⟨same, alive⟩ := setAccess_session shown_
    cases same
    exact ⟨login_told told, alive⟩
  · have same := (setAccess_session shown_).1
    split at same <;> cases same

theorem onLogout_access (s : State) (aborted : Bool) (result : Fetched) :
    (s.onLogout aborted result).access = s.access := by
  unfold State.onLogout
  split
  · rfl
  · split <;> rfl

theorem finish_access (s : State) (id : Nat) : (s.finish id).access = s.access := by
  unfold State.finish
  split <;> rfl

theorem begin_access (s : State) (request : Request) : (s.begin request).access = s.access := by
  rw [State.begin, abortOperation_eq]

theorem unmount_access (s : State) : s.unmount.access = s.access := by
  rw [State.unmount, abortOperation_eq, abortProbe_eq]

/-- The session shown was shown before, or the step is an answer that tells of it. -/
theorem shown_step {s t : State} {a : Event × Surroundings} {session : RelaySession}
    (ok : HookOk s) (taken : (page .relay).step s a = some t)
    (shown_ : sessionOf t.access = some session) :
    sessionOf s.access = some session ∧ calls a.1 = false ∨ Accepts s a session := by
  obtain ⟨offered, taken⟩ := page_taken taken
  obtain ⟨event, env⟩ := a
  cases event with
  | probe id result =>
    simp only [step, Option.bind_eq_some_iff] at taken
    obtain ⟨aborted, found, taken⟩ := taken
    split at taken
    · cases taken
      cases aborted with
      | true => exact Or.inl ⟨shown_, rfl⟩
      | false =>
        obtain ⟨told, alive⟩ := onProbe_accepts shown_
        exact Or.inr ⟨id, result, told, alive, Or.inl ⟨rfl, found⟩⟩
    · cases taken
  | operation id result =>
    simp only [step, Option.bind_eq_some_iff] at taken
    obtain ⟨⟨request, aborted⟩, found, taken⟩ := taken
    split at taken
    · cases taken
      cases aborted with
      | true =>
        rw [aborted_operation_silent ok.operations found rfl] at shown_
        exact Or.inl ⟨shown_, rfl⟩
      | false =>
        rw [State.onOperation, finish_access] at shown_
        cases request with
        | login =>
          obtain ⟨told, alive⟩ := onLogin_accepts shown_
          exact Or.inr ⟨id, result, told, alive, Or.inr ⟨rfl, found⟩⟩
        | logout =>
          simp only [State.onResult, onLogout_access] at shown_
          exact Or.inl ⟨shown_, rfl⟩
    · cases taken
  | expiry =>
    simp only [step, Option.map_eq_some_iff] at taken
    obtain ⟨timer, set, rfl⟩ := taken
    have captured := access_of_timer ok set
    unfold State.onExpiryTimer at shown_
    split at shown_
    · cases shown_
    · simp only [captured] at shown_
      obtain ⟨same, -⟩ := setAccess_session shown_
      rw [captured, same]
      exact Or.inl ⟨rfl, rfl⟩
  | resume =>
    simp only [step] at taken
    split at taken
    · cases taken
      unfold State.resume at shown_
      split at shown_
      · exact Or.inl ⟨shown_, rfl⟩
      · split at shown_
        · split at shown_
          · cases shown_
          · exact Or.inl ⟨shown_, rfl⟩
        · cases shown_
        · exact Or.inl ⟨shown_, rfl⟩
    · cases taken
  | login =>
    simp only [step] at taken
    split at taken
    · cases taken
      rw [State.login, begin_access, (offers_login offered).1] at shown_
      cases shown_
    · cases taken
  | logout =>
    simp only [step] at taken
    split at taken
    · cases taken
      rw [State.logout, setAccess_eq] at shown_
      cases shown_
    · cases taken
  | retry =>
    simp only [step] at taken
    split at taken
    · cases taken
    · simp only [reduceCtorEq, if_false] at taken
      cases taken
      cases shown_
  | invalidate =>
    simp only [step] at taken
    split at taken
    · cases taken
      cases shown_
    · cases taken
  | unmount =>
    simp only [step] at taken
    split at taken
    · cases taken
      rw [unmount_access] at shown_
      exact Or.inl ⟨shown_, rfl⟩
    · cases taken

/-- What the actions so far tell of the session shown: the answer that told of it, and that
    nothing has ended it or asked for another since. -/
def Backed (start : State) (past : List (Event × Surroundings)) (s : State) : Prop :=
  ∀ session, sessionOf s.access = some session → ∃ before a after u,
    past = before ++ a :: after ∧ (page .relay).exec start before = some u ∧
    Accepts u a session ∧ ∀ b ∈ after, calls b.1 = false

theorem backed_step {start s t : State} {past : List (Event × Surroundings)}
    {a : Event × Surroundings} (ok : HookOk s) (ran : (page .relay).exec start past = some s)
    (backed : Backed start past s) (taken : (page .relay).step s a = some t) :
    Backed start (past ++ [a]) t := by
  intro session shown_
  rcases shown_step ok taken shown_ with ⟨earlier, quiet⟩ | accepts
  · obtain ⟨before, answer, after, u, split_, reached, accepts, since⟩ := backed session earlier
    refine ⟨before, answer, after ++ [a], u, by rw [split_, List.append_assoc]; rfl, reached,
      accepts, ?_⟩
    intro b member
    rcases List.mem_append.mp member with old | new
    · exact since b old
    · rw [List.mem_singleton.mp new]
      exact quiet
  · exact ⟨past, a, [], s, rfl, ran, accepts, fun b member => by cases member⟩

def Story (start : State) (past : List (Event × Surroundings)) (s : State) : Prop :=
  (page .relay).exec start past = some s ∧ Backed start past s

/-- On a relay page, whatever the order of answers, calls, timers and resumptions, the workspace
    is shown for a session that the relay has told of in an answer to a request which still
    counted; it was alive then, and nobody has logged out or in since. -/
theorem workspace_backed {env : Surroundings} {actions : List (Event × Surroundings)} {s : State}
    {session : RelaySession}
    (run : (page .relay).exec (mount .relay env) actions = some s)
    (shown_ : sessionOf s.access = some session) : ∃ before a after u,
      actions = before ++ a :: after ∧
      (page .relay).exec (mount .relay env) before = some u ∧ Accepts u a session ∧
      ∀ b ∈ after, calls b.1 = false := by
  have start : (page .relay).Reachable (mount .relay env) :=
    reachable_start (page .relay) ⟨env, rfl⟩
  have kept : Story (mount .relay env) ([] ++ actions) s := by
    refine exec_preserves_past (page .relay) (P := Story (mount .relay env)) ?_
      ⟨rfl, fun session none_ => by cases none_⟩ run
    intro past u a v known taken
    have ok := (page_ok (reachable_exec (page .relay) start known.1)).1
    have last : (page .relay).exec u [a] = some v :=
      (exec_cons_iff (page .relay)).mpr ⟨v, taken, rfl⟩
    exact ⟨exec_append (page .relay) known.1 last, backed_step ok known.1 known.2 taken⟩
  exact kept.2 session shown_

theorem probe_shows (env : Surroundings) {result : Fetched} {session : RelaySession}
    (told : probeRelaySession result = .ok (.authenticated session))
    (alive : env.now .effect < session.expiresAtMs) : ∃ s,
    (page .relay).exec (mount .relay env) [(.probe 0 result, env)] = some s ∧
      s.mounted = true ∧ s.access = .authenticated session := by
  have stays : shown env (.authenticated session) = .authenticated session := if_neg (by omega)
  have possible : result.possible false = true := by
    cases result with
    | aborted => cases told
    | _ => rfl
  refine ⟨{ mount .relay env with
    probes := (mount .relay env).probes.erase 0 }.onProbe env false result, ?_, ?_, ?_⟩
  · rw [exec_cons_iff]
    refine ⟨_, ?_, rfl⟩
    simp only [page, offers, if_true, step]
    change (some false).bind _ = _
    rw [Option.bind_some, if_pos possible]
  · simp only [State.onProbe, Bool.false_eq_true, if_false, told, setAccess_eq]
    rfl
  · simp only [State.onProbe, Bool.false_eq_true, if_false, told, setAccess_eq, stays]

/-- A session of a room for five seconds after 1970, as the relay writes it. -/
def fiveSeconds : RelaySession.Session :=
  RelaySession.newSession [97, 98, 99] (RelayAnswer.unixEpoch + 5000000000)

def fiveSecondsTold : Fetched :=
  RelayAnswer.received (200, RelayAnswer.sessionJSON fiveSeconds.room fiveSeconds.expiresAt)

theorem fiveSeconds_told : probeRelaySession fiveSecondsTold =
    .ok (.authenticated (RelayAnswer.readAs fiveSeconds)) := by
  have telling : RelayAnswer.Telling fiveSeconds := ⟨by decide, by decide, by decide⟩
  obtain ⟨j, body, parsed⟩ := RelayAnswer.read_sessionJSON telling
  have fine : isOk 200 := by decide
  simp [fiveSecondsTold, RelayAnswer.received, probeRelaySession, fetchRelay, bind, Except.bind,
    body, fine, readSession, parsed, pure, Except.pure]

theorem workspace_backed_sample : ∃ env s before a after u,
    (page .relay).exec (mount .relay env) [(.probe 0 fiveSecondsTold, env)] = some s ∧
      [(.probe 0 fiveSecondsTold, env)] = before ++ a :: after ∧
      (page .relay).exec (mount .relay env) before = some u ∧
      Accepts u a (RelayAnswer.readAs fiveSeconds) ∧ ∀ b ∈ after, calls b.1 = false := by
  let env : Surroundings := ⟨fun _ => 0, false⟩
  obtain ⟨s, run, -, same⟩ := probe_shows env fiveSeconds_told (by decide)
  obtain ⟨before, a, after, u, split_, reached, accepts, since⟩ :=
    workspace_backed run (by rw [same]; rfl)
  exact ⟨env, s, before, a, after, u, run, split_, reached, accepts, since⟩

/-- When the page stops showing a session. -/
def Leaves (session : RelaySession) (a : Event × Surroundings) : Prop :=
  match a.1 with
  | .logout | .invalidate => True
  | .expiry => session.expiresAtMs ≤ a.2.now .handler ∨ session.expiresAtMs ≤ a.2.now .effect
  | .resume => a.2.hidden = false ∧ session.expiresAtMs ≤ a.2.now .handler
  | _ => False

/-- The gate is shown, and no request in flight can change that. -/
structure Out (s : State) : Prop where
  anonymous : s.access = .anonymous
  noProbe : ∀ id, s.probes.lookup id ≠ some false
  noLogin : ∀ id aborted, s.operations.lookup id = some ⟨.login, aborted⟩ → aborted = true

theorem no_operation {s : State} (ok : HookOk s) (idle : s.submitting = false) {id : Nat}
    {operation : Operation}
    (found : s.operations.lookup id = some operation) : operation.aborted = true := by
  cases aborted : operation.aborted with
  | true => rfl
  | false =>
    have busy := submitting_of_operation ok (ok.operations.live id operation found aborted)
    rw [idle] at busy
    cases busy

theorem Redrawn.out {s t : State} (drawn : Redrawn s t) (ok : HookOk s) (page : PageOk s)
    {session : RelaySession} (was : s.access = .authenticated session) (mounted : s.mounted = true)
    (anonymous : t.access = .anonymous) : Out t := by
  have noProbe := no_probe page (by rw [was]; exact fun same => by cases same)
  have idle := not_submitting page (by rw [was]; exact fun same => by cases same) mounted
  obtain ⟨access, timer, error, rfl⟩ := drawn.same
  exact ⟨anonymous, noProbe, fun id aborted found => no_operation ok idle found⟩

theorem logout_out {s : State} {env : Surroundings} (ok : HookOk s) (page : PageOk s)
    {session : RelaySession} (was : s.access = .authenticated session) : Out (s.logout env) := by
  have noProbe := no_probe page (by rw [was]; exact fun same => by cases same)
  rw [State.logout, setAccess_eq, State.begin, abortOperation_eq]
  refine ⟨rfl, noProbe, fun id aborted found => ?_⟩
  rcases lookup_insert_some found with ⟨-, made⟩ | ⟨-, found⟩
  · cases made
  · exact (abortedOperations_spec ok.operations found).1

/-- While a session is shown nothing in flight counts: an answer changes nothing. -/
theorem answers_silent {s t : State} {a : Event × Surroundings} (ok : HookOk s) (page : PageOk s)
    {session : RelaySession} (was : s.access = .authenticated session)
    (taken : step .relay s a.1 a.2 = some t)
    (answer : (∃ id result, a.1 = .probe id result) ∨ ∃ id result, a.1 = .operation id result) :
    t.access = s.access := by
  obtain ⟨event, env⟩ := a
  have noProbe := no_probe page (by rw [was]; exact fun same => by cases same)
  have idle := not_submitting page (by rw [was]; exact fun same => by cases same)
  rcases answer with ⟨id, result, same⟩ | ⟨id, result, same⟩
  · subst same
    simp only [step, Option.bind_eq_some_iff] at taken
    obtain ⟨aborted, found, taken⟩ := taken
    split at taken
    · cases taken
      cases aborted with
      | true => rfl
      | false => exact absurd found (noProbe id)
    · cases taken
  · subst same
    simp only [step, Option.bind_eq_some_iff] at taken
    obtain ⟨operation, found, taken⟩ := taken
    split at taken
    · cases taken
      cases aborted : operation.aborted with
      | true => rw [aborted_operation_silent ok.operations found aborted]
      | false =>
        have current := ok.operations.live id operation found aborted
        have mounted := mounted_of_operation ok current
        have busy := submitting_of_operation ok current
        rw [idle mounted] at busy
        cases busy
    · cases taken

theorem leaving_step {s t : State} {a : Event × Surroundings} {session : RelaySession}
    (ok : HookOk s) (page_ : PageOk s) (was : s.access = .authenticated session)
    (taken : (page .relay).step s a = some t) :
    (Leaves session a → Out t) ∧ (¬ Leaves session a → t.access = s.access) := by
  obtain ⟨offered, taken⟩ := page_taken taken
  obtain ⟨event, env⟩ := a
  cases event with
  | probe id result =>
    exact ⟨False.elim, fun _ => answers_silent ok page_ was taken (Or.inl ⟨id, result, rfl⟩)⟩
  | operation id result =>
    exact ⟨False.elim, fun _ => answers_silent ok page_ was taken (Or.inr ⟨id, result, rfl⟩)⟩
  | expiry =>
    simp only [step, Option.map_eq_some_iff] at taken
    obtain ⟨timer, set, rfl⟩ := taken
    have mounted := mounted_of_timer ok set
    have captured := access_of_timer ok set
    rw [was] at captured
    cases captured
    have out : ∀ error access, shown env access = .anonymous →
        Out ({ s with expiryTimer := none, actionError := error }.setAccess env access) := by
      intro error access anonymous
      exact (Redrawn.fired s env error access).out ok page_ was mounted
        (by rw [setAccess_eq, ← anonymous])
    unfold State.onExpiryTimer
    split
    · next late => exact ⟨fun _ => out _ .anonymous rfl, fun alive => absurd (Or.inl late) alive⟩
    · next early =>
      simp only [was]
      by_cases late : timer.session.expiresAtMs - env.now .effect ≤ 0
      · have gone : shown env (.authenticated timer.session) = .anonymous := if_pos late
        refine ⟨fun _ => ?_, fun alive => absurd (Or.inr (sub_nonpos.mp late)) alive⟩
        have left := out s.actionError _ gone
        rw [setAccess_eq] at left ⊢
        exact ⟨left.anonymous, left.noProbe, left.noLogin⟩
      · have stays : shown env (.authenticated timer.session) = .authenticated timer.session :=
          if_neg late
        refine ⟨fun leaves => ?_, fun _ => ?_⟩
        · rcases leaves with handler | effect
          · exact absurd handler early
          · exact absurd (sub_nonpos.mpr effect) late
        · rw [setAccess_eq, stays]
  | resume =>
    simp only [step] at taken
    split at taken
    · next listens =>
      cases taken
      unfold State.resume Leaves
      simp only [was]
      cases hidden : env.hidden with
      | true => exact ⟨fun leaves => absurd leaves.1 (by simp), fun _ => was⟩
      | false =>
        simp only [Bool.false_eq_true, if_false, true_and]
        split
        · next late =>
          exact ⟨fun _ => (expire_redrawn s env).out ok page_ was listens.1 rfl,
            fun alive => absurd late alive⟩
        · next alive => exact ⟨fun late => absurd late alive, fun _ => was⟩
    · cases taken
  | login =>
    rw [(offers_login offered).1] at was
    cases was
  | logout =>
    simp only [step] at taken
    split at taken
    · cases taken
      exact ⟨fun _ => logout_out ok page_ was, fun stays => absurd trivial stays⟩
    · cases taken
  | retry =>
    obtain ⟨message, same⟩ := offers_retry offered
    rw [same] at was
    cases was
  | invalidate =>
    simp only [step] at taken
    split at taken
    · next mounted =>
      cases taken
      exact ⟨fun _ => (Redrawn.setAccess s env _ .anonymous).out ok page_ was mounted rfl,
        fun stays => absurd trivial stays⟩
    · cases taken
  | unmount =>
    simp only [step] at taken
    split at taken
    · cases taken
      exact ⟨False.elim, fun _ => unmount_access s⟩
    · cases taken

theorem Out.finish {s : State} (out : Out s) (id : Nat) : Out (s.finish id) := by
  unfold State.finish
  split
  · exact ⟨out.anonymous, out.noProbe, out.noLogin⟩
  · exact out

/-- Off the workspace, nothing but a new login asks for a session. -/
theorem out_step {s t : State} {a : Event × Surroundings} (ok : HookOk s) (out : Out s)
    (taken : (page .relay).step s a = some t) (other : a.1 ≠ .login) : Out t := by
  obtain ⟨offered, taken⟩ := page_taken taken
  obtain ⟨event, env⟩ := a
  cases event with
  | probe id result =>
    simp only [step, Option.bind_eq_some_iff] at taken
    obtain ⟨aborted, found, taken⟩ := taken
    split at taken
    · cases taken
      cases aborted with
      | true =>
        exact ⟨out.anonymous, fun j held => out.noProbe j (lookup_erase_some held).2, out.noLogin⟩
      | false => exact absurd found (out.noProbe id)
    · cases taken
  | operation id result =>
    simp only [step, Option.bind_eq_some_iff] at taken
    obtain ⟨operation, found, taken⟩ := taken
    split at taken
    · cases taken
      have later : ∀ j aborted, (s.operations.erase id).lookup j = some ⟨.login, aborted⟩ →
          aborted = true := fun j aborted held => out.noLogin j aborted (lookup_erase_some held).2
      cases aborted : operation.aborted with
      | true =>
        rw [aborted_operation_silent ok.operations found aborted]
        exact ⟨out.anonymous, out.noProbe, later⟩
      | false =>
        obtain ⟨request, marked⟩ := operation
        cases request with
        | login =>
          rw [show marked = false from aborted] at found
          cases out.noLogin id false found
        | logout =>
          have same := onLogout_access { s with operations := s.operations.erase id } marked result
          obtain ⟨access, timer, error, drawn⟩ :=
            (onLogout_redrawn { s with operations := s.operations.erase id } marked result).same
          rw [drawn] at same
          have anonymous : access = .anonymous := same.trans out.anonymous
          have left : Out (({ s with operations := s.operations.erase id }).onLogout marked result) := by
            rw [drawn]
            exact ⟨anonymous, out.noProbe, later⟩
          exact left.finish id
    · cases taken
  | expiry =>
    simp only [step, Option.map_eq_some_iff] at taken
    obtain ⟨timer, set, rfl⟩ := taken
    have captured := access_of_timer ok set
    rw [out.anonymous] at captured
    cases captured
  | resume =>
    simp only [step] at taken
    split at taken
    · cases taken
      unfold State.resume
      split
      · exact out
      · simp only [out.anonymous]
        exact out
    · cases taken
  | login => exact absurd rfl other
  | logout =>
    obtain ⟨session, same⟩ := offers_logout offered
    rw [out.anonymous] at same
    cases same
  | retry =>
    obtain ⟨message, same⟩ := offers_retry offered
    rw [out.anonymous] at same
    cases same
  | invalidate =>
    obtain ⟨session, same⟩ := offers_invalidate offered
    rw [out.anonymous] at same
    cases same
  | unmount =>
    simp only [step] at taken
    split at taken
    · cases taken
      have gone := (unmount_ok ok).probes.gone
      rw [State.unmount, abortOperation_eq, abortProbe_eq] at gone ⊢
      refine ⟨out.anonymous, gone rfl, fun id aborted found => ?_⟩
      exact (abortedOperations_spec ok.operations found).1
    · cases taken

/-- A relay page shows a session until the very step that has to end it, an answer that comes
    late to an older request included; and then it stays at the gate, in every later order of
    events, until somebody logs in anew. -/
theorem workspace_left {s t : State} {a : Event × Surroundings} {session : RelaySession}
    (reach : (page .relay).Reachable s) (was : s.access = .authenticated session)
    (taken : (page .relay).step s a = some t) :
    (¬ Leaves session a → t.access = .authenticated session) ∧
      (Leaves session a → ∀ later u, (page .relay).exec t later = some u →
        (∀ b ∈ later, b.1 ≠ .login) → u.access = .anonymous) := by
  obtain ⟨ok, page_⟩ := page_ok reach
  obtain ⟨leaving, staying⟩ := leaving_step ok page_ was taken
  refine ⟨fun stays => (staying stays).trans was, fun leaves later => ?_⟩
  have kept : ∀ v, (page .relay).Reachable v → Out v → ∀ later u,
      (page .relay).exec v later = some u → (∀ b ∈ later, b.1 ≠ .login) → u.access = .anonymous := by
    intro v reach_ out later u run other
    induction later generalizing v with
    | nil =>
      cases run
      exact out.anonymous
    | cons b rest ih =>
      obtain ⟨next, first, tail⟩ := (exec_cons_iff (page .relay)).mp run
      have still := out_step (page_ok reach_).1 out first (other b List.mem_cons_self)
      exact ih next (reachable_step (page .relay) reach_ first) still tail
        fun c member => other c (List.mem_cons_of_mem b member)
  exact kept t (reachable_step (page .relay) reach taken) (leaving leaves) later

/-- Logging out of the session; an answer to the logout then leaves the gate as it is. -/
theorem workspace_left_sample : ∃ env s t,
    (page .relay).exec (mount .relay env) [(.probe 0 fiveSecondsTold, env)] = some s ∧
      (page .relay).step s (.logout, env) = some t ∧
      ∀ later u, (page .relay).exec t later = some u → (∀ b ∈ later, b.1 ≠ .login) →
        u.access = .anonymous := by
  let env : Surroundings := ⟨fun _ => 0, false⟩
  obtain ⟨s, run, mounted, same⟩ := probe_shows env fiveSeconds_told (by decide)
  have reach : (page .relay).Reachable s := ⟨_, _, ⟨env, rfl⟩, run⟩
  have idle := not_submitting (page_ok reach).2 (by rw [same]; exact fun same => by cases same) mounted
  have taken : (page .relay).step s (.logout, env) = some (s.logout env) := by
    simp [page, offers, workspace, same, sessionOf, idle, step, mounted]
  exact ⟨env, s, s.logout env, run, taken, (workspace_left reach same taken).2 trivial⟩

end RelayGate
