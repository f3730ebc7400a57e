import GameSecurity.RadarStream

/- The reconnect machine never holds two connections and never stops without cause. -/
namespace RadarReconnect
open Runs FiniteTable RadarStream

/-- What keeps an effect going, and what it may rest in. -/
inductive Situation
  | socket | retry | probe | offline | rejected
  deriving DecidableEq, Repr

def Holds (s : State) : Situation → Prop
  | .socket => s.socket.isSome = true
  | .retry => ∃ id, s.timers.lookup id = some .reconnect
  | .probe => ∃ id probe, s.probes.lookup id = some probe ∧ probe.generation = s.generation
  | .offline => s.status = .offline
  | .rejected => s.status = .disconnected

def Only (s : State) (k : Situation) : Prop := ∀ j, Holds s j ↔ j = k

structure SocketsOk (sockets : Table Nat Socket) (next generation : Nat) (socket : Option Nat)
    (disposed : Bool) : Prop where
  bounded : ∀ i a, sockets.lookup i = some a → a.generation ≤ generation ∧ i < next
  distinct : ∀ i j a b, sockets.lookup i = some a → sockets.lookup j = some b →
    a.generation = b.generation → i = j
  current : disposed = false → ∀ i, socket = some i ↔
    ∃ a, sockets.lookup i = some a ∧ a.generation = generation ∧ a.ended = false

structure TimersOk (timers : Table Nat Timer) (next : Nat) (reconnectTimer : Option Nat)
    (sockets : Table Nat Socket) : Prop where
  fresh : ∀ id timer, timers.lookup id = some timer → id < next
  tracked : ∀ id, timers.lookup id = some .reconnect → reconnectTimer = some id
  watched : ∀ id i generation, timers.lookup id = some (.watchdog i generation) →
    ∃ a, sockets.lookup i = some a ∧ a.generation = generation

structure ProbesOk (probes : Table Nat Probe) (next generation : Nat) : Prop where
  fresh : ∀ id probe, probes.lookup id = some probe → id < next
  bounded : ∀ id probe, probes.lookup id = some probe → probe.generation ≤ generation

/-- The signal of the current generation's probe is the controller's, and an aborted probe
   belongs to an older one. -/
structure SignalsOk (probes : Table Nat Probe) (generation : Nat) (controller : Option Nat)
    (disposed : Bool) : Prop where
  current : ∀ id probe, probes.lookup id = some probe → probe.generation = generation →
    controller = some id
  aborted : ∀ id probe, probes.lookup id = some probe → probe.aborted = true →
    disposed = true ∨ probe.generation < generation

def Ready (s : State) : Prop :=
  SocketsOk s.sockets s.nextSocket s.generation s.socket s.disposed ∧
    TimersOk s.timers s.nextTimer s.reconnectTimer s.sockets ∧
    ProbesOk s.probes s.nextProbe s.generation

def Signals (s : State) : Prop :=
  SignalsOk s.probes s.generation s.sessionProbeController s.disposed

def NoRetry (s : State) : Prop := ∀ id, s.timers.lookup id ≠ some .reconnect

def NoProbe (s : State) : Prop :=
  ∀ id probe, s.probes.lookup id = some probe → probe.generation ≠ s.generation

theorem timersOk_erase {timers : Table Nat Timer} {next : Nat} {variable_ : Option Nat}
    {sockets : Table Nat Socket} (h : TimersOk timers next variable_ sockets) (id : Nat) :
    TimersOk (timers.erase id) next variable_ sockets where
  fresh t timer found := h.fresh t timer (lookup_erase_some found).2
  tracked t found := h.tracked t (lookup_erase_some found).2
  watched t i generation found := h.watched t i generation (lookup_erase_some found).2

theorem ready_clearTimeout {s : State} (h : Ready s) (id : Option Nat) :
    Ready (s.clearTimeout id) := by
  cases id with
  | none => exact h
  | some id => exact ⟨h.1, timersOk_erase h.2.1 id, h.2.2⟩

theorem clearTimeout_lookup {s : State} {cleared : Option Nat} {id : Nat} {timer : Timer}
    (found : (s.clearTimeout cleared).timers.lookup id = some timer) :
    s.timers.lookup id = some timer ∧ cleared ≠ some id := by
  cases cleared with
  | none => exact ⟨found, by simp⟩
  | some other =>
    obtain ⟨different, kept⟩ := lookup_erase_some found
    exact ⟨kept, by simpa using different.symm⟩

theorem timersOk_insert {timers : Table Nat Timer} {next : Nat} {variable_ variable' : Option Nat}
    {sockets : Table Nat Socket} (h : TimersOk timers next variable_ sockets) {timer : Timer}
    (tracked : ∀ id, (timers.insert next timer).lookup id = some .reconnect → variable' = some id)
    (watched : ∀ i generation, timer = .watchdog i generation →
      ∃ a, sockets.lookup i = some a ∧ a.generation = generation) :
    TimersOk (timers.insert next timer) (next + 1) variable' sockets where
  fresh id other found := by
    rcases lookup_insert_some found with ⟨rfl, -⟩ | ⟨-, old⟩
    · exact Nat.lt_succ_self id
    · exact Nat.lt_succ_of_lt (h.fresh id other old)
  tracked := tracked
  watched id i generation found := by
    rcases lookup_insert_some found with ⟨-, new⟩ | ⟨-, old⟩
    · exact watched i generation new.symm
    · exact h.watched id i generation old

theorem ready_clearReconnect {s : State} (h : Ready s) (updateState : Bool) :
    Ready (s.clearReconnect updateState) ∧ NoRetry (s.clearReconnect updateState) := by
  have none_ : NoRetry (s.clearReconnect updateState) := by
    intro id found
    obtain ⟨kept, other⟩ := clearTimeout_lookup found
    exact other (h.2.1.tracked id kept)
  have old := (ready_clearTimeout h s.reconnectTimer).2.1
  have timers : TimersOk (s.clearReconnect updateState).timers s.nextTimer none s.sockets :=
    ⟨old.fresh, fun id found => absurd found (none_ id), old.watched⟩
  exact ⟨⟨h.1, timers, h.2.2⟩, none_⟩

theorem ready_clearConnectWatchdog {s : State} (h : Ready s) : Ready s.clearConnectWatchdog :=
  ready_clearTimeout h s.connectWatchdogTimer

theorem abortProbe_lookup {s : State} {id : Nat} {probe : Probe}
    (found : s.abortProbe.probes.lookup id = some probe) :
    ∃ old, s.probes.lookup id = some old ∧ probe.generation = old.generation := by
  simp only [State.abortProbe] at found
  split at found
  · exact ⟨probe, found, rfl⟩
  · rename_i controller _
    split at found
    · exact ⟨probe, found, rfl⟩
    · rename_i old present
      rcases lookup_insert_some found with ⟨rfl, rfl⟩ | ⟨-, before⟩
      · exact ⟨old, present, rfl⟩
      · exact ⟨probe, before, rfl⟩

theorem ready_abortProbe {s : State} (h : Ready s) : Ready s.abortProbe := by
  refine ⟨h.1, h.2.1, ?_⟩
  constructor
  case fresh =>
    intro id probe found
    obtain ⟨old, present, -⟩ := abortProbe_lookup found
    exact h.2.2.fresh id old present
  case bounded =>
    intro id probe found
    obtain ⟨old, present, same⟩ := abortProbe_lookup found
    rw [same]
    exact h.2.2.bounded id old present

/-- A new generation makes every socket and every probe an old one. -/
theorem ready_supersede {s : State} (h : Ready s) {socket : Option Nat} (left : socket = none) :
    Ready { s with generation := s.generation + 1, socket := socket } := by
  have sockets : SocketsOk s.sockets s.nextSocket (s.generation + 1) socket s.disposed := by
    constructor
    case bounded =>
      intro i a found
      obtain ⟨old, known⟩ := h.1.bounded i a found
      exact ⟨Nat.le_succ_of_le old, known⟩
    case distinct => exact h.1.distinct
    case current =>
      intro _ i
      subst left
      constructor
      · intro wrong
        cases wrong
      · rintro ⟨a, found, same, -⟩
        have old := (h.1.bounded i a found).1
        omega
  have probes : ProbesOk s.probes s.nextProbe (s.generation + 1) := by
    constructor
    case fresh => exact h.2.2.fresh
    case bounded =>
      intro id probe found
      exact Nat.le_succ_of_le (h.2.2.bounded id probe found)
  exact ⟨sockets, h.2.1, probes⟩

theorem signals_supersede {s : State} (h : Ready s) (controller : Option Nat) (disposed : Bool) :
    SignalsOk s.probes (s.generation + 1) controller disposed where
  current id probe found same := by
    have old := h.2.2.bounded id probe found
    omega
  aborted id probe found _ := by
    have old := h.2.2.bounded id probe found
    exact Or.inr (Nat.lt_succ_of_le old)

theorem noProbe_supersede {s : State} (h : Ready s) :
    NoProbe { s with generation := s.generation + 1 } := by
  intro id probe found same
  have old := h.2.2.bounded id probe found
  have next : probe.generation = s.generation + 1 := same
  omega

/-- Setting or clearing the staleness timer is nobody else's affair. -/
theorem refreshStaleness_same (s : State) (env : Surroundings) :
    ∃ timers next staleTimer stale, s.refreshStaleness env =
        { s with timers := timers, nextTimer := next, staleTimer := staleTimer, stale := stale } ∧
      (Ready s → TimersOk timers next s.reconnectTimer s.sockets) ∧
      ∀ id, timers.lookup id = some .reconnect → s.timers.lookup id = some .reconnect := by
  have cleared : ∀ id, (s.clearTimeout s.staleTimer).timers.lookup id = some .reconnect →
      s.timers.lookup id = some .reconnect := fun id found => (clearTimeout_lookup found).1
  have ready := fun h : Ready s => (ready_clearTimeout h s.staleTimer).2.1
  unfold State.refreshStaleness
  simp only
  split
  · exact ⟨_, _, _, _, rfl, ready, cleared⟩
  · split
    · exact ⟨_, _, _, _, rfl, ready, cleared⟩
    · have old : ∀ id, ((s.clearTimeout s.staleTimer).timers.insert s.nextTimer .stale).lookup id =
          some .reconnect → (s.clearTimeout s.staleTimer).timers.lookup id = some .reconnect := by
        intro id found
        rcases lookup_insert_some found with ⟨-, new⟩ | ⟨-, before⟩
        · cases new
        · exact before
      refine ⟨_, _, _, _, rfl, fun h => ?_, fun id found => cleared id (old id found)⟩
      have timers := ready h
      exact timersOk_insert timers (fun id found => timers.tracked id (old id found))
        fun i generation wrong => by cases wrong

section Only

variable {s : State} {k : Situation}

theorem only_socket_none (h : Only s k) (other : k ≠ .socket) : s.socket = none := by
  by_contra wrong
  have holds : Holds s .socket := Option.isSome_iff_ne_none.mpr wrong
  exact other ((h .socket).mp holds).symm

theorem only_noRetry (h : Only s k) (other : k ≠ .retry) : NoRetry s := by
  intro id found
  exact other ((h .retry).mp ⟨id, found⟩).symm

theorem only_noProbe (h : Only s k) (other : k ≠ .probe) : NoProbe s := by
  intro id probe found same
  exact other ((h .probe).mp ⟨id, probe, found, same⟩).symm

theorem not_holds_retry (retry : NoRetry s) : ¬ Holds s .retry := by
  rintro ⟨id, found⟩
  exact retry id found

theorem not_holds_probe (probe : NoProbe s) : ¬ Holds s .probe := by
  rintro ⟨id, found, present, same⟩
  exact probe id found present same

theorem not_holds_socket (socket : s.socket = none) : ¬ Holds s .socket := by
  simp [Holds, socket]

theorem only_of (holds : Holds s k) (others : ∀ j, j ≠ k → ¬ Holds s j) : Only s k := by
  intro j
  constructor
  · intro held
    by_contra different
    exact others j different held
  · rintro rfl
    exact holds

theorem only_socket {i : Nat} (socket : s.socket = some i) (retry : NoRetry s) (probe : NoProbe s)
    (offline : s.status ≠ .offline) (rejected : s.status ≠ .disconnected) : Only s .socket := by
  refine only_of (by simp [Holds, socket]) fun j other => ?_
  cases j with
  | socket => exact absurd rfl other
  | retry => exact not_holds_retry retry
  | probe => exact not_holds_probe probe
  | offline => exact offline
  | rejected => exact rejected

theorem only_retry {id : Nat} (retry : s.timers.lookup id = some .reconnect)
    (socket : s.socket = none) (probe : NoProbe s) (status : s.status = .reconnecting) :
    Only s .retry := by
  refine only_of ⟨id, retry⟩ fun j other => ?_
  cases j with
  | socket => exact not_holds_socket socket
  | retry => exact absurd rfl other
  | probe => exact not_holds_probe probe
  | offline | rejected => simp [Holds, status]

theorem only_probe {id : Nat} {probe : Probe} (found : s.probes.lookup id = some probe)
    (same : probe.generation = s.generation) (socket : s.socket = none) (retry : NoRetry s)
    (status : s.status = .reconnecting) : Only s .probe := by
  refine only_of ⟨id, probe, found, same⟩ fun j other => ?_
  cases j with
  | socket => exact not_holds_socket socket
  | retry => exact not_holds_retry retry
  | probe => exact absurd rfl other
  | offline | rejected => simp [Holds, status]

theorem only_offline (socket : s.socket = none) (retry : NoRetry s) (probe : NoProbe s)
    (status : s.status = .offline) : Only s .offline := by
  refine only_of status fun j other => ?_
  cases j with
  | socket => exact not_holds_socket socket
  | retry => exact not_holds_retry retry
  | probe => exact not_holds_probe probe
  | offline => exact absurd rfl other
  | rejected => simp [Holds, status]

theorem only_rejected (socket : s.socket = none) (retry : NoRetry s) (probe : NoProbe s)
    (status : s.status = .disconnected) : Only s .rejected := by
  refine only_of status fun j other => ?_
  cases j with
  | socket => exact not_holds_socket socket
  | retry => exact not_holds_retry retry
  | probe => exact not_holds_probe probe
  | offline => simp [Holds, status]
  | rejected => exact absurd rfl other

end Only

/-- What every handler of a running effect leaves. -/
structure Settled (s : State) : Prop where
  ready : Ready s
  signals : Signals s
  only : s.disposed = false → ∃ k, Only s k

/-- A handler that moves no timer but the others keeps what holds. -/
theorem only_same {s t : State} {k : Situation} (h : Only s k) (socket : t.socket = s.socket)
    (retry : NoRetry t) (notRetry : k ≠ .retry) (probes : t.probes = s.probes)
    (generation : t.generation = s.generation) (status : t.status = s.status) : Only t k := by
  intro j
  rw [← h j]
  cases j with
  | socket => simp only [Holds, socket]
  | retry =>
    exact iff_of_false (not_holds_retry retry) (not_holds_retry (only_noRetry h notRetry))
  | probe => simp only [Holds, probes, generation]
  | offline | rejected => simp only [Holds, status]

theorem refreshStaleness_only {s : State} {k : Situation} (h : Only s k) (notRetry : k ≠ .retry)
    (env : Surroundings) : Only (s.refreshStaleness env) k := by
  obtain ⟨timers, next, staleTimer, stale, same, -, kept⟩ := refreshStaleness_same s env
  rw [same]
  exact only_same h rfl (fun id found => only_noRetry h notRetry id (kept id found)) notRetry
    rfl rfl rfl

theorem refreshStaleness_ready {s : State} (h : Ready s) (env : Surroundings) :
    Ready (s.refreshStaleness env) := by
  obtain ⟨timers, next, staleTimer, stale, same, ok, -⟩ := refreshStaleness_same s env
  rw [same]
  exact ⟨h.1, ok h, h.2.2⟩

theorem refreshStaleness_keeps (s : State) (env : Surroundings) :
    (s.refreshStaleness env).socket = s.socket ∧ (s.refreshStaleness env).disposed = s.disposed ∧
      (s.refreshStaleness env).setFrames = s.setFrames := by
  obtain ⟨timers, next, staleTimer, stale, same, -⟩ := refreshStaleness_same s env
  rw [same]
  exact ⟨rfl, rfl, rfl⟩

theorem refreshStaleness_signals {s : State} (h : Signals s) (env : Surroundings) :
    Signals (s.refreshStaleness env) := by
  obtain ⟨timers, next, staleTimer, stale, same, -⟩ := refreshStaleness_same s env
  rw [same]
  exact h

/-- Nothing is left that could keep the effect going. -/
structure Idle (s : State) : Prop where
  ready : Ready s
  signals : Signals s
  socket : s.socket = none
  probe : NoProbe s

theorem abandon_idle {s : State} (h : Ready s) (env : Surroundings) (code : Nat) (reason : String) :
    Idle (s.abandon env code reason) ∧ NoRetry (s.abandon env code reason) := by
  obtain ⟨cleared, noRetry⟩ := ready_clearReconnect h true
  have stopped := ready_abortProbe (ready_clearConnectWatchdog cleared)
  refine ⟨⟨?_, ?_, rfl, ?_⟩, ?_⟩
  · exact ready_supersede stopped rfl
  · exact signals_supersede stopped none s.disposed
  · exact noProbe_supersede stopped
  · intro id found
    exact noRetry id (clearTimeout_lookup found).1

theorem markOffline_settled {s : State} (h : Ready s) (env : Surroundings) :
    Settled (s.markOffline env) := by
  obtain ⟨idle, noRetry⟩ := abandon_idle h env 1000 "network offline"
  refine ⟨?_, ?_, fun _ => ⟨.offline, ?_⟩⟩
  · refine refreshStaleness_ready ?_ env
    exact idle.ready
  · refine refreshStaleness_signals ?_ env
    exact idle.signals
  · refine refreshStaleness_only ?_ (by decide) env
    exact only_offline rfl noRetry idle.probe rfl

theorem disposed_settled {s : State} (h : Ready s) (signals : Signals s)
    (disposed : s.disposed = true) :
    Settled s :=
  ⟨h, signals, fun running => by simp [disposed] at running⟩

theorem scheduleReconnect_settled {s : State} (h : Idle s) (env : Surroundings) (immediate : Bool) :
    Settled (s.scheduleReconnect env immediate) := by
  unfold State.scheduleReconnect
  split
  · exact disposed_settled h.ready h.signals ‹_›
  · split
    · exact markOffline_settled h.ready env
    · obtain ⟨cleared, noRetry⟩ := ready_clearReconnect h.ready true
      have tracked : ∀ id, ((s.clearReconnect true).timers.insert s.nextTimer .reconnect).lookup id =
          some .reconnect → some s.nextTimer = some id := by
        intro id found
        rcases lookup_insert_some found with ⟨rfl, -⟩ | ⟨-, old⟩
        · rfl
        · exact absurd old (noRetry id)
      have timers := timersOk_insert cleared.2.1 tracked fun i generation wrong => by cases wrong
      refine ⟨⟨cleared.1, timers, cleared.2.2⟩, h.signals, fun _ => ⟨.retry, ?_⟩⟩
      exact only_retry (lookup_insert_self _ _ _) h.socket h.probe rfl

theorem rejectSession_settled {s : State} (h : Idle s) (retry : NoRetry s) :
    Settled s.rejectSession := by
  unfold State.rejectSession
  split
  · exact disposed_settled h.ready h.signals ‹_›
  · refine ⟨?_, ?_, fun _ => ⟨.rejected, ?_⟩⟩
    · have stopped : Ready s.clearConnectWatchdog := ready_clearConnectWatchdog h.ready
      exact stopped
    · exact h.signals
    · refine only_rejected h.socket ?_ h.probe rfl
      exact fun id found => retry id (clearTimeout_lookup found).1

/-- A new socket of a generation that no other socket has. -/
theorem socketsOk_insert {sockets : Table Nat Socket} {next generation : Nat} {socket : Option Nat}
    {disposed : Bool} (h : SocketsOk sockets next generation socket disposed)
    (older : ∀ i a, sockets.lookup i = some a → a.generation < generation) :
    SocketsOk (sockets.insert next ⟨generation, false⟩) (next + 1) generation (some next)
      disposed := by
  constructor
  case bounded =>
    intro i a found
    rcases lookup_insert_some found with ⟨rfl, rfl⟩ | ⟨-, old⟩
    · exact ⟨le_rfl, Nat.lt_succ_self i⟩
    · obtain ⟨bound, known⟩ := h.bounded i a old
      exact ⟨bound, Nat.lt_succ_of_lt known⟩
  case distinct =>
    intro i j a b first second same
    rcases lookup_insert_some first with ⟨rfl, rfl⟩ | ⟨-, left⟩ <;>
      rcases lookup_insert_some second with ⟨rfl, rfl⟩ | ⟨-, right⟩
    · rfl
    · have old := older j b right
      exact absurd same (Nat.ne_of_gt old)
    · have old := older i a left
      exact absurd same (Nat.ne_of_lt old)
    · exact h.distinct i j a b left right same
  case current =>
    intro _ i
    constructor
    · rintro ⟨⟩
      exact ⟨_, lookup_insert_self _ _ _, rfl, rfl⟩
    · rintro ⟨a, found, same, -⟩
      rcases lookup_insert_some found with ⟨rfl, -⟩ | ⟨-, old⟩
      · rfl
      · exact absurd same (Nat.ne_of_lt (older i a old))

theorem timersOk_sockets {timers : Table Nat Timer} {next : Nat} {variable_ : Option Nat}
    {sockets sockets' : Table Nat Socket} (h : TimersOk timers next variable_ sockets)
    (kept : ∀ i a, sockets.lookup i = some a →
      ∃ b, sockets'.lookup i = some b ∧ b.generation = a.generation) :
    TimersOk timers next variable_ sockets' where
  fresh := h.fresh
  tracked := h.tracked
  watched id i generation found := by
    obtain ⟨a, present, same⟩ := h.watched id i generation found
    obtain ⟨b, still, kept_⟩ := kept i a present
    exact ⟨b, still, kept_.trans same⟩

theorem adopt_settled {s : State} (h : Idle s) (retry : NoRetry s)
    (older : ∀ i a, s.sockets.lookup i = some a → a.generation < s.generation)
    (status : s.status ≠ .offline ∧ s.status ≠ .disconnected) (env : Surroundings) :
    Settled (s.adopt env) := by
  have sockets := socketsOk_insert h.ready.1 older
  have kept : ∀ i a, s.sockets.lookup i = some a →
      ∃ b, (s.sockets.insert s.nextSocket ⟨s.generation, false⟩).lookup i = some b ∧
        b.generation = a.generation := by
    intro i a found
    have other : i ≠ s.nextSocket := Nat.ne_of_lt (h.ready.1.bounded i a found).2
    exact ⟨a, by rw [lookup_insert_of_ne other, found], rfl⟩
  have timers := timersOk_sockets h.ready.2.1 kept
  have noRetry : ∀ id,
      (s.timers.insert s.nextTimer (.watchdog s.nextSocket s.generation)).lookup id ≠
        some .reconnect := by
    intro id found
    rcases lookup_insert_some found with ⟨-, new⟩ | ⟨-, old⟩
    · cases new
    · exact retry id old
  refine ⟨⟨sockets, ?_, h.ready.2.2⟩, h.signals, fun _ => ⟨.socket, ?_⟩⟩
  · refine timersOk_insert timers (fun id found => absurd found (noRetry id)) ?_
    rintro i generation ⟨⟩
    exact ⟨_, lookup_insert_self _ _ _, rfl⟩
  · exact only_socket rfl noRetry h.probe status.1 status.2

theorem connect_settled {s : State} (h : Ready s) (socket : s.socket = none)
    (env : Surroundings) (running : s.disposed = false) : Settled (s.connect env) := by
  unfold State.connect
  split
  · rename_i disposed
    simp [running] at disposed
  · obtain ⟨cleared, noRetry⟩ := ready_clearReconnect h true
    simp only
    split
    · exact markOffline_settled cleared env
    · -- The state in which the constructor is called: one generation on, with no socket.
      have stopped := ready_abortProbe cleared
      have watchdog := ready_clearTimeout stopped s.connectWatchdogTimer
      have idle : Idle { (s.clearReconnect true).abortProbe.clearConnectWatchdog with
          sessionProbeController := none
          generation := s.generation + 1
          status := if s.attempt = 0 then .connecting else .reconnecting } := by
        refine ⟨?_, ?_, socket, ?_⟩
        · exact ready_supersede watchdog socket
        · exact signals_supersede watchdog none s.disposed
        · exact noProbe_supersede watchdog
      split
      · refine scheduleReconnect_settled ?_ env false
        exact ⟨idle.ready, idle.signals, idle.socket, idle.probe⟩
      · refine adopt_settled idle ?_ ?_ ?_ env
        · exact fun id found => noRetry id (clearTimeout_lookup found).1
        · exact fun i a found => Nat.lt_succ_of_le (h.1.bounded i a found).1
        · simp only
          split <;> decide

theorem restartNow_settled {s : State} (h : Ready s) (env : Surroundings)
    (running : s.disposed = false) : Settled (s.restartNow env) := by
  unfold State.restartNow
  split
  · rename_i disposed
    simp [running] at disposed
  · split
    · exact markOffline_settled h env
    · obtain ⟨idle, -⟩ := abandon_idle h env 4000 "client retry"
      refine connect_settled ?_ ?_ env running
      · exact idle.ready
      · exact idle.socket

theorem outdated_false {s : State} {generation : Nat} (h : ¬ s.outdated generation = true) :
    s.disposed = false ∧ generation = s.generation := by
  simpa [State.outdated] using h

theorem outdated_true {s : State} {generation : Nat} (h : s.outdated generation = true)
    (running : s.disposed = false) : generation ≠ s.generation := by
  simpa [State.outdated, running] using h

theorem live_some {s : State} {i : Nat} {a : Socket} (h : s.live i = some a) :
    s.sockets.lookup i = some a ∧ a.ended = false := by
  simpa [State.live, Option.filter_eq_some_iff] using h

section Listeners

variable {s : State} {i : Nat} {a : Socket}

/-- The socket whose listener passes the guard is the one the effect holds. -/
theorem listener_current (h : Settled s) (found : s.live i = some a)
    (guard : ¬ s.outdated a.generation = true) : s.socket = some i ∧ Only s .socket := by
  obtain ⟨present, open_⟩ := live_some found
  obtain ⟨running, same⟩ := outdated_false guard
  have own : s.socket = some i := (h.ready.1.current running i).mpr ⟨a, present, same, open_⟩
  obtain ⟨k, only⟩ := h.only running
  have socket : k = .socket := ((only .socket).mp (by simp [Holds, own])).symm
  exact ⟨own, socket ▸ only⟩

theorem onOpen_settled (h : Settled s) (found : s.live i = some a) :
    Settled (s.onOpen i a.generation) := by
  unfold State.onOpen
  split
  · split <;> exact ⟨h.ready, h.signals, h.only⟩
  · rename_i guard
    obtain ⟨own, only⟩ := listener_current h found guard
    have stopped : Ready s.clearConnectWatchdog := ready_clearConnectWatchdog h.ready
    have noRetry := only_noRetry only (by decide)
    have noProbe := only_noProbe only (by decide)
    refine ⟨stopped, h.signals, fun _ => ⟨.socket, ?_⟩⟩
    refine only_socket own ?_ noProbe (by simp) (by simp)
    exact fun id present => noRetry id (clearTimeout_lookup present).1

theorem setError_settled (h : Settled s) (text : List Nat) : Settled (s.setError text) :=
  ⟨h.ready, h.signals, h.only⟩

theorem setError_idle (h : Idle s) (text : List Nat) : Idle (s.setError text) :=
  ⟨h.ready, h.signals, h.socket, h.probe⟩

theorem onSnapshot_settled (h : Settled s) (only : Only s .socket) (env : Surroundings)
    (message : RadarProtocol.Value) : Settled (s.onSnapshot env i message) := by
  refine ⟨?_, ?_, fun _ => ⟨.socket, ?_⟩⟩
  · refine refreshStaleness_ready ?_ env
    exact h.ready
  · refine refreshStaleness_signals ?_ env
    exact h.signals
  · refine refreshStaleness_only ?_ (by decide) env
    exact only

theorem onMessage_settled (h : Settled s) (found : s.live i = some a) (env : Surroundings)
    (data : MessageData) : Settled (s.onMessage env i a.generation data) := by
  unfold State.onMessage
  split
  · exact h
  · rename_i guard
    cases data with
    | binary => exact setError_settled h _
    | text raw =>
      simp only
      split
      · exact setError_settled h _
      · exact setError_settled h _
      · exact h
      · exact onSnapshot_settled h (listener_current h found guard).2 env _

/-- The close event ends a socket; if it is the effect's own, the effect lets go of it. -/
theorem socketsOk_end {sockets : Table Nat Socket} {next generation : Nat}
    {socket socket' : Option Nat} {disposed : Bool}
    (h : SocketsOk sockets next generation socket disposed) (found : sockets.lookup i = some a)
    (left : disposed = false → ∀ j, socket' = some j ↔ socket = some j ∧ j ≠ i) :
    SocketsOk (sockets.insert i { a with ended := true }) next generation socket' disposed := by
  have old : ∀ j b, (sockets.insert i { a with ended := true }).lookup j = some b →
      ∃ c, sockets.lookup j = some c ∧ c.generation = b.generation ∧
        (b.ended = false → j ≠ i ∧ b = c) := by
    intro j b present
    rcases lookup_insert_some present with ⟨rfl, rfl⟩ | ⟨e, before⟩
    · exact ⟨a, found, rfl, fun wrong => by cases wrong⟩
    · exact ⟨b, before, rfl, fun _ => ⟨e, rfl⟩⟩
  constructor
  case bounded =>
    intro j b present
    obtain ⟨c, known, same, -⟩ := old j b present
    rw [← same]
    exact h.bounded j c known
  case distinct =>
    intro j l b c first second same
    obtain ⟨b', known, sameB, -⟩ := old j b first
    obtain ⟨c', known', sameC, -⟩ := old l c second
    exact h.distinct j l b' c' known known' (sameB.trans (same.trans sameC.symm))
  case current =>
    intro running j
    rw [left running j, h.current running j]
    constructor
    · rintro ⟨⟨b, present, same, open_⟩, other⟩
      exact ⟨b, by rw [lookup_insert_of_ne other, present], same, open_⟩
    · rintro ⟨b, present, same, open_⟩
      obtain ⟨c, known, -, kept⟩ := old j b present
      obtain ⟨other, rfl⟩ := kept open_
      exact ⟨⟨b, known, same, open_⟩, other⟩

theorem ended_kept (found : s.sockets.lookup i = some a) :
    ∀ j b, s.sockets.lookup j = some b →
      ∃ c, (s.sockets.insert i { a with ended := true }).lookup j = some c ∧
        c.generation = b.generation := by
  intro j b present
  by_cases e : j = i
  · subst j
    rw [found, Option.some.injEq] at present
    subst b
    exact ⟨_, lookup_insert_self _ _ _, rfl⟩
  · exact ⟨b, by rw [lookup_insert_of_ne e, present], rfl⟩

theorem startProbe_settled (h : Idle s) (noRetry : NoRetry s) :
    Settled (s.startProbe s.generation) := by
  have probes : ProbesOk (s.probes.insert s.nextProbe ⟨s.generation, false⟩) (s.nextProbe + 1)
      s.generation := by
    constructor
    case fresh =>
      intro id probe found
      rcases lookup_insert_some found with ⟨rfl, -⟩ | ⟨-, old⟩
      · exact Nat.lt_succ_self _
      · exact Nat.lt_succ_of_lt (h.ready.2.2.fresh id probe old)
    case bounded =>
      intro id probe found
      rcases lookup_insert_some found with ⟨-, rfl⟩ | ⟨-, old⟩
      · exact le_rfl
      · exact h.ready.2.2.bounded id probe old
  have signals : SignalsOk (s.probes.insert s.nextProbe ⟨s.generation, false⟩) s.generation
      (some s.nextProbe) s.disposed := by
    constructor
    case current =>
      intro id probe found same
      rcases lookup_insert_some found with ⟨rfl, -⟩ | ⟨-, old⟩
      · rfl
      · exact absurd same (h.probe id probe old)
    case aborted =>
      intro id probe found aborted
      rcases lookup_insert_some found with ⟨-, rfl⟩ | ⟨-, old⟩
      · cases aborted
      · exact h.signals.aborted id probe old aborted
  refine ⟨⟨h.ready.1, h.ready.2.1, probes⟩, signals, fun _ => ⟨.probe, ?_⟩⟩
  exact only_probe (lookup_insert_self _ _ _) rfl h.socket noRetry rfl

theorem recover_settled (h : Idle s) (noRetry : NoRetry s) {generation : Nat}
    (current : generation = s.generation) (mode : Mode) (env : Surroundings) (code : Nat) :
    Settled (s.recover mode env generation code) := by
  subst current
  unfold State.recover
  split
  · exact markOffline_settled h.ready env
  · split
    · exact startProbe_settled h noRetry
    · exact scheduleReconnect_settled h env false

theorem endSocket_settled (h : Settled s) (found : s.sockets.lookup i = some a)
    (other : s.socket ≠ some i) : Settled (s.endSocket i a) := by
  refine ⟨⟨?_, timersOk_sockets h.ready.2.1 (ended_kept found), h.ready.2.2⟩, h.signals, h.only⟩
  refine socketsOk_end h.ready.1 found fun _ j => ⟨fun own => ⟨own, ?_⟩, And.left⟩
  rintro rfl
  exact other own

/-- The effect lets go of its own socket when that has ended. -/
theorem release_idle (h : Settled s) (found : s.sockets.lookup i = some a) (own : s.socket = some i)
    (only : Only s .socket) :
    Idle (s.endSocket i a).release ∧ NoRetry (s.endSocket i a).release := by
  have stopped := ready_clearTimeout h.ready s.connectWatchdogTimer
  have noProbe := only_noProbe only (by decide)
  have noRetry := only_noRetry only (by decide)
  refine ⟨⟨⟨?_, ?_, h.ready.2.2⟩, h.signals, rfl, noProbe⟩, ?_⟩
  · refine socketsOk_end h.ready.1 found fun _ j => ?_
    constructor
    · intro wrong
      cases wrong
    · rintro ⟨held, other⟩
      rw [own, Option.some.injEq] at held
      exact absurd held.symm other
  · exact timersOk_sockets stopped.2.1 (ended_kept found)
  · intro id listed
    have kept : s.timers.lookup id = some .reconnect := (clearTimeout_lookup listed).1
    exact noRetry id kept

theorem onClose_settled (h : Settled s) (found : s.live i = some a) (mode : Mode)
    (env : Surroundings) (code : Nat) (reason : List Nat) :
    Settled ((s.endSocket i a).onClose mode env a.generation code reason) := by
  obtain ⟨present, open_⟩ := live_some found
  unfold State.onClose
  split
  · rename_i guard
    have outdated : s.outdated a.generation = true := guard
    cases disposed : s.disposed with
    | true =>
      have timers := timersOk_sockets h.ready.2.1 (ended_kept present)
      refine ⟨⟨?_, timers, h.ready.2.2⟩, h.signals, h.only⟩
      exact socketsOk_end h.ready.1 present fun running =>
        absurd (disposed.symm.trans running) (by decide)
    | false =>
      refine endSocket_settled h present ?_
      intro own
      obtain ⟨b, listed, same, -⟩ := (h.ready.1.current disposed i).mp own
      rw [present, Option.some.injEq] at listed
      subst b
      exact outdated_true outdated disposed same
  · rename_i guard
    have fresh : ¬ s.outdated a.generation = true := guard
    obtain ⟨own, only⟩ := listener_current h found fresh
    obtain ⟨idle, noRetry⟩ := release_idle h present own only
    have same : a.generation = (s.endSocket i a).release.generation := (outdated_false fresh).2
    simp only
    split
    · exact rejectSession_settled idle noRetry
    · exact recover_settled (setError_idle idle _) noRetry same mode env code

theorem onError_settled (h : Settled s) (mode : Mode) (generation : Nat) :
    Settled (s.onError mode generation) := by
  unfold State.onError
  split
  · exact h
  · exact setError_settled h _

end Listeners

/- Timers and probes, once they are out of the browser's books. -/
section Callbacks

variable {s : State} {id : Nat}

theorem ready_eraseTimer (h : Ready s) : Ready (s.dropTimer id) :=
  ⟨h.1, timersOk_erase h.2.1 id, h.2.2⟩

theorem ready_eraseProbe (h : Ready s) : Ready (s.dropProbe id) :=
  ⟨h.1, h.2.1, ⟨fun other probe found => h.2.2.fresh other probe (lookup_erase_some found).2,
    fun other probe found => h.2.2.bounded other probe (lookup_erase_some found).2⟩⟩

theorem signals_eraseProbe (h : Signals s) : Signals (s.dropProbe id) :=
  ⟨fun other probe found => h.current other probe (lookup_erase_some found).2,
    fun other probe found => h.aborted other probe (lookup_erase_some found).2⟩

theorem only_eraseTimer {k : Situation} (h : Only s k)
    (kind : s.timers.lookup id ≠ some .reconnect) :
    Only (s.dropTimer id) k := by
  intro j
  rw [← h j]
  cases j with
  | retry =>
    constructor
    · rintro ⟨other, found⟩
      exact ⟨other, (lookup_erase_some found).2⟩
    · rintro ⟨other, found⟩
      have different : other ≠ id := by
        rintro rfl
        exact kind found
      exact ⟨other, (lookup_erase_of_ne different).trans found⟩
  | socket | probe | offline | rejected => exact Iff.rfl

theorem only_eraseProbe {k : Situation} {probe : Probe} (h : Only s k)
    (found : s.probes.lookup id = some probe) (old : probe.generation ≠ s.generation) :
    Only (s.dropProbe id) k := by
  intro j
  rw [← h j]
  cases j with
  | probe =>
    constructor
    · rintro ⟨other, present, listed, same⟩
      exact ⟨other, present, (lookup_erase_some listed).2, same⟩
    · rintro ⟨other, present, listed, same⟩
      have different : other ≠ id := by
        rintro rfl
        rw [found, Option.some.injEq] at listed
        exact old (listed ▸ same)
      exact ⟨other, present, (lookup_erase_of_ne different).trans listed, same⟩
  | socket | retry | offline | rejected => exact Iff.rfl

theorem connect_disposed {env : Surroundings} (disposed : s.disposed = true) :
    s.connect env = s := by
  simp [State.connect, disposed]

theorem onWatchdog_settled (h : Settled s) {candidate generation : Nat}
    (found : s.timers.lookup id = some (.watchdog candidate generation)) (env : Surroundings) :
    Settled ((s.dropTimer id).onWatchdog env candidate generation) := by
  unfold State.onWatchdog
  split
  · refine ⟨ready_eraseTimer h.ready, h.signals, fun running => ?_⟩
    obtain ⟨k, only⟩ := h.only running
    exact ⟨k, only_eraseTimer only (by simp [found])⟩
  · rename_i guard
    simp only [not_or] at guard
    obtain ⟨running, current⟩ := outdated_false guard.1
    have same : generation = s.generation := current
    have left : (if s.socket = some candidate then none else s.socket) = none := by
      split
      · rfl
      · rename_i other
        cases own : s.socket with
        | none => rfl
        | some i =>
          obtain ⟨a, present, sameA, -⟩ := (h.ready.1.current running i).mp own
          obtain ⟨b, watched, sameB⟩ := h.ready.2.1.watched id candidate generation found
          have one : i = candidate :=
            h.ready.1.distinct i candidate a b present watched (by rw [sameA, sameB, same])
          exact absurd (one ▸ own) other
    have erased : Ready (s.dropTimer id) := ready_eraseTimer h.ready
    refine scheduleReconnect_settled ⟨?_, ?_, left, ?_⟩ env false
    · exact ready_supersede erased left
    · exact signals_supersede erased s.sessionProbeController s.disposed
    · exact noProbe_supersede erased

theorem onTimer_settled (h : Settled s) {timer : Timer} (found : s.timers.lookup id = some timer)
    (env : Surroundings) : Settled ((s.dropTimer id).onTimer env timer) := by
  have erased : Ready (s.dropTimer id) := ready_eraseTimer h.ready
  cases timer with
  | reconnect =>
    cases disposed : s.disposed with
    | true =>
      have same : (s.dropTimer id).connect env = s.dropTimer id := connect_disposed disposed
      simp only [State.onTimer, same]
      exact disposed_settled erased h.signals disposed
    | false =>
      obtain ⟨k, only⟩ := h.only disposed
      have retry : k = .retry := ((only .retry).mp ⟨id, found⟩).symm
      subst k
      have none_ := only_socket_none only (by decide)
      exact connect_settled erased none_ env disposed
  | watchdog candidate generation => exact onWatchdog_settled h found env
  | stale =>
    refine ⟨erased, h.signals, fun running => ?_⟩
    obtain ⟨k, only⟩ := h.only running
    exact ⟨k, only_eraseTimer only (by simp [found])⟩

theorem abort_source {result : FetchResult} (h : probeRelaySession result = .error .abort) :
    result = .aborted := by
  cases result with
  | aborted => rfl
  | timedOut | failed => simp [probeRelaySession] at h
  | response status readable =>
    simp only [probeRelaySession] at h
    split_ifs at h
    all_goals simp at h

theorem onProbe_settled (h : Settled s) {probe : Probe} (found : s.probes.lookup id = some probe)
    {result : FetchResult} (source : ¬ (result = .aborted ∧ probe.aborted = false))
    (env : Surroundings) :
    Settled ((s.dropProbe id).onProbe env probe.generation result) := by
  have erased : Ready (s.dropProbe id) := ready_eraseProbe h.ready
  have signals : Signals (s.dropProbe id) := signals_eraseProbe h.signals
  unfold State.onProbe
  split
  · rename_i guard
    refine ⟨erased, signals, fun running => ?_⟩
    obtain ⟨k, only⟩ := h.only running
    exact ⟨k, only_eraseProbe only found (outdated_true guard running)⟩
  · rename_i guard
    obtain ⟨running, current⟩ := outdated_false guard
    have same : probe.generation = s.generation := current
    obtain ⟨k, only⟩ := h.only running
    have probing : k = .probe := ((only .probe).mp ⟨id, probe, found, same⟩).symm
    subst k
    have noProbe : NoProbe (s.dropProbe id) := by
      intro other present listed equal
      obtain ⟨different, kept⟩ := lookup_erase_some listed
      have one := h.signals.current other present kept equal
      have two := h.signals.current id probe found same
      rw [one, Option.some.injEq] at two
      exact different two
    have none_ := only_socket_none only (by decide)
    have idle : Idle (s.dropProbe id) := ⟨erased, signals, none_, noProbe⟩
    have noRetry : NoRetry s := only_noRetry only (by decide)
    split
    · exact scheduleReconnect_settled idle env false
    · exact rejectSession_settled idle noRetry
    · rename_i rejected
      have aborted := abort_source rejected
      have signal : probe.aborted = true := by simpa [aborted] using source
      rcases h.signals.aborted id probe found signal with disposed | older
      · exact disposed_settled erased signals disposed
      · exact absurd same (Nat.ne_of_lt older)
    · exact scheduleReconnect_settled idle env false

end Callbacks

theorem handleResume_settled {s : State} (h : Settled s) (env : Surroundings)
    (running : s.disposed = false) : Settled (s.handleResume env) := by
  have ready := refreshStaleness_ready h.ready env
  obtain ⟨socket, disposed, -⟩ := refreshStaleness_keeps s env
  have again := restartNow_settled ready env (disposed.trans running)
  unfold State.handleResume
  split
  · exact h
  · simp only
    split
    · exact markOffline_settled ready env
    · split
      · exact again
      · rename_i i own
        have held : s.socket = some i := socket.symm.trans own
        obtain ⟨k, only⟩ := h.only running
        have connected : k = .socket := ((only .socket).mp (by simp [Holds, held])).symm
        subst k
        have quiet : Settled (s.refreshStaleness env) :=
          ⟨ready, refreshStaleness_signals h.signals env, fun _ =>
            ⟨.socket, refreshStaleness_only only (by decide) env⟩⟩
        split_ifs
        all_goals first | exact again | exact quiet

theorem cleanup_settled {s : State} (h : Settled s) (env : Surroundings) :
    Settled (s.cleanup env) := by
  have gone : Ready { s with disposed := true, generation := s.generation + 1 } := by
    refine ⟨⟨fun i a found => ?_, h.ready.1.distinct, fun running => by cases running⟩, h.ready.2.1,
      ⟨h.ready.2.2.fresh, fun id probe found => ?_⟩⟩
    · obtain ⟨bound, known⟩ := h.ready.1.bounded i a found
      exact ⟨Nat.le_succ_of_le bound, known⟩
    · exact Nat.le_succ_of_le (h.ready.2.2.bounded id probe found)
  have cleared := (ready_clearReconnect (ready_abortProbe gone) false).1
  have stopped := ready_clearTimeout (ready_clearConnectWatchdog cleared) s.staleTimer
  refine ⟨stopped, ?_, fun running => by cases running⟩
  exact signals_supersede (ready_abortProbe h.ready) s.sessionProbeController true

/-- A new closure holds nothing yet. -/
theorem newClosure_ready (old : State) : Ready old.newClosure := by
  have sockets : SocketsOk empty 0 0 none false := by
    constructor
    case bounded => exact fun i a found => by cases found
    case distinct => exact fun i j a b found => by cases found
    case current =>
      intro _ i
      constructor
      · exact fun wrong => by cases wrong
      · rintro ⟨a, found, -⟩
        cases found
  have timers : TimersOk empty 0 none empty := by
    constructor
    case fresh => exact fun id timer found => by cases found
    case tracked => exact fun id found => by cases found
    case watched => exact fun id i generation found => by cases found
  have probes : ProbesOk empty 0 0 := by
    constructor
    case fresh => exact fun id probe found => by cases found
    case bounded => exact fun id probe found => by cases found
  exact ⟨sockets, timers, probes⟩

theorem mount_settled (old : State) (env : Surroundings) : Settled (mount old env) := by
  have ready := newClosure_ready old
  obtain ⟨socket, disposed, -⟩ := refreshStaleness_keeps old.newClosure env
  exact connect_settled (refreshStaleness_ready ready env) socket env disposed

theorem step_settled {mode : Mode} {s t : State} {event : Event} {env : Surroundings}
    (h : Settled s) (taken : step mode s event env = some t) : Settled t := by
  cases event with
  | socketOpen i =>
    obtain ⟨a, found, rfl⟩ := Option.map_eq_some_iff.mp taken
    exact onOpen_settled h found
  | socketMessage i data =>
    obtain ⟨a, found, rfl⟩ := Option.map_eq_some_iff.mp taken
    exact onMessage_settled h found env data
  | socketClose i code reason =>
    obtain ⟨a, found, rfl⟩ := Option.map_eq_some_iff.mp taken
    exact onClose_settled h found mode env code reason
  | socketError i =>
    obtain ⟨a, found, rfl⟩ := Option.map_eq_some_iff.mp taken
    exact onError_settled h mode a.generation
  | timer id =>
    obtain ⟨timer, found, rfl⟩ := Option.map_eq_some_iff.mp taken
    exact onTimer_settled h found env
  | probe id result =>
    obtain ⟨probe, found, settled⟩ := Option.bind_eq_some_iff.mp taken
    split at settled
    · cases settled
    · rename_i source
      cases settled
      exact onProbe_settled h found source env
  | online | offline | resume | dispose =>
    simp only [step] at taken
    split at taken
    · cases taken
    · rename_i active
      have running : s.disposed = false := by simpa using active
      cases taken
      first
        | exact restartNow_settled h.ready env running
        | exact markOffline_settled h.ready env
        | exact handleResume_settled h env running
        | exact cleanup_settled h env

theorem reachable_settled {mode : Mode} {s : State} (h : (stream mode).Reachable s) :
    Settled s := by
  refine reachable_invariant (stream mode) ⟨?_, fun s a t settled taken => ?_⟩ h
  · rintro s ⟨old, env, rfl⟩
    exact mount_settled old env
  · exact step_settled settled taken

/- Only the handler of a snapshot calls `setFrame`. -/
section Frames

variable (s : State) (env : Surroundings)

theorem markOffline_setFrames : (s.markOffline env).setFrames = s.setFrames :=
  (refreshStaleness_keeps _ env).2.2

theorem scheduleReconnect_setFrames (immediate : Bool) :
    (s.scheduleReconnect env immediate).setFrames = s.setFrames := by
  unfold State.scheduleReconnect
  split
  · rfl
  · split
    · exact markOffline_setFrames s env
    · rfl

theorem rejectSession_setFrames : s.rejectSession.setFrames = s.setFrames := by
  unfold State.rejectSession
  split <;> rfl

theorem connect_setFrames : (s.connect env).setFrames = s.setFrames := by
  unfold State.connect
  split
  · rfl
  · simp only
    split
    · exact markOffline_setFrames _ env
    · split
      · exact scheduleReconnect_setFrames _ env false
      · rfl

theorem restartNow_setFrames : (s.restartNow env).setFrames = s.setFrames := by
  unfold State.restartNow
  split
  · rfl
  · split
    · exact markOffline_setFrames s env
    · exact connect_setFrames _ env

theorem onOpen_setFrames (i generation : Nat) :
    (s.onOpen i generation).setFrames = s.setFrames := by
  unfold State.onOpen
  split
  · split <;> rfl
  · rfl

theorem recover_setFrames (mode : Mode) (generation code : Nat) :
    (s.recover mode env generation code).setFrames = s.setFrames := by
  unfold State.recover
  split
  · exact markOffline_setFrames s env
  · split
    · rfl
    · exact scheduleReconnect_setFrames s env false

theorem onClose_setFrames (mode : Mode) (generation code : Nat) (reason : List Nat) :
    (s.onClose mode env generation code reason).setFrames = s.setFrames := by
  unfold State.onClose
  split
  · rfl
  · simp only
    split
    · exact rejectSession_setFrames s.release
    · exact recover_setFrames _ env mode generation code

theorem onError_setFrames (mode : Mode) (generation : Nat) :
    (s.onError mode generation).setFrames = s.setFrames := by
  unfold State.onError
  split <;> rfl

theorem onTimer_setFrames (timer : Timer) : (s.onTimer env timer).setFrames = s.setFrames := by
  cases timer with
  | reconnect => exact connect_setFrames s env
  | watchdog candidate generation =>
    unfold State.onTimer State.onWatchdog
    simp only
    split
    · rfl
    · exact scheduleReconnect_setFrames _ env false
  | stale => rfl

theorem onProbe_setFrames (generation : Nat) (result : FetchResult) :
    (s.onProbe env generation result).setFrames = s.setFrames := by
  unfold State.onProbe
  split
  · rfl
  · split
    · exact scheduleReconnect_setFrames s env false
    · exact rejectSession_setFrames s
    · rfl
    · exact scheduleReconnect_setFrames s env false

theorem handleResume_setFrames : (s.handleResume env).setFrames = s.setFrames := by
  have first := (refreshStaleness_keeps s env).2.2
  have again := (restartNow_setFrames (s.refreshStaleness env) env).trans first
  unfold State.handleResume
  split
  · rfl
  · simp only
    split
    · exact (markOffline_setFrames _ env).trans first
    · split
      · exact again
      · split_ifs
        all_goals first | exact again | exact first

theorem onMessage_setFrames (i generation : Nat) (data : MessageData) :
    (s.onMessage env i generation data).setFrames = s.setFrames ∨
      ¬ s.outdated generation = true ∧
        ∃ frame, (s.onMessage env i generation data).setFrames = s.setFrames ++ [(i, frame)] := by
  unfold State.onMessage
  split
  · exact Or.inl rfl
  · rename_i guard
    cases data with
    | binary => exact Or.inl rfl
    | text raw =>
      simp only
      split
      · exact Or.inl rfl
      · exact Or.inl rfl
      · exact Or.inl rfl
      · exact Or.inr ⟨guard, _, (refreshStaleness_keeps _ env).2.2⟩

end Frames

/-- The five guarantees in one state. -/
structure Guarantees (mode : Mode) (s : State) : Prop where
  one_current : ∀ i j a b, s.sockets.lookup i = some a → s.sockets.lookup j = some b →
    a.generation = s.generation → b.generation = s.generation → i = j
  frames : ∀ event env t, step mode s event env = some t → t.setFrames = s.setFrames ∨
    ∃ i data frame, event = .socketMessage i data ∧ t.setFrames = s.setFrames ++ [(i, frame)] ∧
      s.socket = some i ∧ s.disposed = false
  late_open : ∀ i env t, s.disposed = true ∨ s.socket ≠ some i →
    step mode s (.socketOpen i) env = some t →
      t = if s.disposed then s.closeSocket i 1000 "page closed"
        else s.closeSocket i 4000 "superseded connection"
  one_retry : ∀ id id', s.timers.lookup id = some .reconnect →
    s.timers.lookup id' = some .reconnect → id = id'
  one_situation : s.disposed = false → ∃! k, Holds s k

theorem frames_step {mode : Mode} {s t : State} {event : Event} {env : Surroundings}
    (h : Settled s) (taken : step mode s event env = some t) :
    t.setFrames = s.setFrames ∨
      ∃ i data frame, event = .socketMessage i data ∧ t.setFrames = s.setFrames ++ [(i, frame)] ∧
        s.socket = some i ∧ s.disposed = false := by
  cases event with
  | socketOpen i =>
    obtain ⟨a, found, rfl⟩ := Option.map_eq_some_iff.mp taken
    exact Or.inl (onOpen_setFrames s i a.generation)
  | socketMessage i data =>
    obtain ⟨a, found, rfl⟩ := Option.map_eq_some_iff.mp taken
    rcases onMessage_setFrames s env i a.generation data with same | ⟨guard, frame, set⟩
    · exact Or.inl same
    · exact Or.inr ⟨i, data, frame, rfl, set, (listener_current h found guard).1,
        (outdated_false guard).1⟩
  | socketClose i code reason =>
    obtain ⟨a, found, rfl⟩ := Option.map_eq_some_iff.mp taken
    exact Or.inl (onClose_setFrames (s.endSocket i a) env mode a.generation code reason)
  | socketError i =>
    obtain ⟨a, found, rfl⟩ := Option.map_eq_some_iff.mp taken
    exact Or.inl (onError_setFrames s mode a.generation)
  | timer id =>
    obtain ⟨timer, found, rfl⟩ := Option.map_eq_some_iff.mp taken
    exact Or.inl (onTimer_setFrames (s.dropTimer id) env timer)
  | probe id result =>
    obtain ⟨probe, found, settled⟩ := Option.bind_eq_some_iff.mp taken
    split at settled
    · cases settled
    · cases settled
      exact Or.inl (onProbe_setFrames (s.dropProbe id) env probe.generation result)
  | online | offline | resume | dispose =>
    simp only [step] at taken
    split at taken
    · cases taken
    · cases taken
      first
        | exact Or.inl (restartNow_setFrames s env)
        | exact Or.inl (markOffline_setFrames s env)
        | exact Or.inl (handleResume_setFrames s env)
        | exact Or.inl rfl

/-- For every order of events from mount on. -/
theorem reconnect_machine (mode : Mode) (s : State) (reached : (stream mode).Reachable s) :
    Guarantees mode s := by
  have h := reachable_settled reached
  constructor
  case one_current =>
    intro i j a b first second left right
    exact h.ready.1.distinct i j a b first second (left.trans right.symm)
  case frames => exact fun event env t taken => frames_step h taken
  case late_open =>
    intro i env t late taken
    obtain ⟨a, found, rfl⟩ := Option.map_eq_some_iff.mp taken
    have guard : s.outdated a.generation = true := by
      by_contra fresh
      rcases late with disposed | other
      · exact absurd (disposed.symm.trans (outdated_false fresh).1) (by decide)
      · exact other (listener_current h found fresh).1
    simp only [State.onOpen, if_pos guard]
  case one_retry =>
    intro id id' first second
    have same := (h.ready.2.1.tracked id first).symm.trans (h.ready.2.1.tracked id' second)
    exact Option.some.inj same
  case one_situation =>
    intro running
    obtain ⟨k, only⟩ := h.only running
    exact ⟨k, (only k).mpr rfl, fun j held => (only j).mp held⟩

def calm : Surroundings where
  isOffline _ := false
  now _ := 0
  performanceNow := 0
  random := 0
  readyState _ := .connecting
  constructorThrows := false
  hidden := false

/-- The React state before the first run. -/
def firstRender : State where
  disposed := false
  generation := 0
  socket := none
  connectionStartedAtMs := none
  reconnectTimer := none
  connectWatchdogTimer := none
  staleTimer := none
  sessionProbeController := none
  attempt := 0
  lastReceivedAt := none
  status := .connecting
  stale := true
  error := none
  retryInMs := none
  sessionRejections := 0
  setFrames := []
  sockets := empty
  nextSocket := 0
  timers := empty
  nextTimer := 0
  probes := empty
  nextProbe := 0
  closeCalls := []

/-- A refused upgrade, then the probe of the session. -/
theorem reconnect_machine_probing : ∃ s, Guarantees .relay s ∧ s.status = .reconnecting ∧
    s.sessionProbeController = some 0 := by
  have start : (stream .relay).Reachable (mount firstRender calm) :=
    reachable_start _ ⟨firstRender, calm, rfl⟩
  have closed : (stream .relay).step (mount firstRender calm) (.socketClose 0 1006 [], calm) =
      some _ := rfl
  exact ⟨_, reconnect_machine .relay _ (reachable_step _ start closed), rfl, rfl⟩

end RadarReconnect
