import Mathlib
import GameSecurity.Runs
import GameSecurity.FiniteTable
import GameSecurity.RadarProtocol

/- The effect of `useRadarStream`: the variables of its closure, the React state it sets and
   what it leaves with the browser. A handler runs to its end before the next event. What a
   handler reads of the outside, it finds in the event's surroundings. -/
namespace RadarStream
open Runs FiniteTable JsonText RelayProtocol RadarProtocol

inductive Mode
  | relay | embedded
  deriving DecidableEq, Repr

inductive StreamStatus
  | connecting | connected | reconnecting | offline | disconnected
  deriving DecidableEq, Repr

inductive ReadyState
  | connecting | open_ | closing | closed
  deriving DecidableEq, Repr

/-- A socket as its listeners see it: the generation they captured, and whether its close
   event, the last one of a socket, has been delivered. -/
structure Socket where
  generation : Nat
  ended : Bool
  deriving DecidableEq, Repr

inductive Timer
  | reconnect
  | watchdog (candidate generation : Nat)
  | stale
  deriving DecidableEq, Repr

/-- A session probe in flight, with the signal of its controller. -/
structure Probe where
  generation : Nat
  aborted : Bool
  deriving DecidableEq, Repr

structure RadarFrame where
  snapshot : Value
  receivedAtPerformanceMs : ℚ
  receivedAtWallMs : Int

structure CloseCall where
  target : Nat
  code : Nat
  reason : String
  deriving DecidableEq, Repr

structure State where
  disposed : Bool
  generation : Nat
  socket : Option Nat
  connectionStartedAtMs : Option Int
  reconnectTimer : Option Nat
  connectWatchdogTimer : Option Nat
  staleTimer : Option Nat
  sessionProbeController : Option Nat
  attempt : Nat
  lastReceivedAt : Option Int
  status : StreamStatus
  stale : Bool
  error : Option (List Nat)
  retryInMs : Option Int
  sessionRejections : Nat
  setFrames : List (Nat × RadarFrame)
  sockets : Table Nat Socket
  nextSocket : Nat
  timers : Table Nat Timer
  nextTimer : Nat
  probes : Table Nat Probe
  nextProbe : Nat
  closeCalls : List CloseCall

/-- The places where a handler asks whether the browser is offline. -/
inductive OnlineCheck
  | resume | restart | connect | schedule | close
  deriving DecidableEq, Repr

/-- The places where a handler reads the wall clock. -/
inductive ClockRead
  | staleness | started | received | handshake | silence
  deriving DecidableEq, Repr

structure Surroundings where
  isOffline : OnlineCheck → Bool
  now : ClockRead → Int
  performanceNow : ℚ
  random : ℚ
  readyState : Nat → ReadyState
  constructorThrows : Bool
  hidden : Bool

def reconnectDelayMs (attempt : Nat) (jitter : ℚ) : Int :=
  let base : Nat := min 10000 (500 * 2 ^ attempt)
  let normalizedJitter := min 1 (max 0 jitter)
  ((base : ℚ) * (4 / 5 + normalizedJitter * (2 / 5)) + 1 / 2).floor

def isSessionRejectedCloseCode (code : Nat) : Bool := decide (code = 4401) || decide (code = 4403)

def shouldProbeSessionAfterClose (mode : Mode) (code : Nat) : Bool :=
  decide (mode = .relay) && decide (code = 1006)

def State.setError (s : State) (text : List Nat) : State := { s with error := some text }

def State.clearTimeout (s : State) (id : Option Nat) : State :=
  { s with timers := match id with
    | some id => s.timers.erase id
    | none => s.timers }

/- `window.setTimeout`; the new timer's id is the old `nextTimer`. -/
def State.setTimeout (s : State) (timer : Timer) : State :=
  { s with timers := s.timers.insert s.nextTimer timer, nextTimer := s.nextTimer + 1 }

def State.closeSocket (s : State) (target code : Nat) (reason : String) : State :=
  { s with closeCalls := s.closeCalls ++ [⟨target, code, reason⟩] }

/-- Closing a socket, if there is one that has not been closed yet. -/
def State.closeLive (s : State) (env : Surroundings) (target : Option Nat) (code : Nat)
    (reason : String) : State :=
  { s with closeCalls := match target with
    | some previous =>
      if env.readyState previous = .open_ ∨ env.readyState previous = .connecting then
        s.closeCalls ++ [⟨previous, code, reason⟩]
      else s.closeCalls
    | none => s.closeCalls }

def State.clearReconnect (s : State) (updateState : Bool) : State :=
  { s.clearTimeout s.reconnectTimer with
    reconnectTimer := none
    retryInMs := if updateState then none else s.retryInMs }

def State.clearConnectWatchdog (s : State) : State :=
  { s.clearTimeout s.connectWatchdogTimer with connectWatchdogTimer := none }

/- `sessionProbeController?.abort()`; a probe that has settled is not there to be told. -/
def State.abortProbe (s : State) : State :=
  { s with probes := match s.sessionProbeController with
    | none => s.probes
    | some controller =>
      match s.probes.lookup controller with
      | none => s.probes
      | some probe => s.probes.insert controller { probe with aborted := true } }

def State.refreshStaleness (s : State) (env : Surroundings) : State :=
  let s := { s.clearTimeout s.staleTimer with staleTimer := none }
  match s.lastReceivedAt with
  | none => { s with stale := true }
  | some lastReceivedAt =>
    let remaining := 3000 - (env.now .staleness - lastReceivedAt)
    if remaining ≤ 0 then { s with stale := true }
    else { s.setTimeout .stale with stale := false, staleTimer := some s.nextTimer }

/-- How `markOffline` and `restartNow` both leave the connection. -/
def State.abandon (s : State) (env : Surroundings) (code : Nat) (reason : String) : State :=
  let s := (s.clearReconnect true).clearConnectWatchdog.abortProbe
  let previous := s.socket
  let s := { s with
    sessionProbeController := none
    generation := s.generation + 1
    socket := none
    connectionStartedAtMs := none }
  s.closeLive env previous code reason

def State.markOffline (s : State) (env : Surroundings) : State :=
  let s := s.abandon env 1000 "network offline"
  let s := { s.setError (codes "设备已离线；网络恢复后会自动重连") with status := .offline }
  s.refreshStaleness env

def State.scheduleReconnect (s : State) (env : Surroundings) (immediate : Bool) : State :=
  if s.disposed then s
  else if env.isOffline .schedule then s.markOffline env
  else
    let s := s.clearReconnect true
    let delay := if immediate then 0 else reconnectDelayMs s.attempt env.random
    let s := { s with
      status := .reconnecting
      attempt := if immediate then s.attempt else s.attempt + 1
      retryInMs := some delay }
    { s.setTimeout .reconnect with reconnectTimer := some s.nextTimer }

def State.rejectSession (s : State) : State :=
  if s.disposed then s
  else
    let s := { s.clearConnectWatchdog with status := .disconnected, retryInMs := none }
    { s.setError (codes "公网 Radar 会话已失效") with sessionRejections := s.sessionRejections + 1 }

/-- The part of `connect` after the constructor has returned. -/
def State.adopt (s : State) (env : Surroundings) : State :=
  let candidate := s.nextSocket
  let s := { s with
    sockets := s.sockets.insert candidate ⟨s.generation, false⟩
    nextSocket := candidate + 1
    socket := some candidate
    connectionStartedAtMs := some (env.now .started) }
  { s.setTimeout (.watchdog candidate s.generation) with connectWatchdogTimer := some s.nextTimer }

def State.connect (s : State) (env : Surroundings) : State :=
  if s.disposed then s
  else
    let s := s.clearReconnect true
    if env.isOffline .connect then s.markOffline env
    else
      let s := { s.abortProbe with sessionProbeController := none }
      let s := s.clearConnectWatchdog
      let s := { s with
        generation := s.generation + 1
        status := if s.attempt = 0 then .connecting else .reconnecting }
      if env.constructorThrows then
        (s.setError (codes "无法创建 Radar WebSocket 连接")).scheduleReconnect env false
      else s.adopt env

def State.restartNow (s : State) (env : Surroundings) : State :=
  if s.disposed then s
  else if env.isOffline .restart then s.markOffline env
  else
    let s := { s.abandon env 4000 "client retry" with attempt := 0 }
    s.connect env

/-- The guard of every listener and callback. -/
def State.outdated (s : State) (generation : Nat) : Bool :=
  s.disposed || decide (generation ≠ s.generation)

def State.onOpen (s : State) (candidate generation : Nat) : State :=
  if s.outdated generation then
    if s.disposed then s.closeSocket candidate 1000 "page closed"
    else s.closeSocket candidate 4000 "superseded connection"
  else
    { s.clearConnectWatchdog with
      connectionStartedAtMs := none
      status := .connected
      retryInMs := none
      error := none }

inductive MessageData
  | text (raw : Text)
  | binary

def jsString : Value → List Nat
  | some (.string text) => text
  | _ => []

def State.onSnapshot (s : State) (env : Surroundings) (candidate : Nat) (message : Value) : State :=
  let receivedAtWallMs := env.now .received
  let s := { s with
    lastReceivedAt := some receivedAtWallMs
    attempt := 0
    setFrames := s.setFrames ++
      [(candidate, RadarFrame.mk message env.performanceNow receivedAtWallMs)] }
  s.refreshStaleness env

def State.onMessage (s : State) (env : Surroundings) (candidate generation : Nat)
    (data : MessageData) : State :=
  if s.outdated generation then s
  else
    match data with
    | .binary => s.setError (codes "收到不支持的二进制数据帧")
    | .text raw =>
      match parseServerMessage raw with
      | none => s.setError (codes "收到无法识别的 v1 数据帧")
      | some (.error message) =>
        s.setError (jsString (property message (codes "code")) ++ codes ": " ++
          jsString (property message (codes "message")))
      | some (.hello _) => s
      | some (.snapshot message) => s.onSnapshot env candidate message

/-- The session is probed again: a browser hides the status of a refused upgrade. -/
def State.startProbe (s : State) (generation : Nat) : State :=
  { s with
    status := .reconnecting
    sessionProbeController := some s.nextProbe
    probes := s.probes.insert s.nextProbe ⟨generation, false⟩
    nextProbe := s.nextProbe + 1 }

def State.release (s : State) : State :=
  { s.clearConnectWatchdog with socket := none, connectionStartedAtMs := none }

/-- How the close handler goes on, unless the relay has rejected the session. -/
def State.recover (s : State) (mode : Mode) (env : Surroundings) (generation code : Nat) : State :=
  if env.isOffline .close then s.markOffline env
  else if shouldProbeSessionAfterClose mode code then s.startProbe generation
  else s.scheduleReconnect env false

def State.onClose (s : State) (mode : Mode) (env : Surroundings) (generation code : Nat)
    (reason : List Nat) : State :=
  if s.outdated generation then s
  else
    let s := s.release
    if mode = .relay ∧ isSessionRejectedCloseCode code then s.rejectSession
    else
      let interrupted := if mode = .relay then "公网 Radar 连接已中断" else "内嵌 Radar 连接已中断"
      let s := s.setError (if reason ≠ [] then reason else codes interrupted)
      s.recover mode env generation code

def State.onError (s : State) (mode : Mode) (generation : Nat) : State :=
  if s.outdated generation then s
  else s.setError
    (codes (if mode = .relay then "无法连接公网 Radar Relay" else "无法连接内嵌 Radar 服务"))

def State.onWatchdog (s : State) (env : Surroundings) (candidate generation : Nat) : State :=
  if s.outdated generation = true ∨ env.readyState candidate ≠ .connecting then s
  else
    let s := { s with
      connectWatchdogTimer := none
      generation := s.generation + 1
      socket := if s.socket = some candidate then none else s.socket
      connectionStartedAtMs := none }
    let s := (s.closeSocket candidate 4001 "connection timeout").setError (codes "Radar 实时连接超时")
    s.scheduleReconnect env false

def State.onTimer (s : State) (env : Surroundings) : Timer → State
  | .reconnect => s.connect env
  | .watchdog candidate generation => s.onWatchdog env candidate generation
  | .stale => { s with stale := true }

/-- How the fetch of a probe ends. A response says whether `readSession` accepts its body; an
   aborted fetch is one whose caller aborted it, a timeout is told apart. -/
inductive FetchResult
  | response (status : Nat) (readable : Bool)
  | aborted
  | timedOut
  | failed
  deriving DecidableEq, Repr

inductive SessionProbe
  | authenticated | unauthenticated | unavailable
  deriving DecidableEq, Repr

inductive ProbeError
  | abort
  | request (message : String) (status : Option Nat)
  | protocol (message : String)
  deriving DecidableEq, Repr

def probeRelaySession : FetchResult → Except ProbeError SessionProbe
  | .aborted => .error .abort
  | .timedOut => .error (.request "Radar Relay 请求超时，请检查网络后重试" none)
  | .failed => .error (.request "无法连接公网 Radar Relay" none)
  | .response status readable =>
    if status = 401 then .ok .unauthenticated
    else if status = 403 then .error (.request "Radar Relay 的站点来源配置不匹配" (some status))
    else if status = 404 then .ok .unavailable
    else if status < 200 ∨ 299 < status then
      .error (.request "Radar Relay 暂时不可用" (some status))
    else if readable then .ok .authenticated
    else .error (.protocol "Relay 返回了无效的会话信息")

def State.onProbe (s : State) (env : Surroundings) (generation : Nat) (result : FetchResult) :
    State :=
  if s.outdated generation then s
  else
    match probeRelaySession result with
    | .ok .authenticated => s.scheduleReconnect env false
    | .ok _ => s.rejectSession
    | .error .abort => s
    | .error _ => s.scheduleReconnect env false

def State.handleResume (s : State) (env : Surroundings) : State :=
  if env.hidden then s
  else
    let s := s.refreshStaleness env
    if env.isOffline .resume then s.markOffline env
    else
      match s.socket with
      | none => s.restartNow env
      | some socket =>
        let ready := env.readyState socket
        let overdue := match s.connectionStartedAtMs with
          | some started => decide (10000 ≤ env.now .handshake - started)
          | none => false
        let silent := match s.lastReceivedAt with
          | some received => decide (10000 < env.now .silence - received)
          | none => false
        if ready = .closed ∨ ready = .closing then s.restartNow env
        else if ready = .connecting ∧ overdue = true then s.restartNow env
        else if ready = .open_ ∧ silent = true then s.restartNow env
        else s

def State.cleanup (s : State) (env : Surroundings) : State :=
  let s := { s with disposed := true, generation := s.generation + 1 }
  let s := (s.abortProbe.clearReconnect false).clearConnectWatchdog.clearTimeout s.staleTimer
  s.closeLive env s.socket 1000 "page closed"

/-- A run of the effect starts with a new closure; the React state and the refs are what the
   run before left. -/
def State.newClosure (old : State) : State :=
  { old with
    disposed := false
    generation := 0
    socket := none
    connectionStartedAtMs := none
    reconnectTimer := none
    connectWatchdogTimer := none
    staleTimer := none
    sessionProbeController := none
    attempt := 0
    setFrames := []
    sockets := empty
    nextSocket := 0
    timers := empty
    nextTimer := 0
    probes := empty
    nextProbe := 0
    closeCalls := [] }

def mount (old : State) (env : Surroundings) : State :=
  (old.newClosure.refreshStaleness env).connect env

inductive Event
  | socketOpen (candidate : Nat)
  | socketMessage (candidate : Nat) (data : MessageData)
  | socketClose (candidate code : Nat) (reason : List Nat)
  | socketError (candidate : Nat)
  | timer (id : Nat)
  | probe (id : Nat) (result : FetchResult)
  | online
  | offline
  | resume
  | dispose

/-- A socket's events, up to its close event. -/
def State.live (s : State) (candidate : Nat) : Option Socket :=
  (s.sockets.lookup candidate).filter fun socket => !socket.ended

/-- What the browser does before it calls a listener or a callback: a close event ends its
   socket, a timer that fires and a probe that settles are done with. -/
def State.endSocket (s : State) (candidate : Nat) (socket : Socket) : State :=
  { s with sockets := s.sockets.insert candidate { socket with ended := true } }

def State.dropTimer (s : State) (id : Nat) : State := { s with timers := s.timers.erase id }

def State.dropProbe (s : State) (id : Nat) : State := { s with probes := s.probes.erase id }

def step (mode : Mode) (s : State) (event : Event) (env : Surroundings) : Option State :=
  match event with
  | .socketOpen candidate =>
    (s.live candidate).map fun socket => s.onOpen candidate socket.generation
  | .socketMessage candidate data =>
    (s.live candidate).map fun socket => s.onMessage env candidate socket.generation data
  | .socketClose candidate code reason =>
    (s.live candidate).map fun socket =>
      (s.endSocket candidate socket).onClose mode env socket.generation code reason
  | .socketError candidate =>
    (s.live candidate).map fun socket => s.onError mode socket.generation
  | .timer id =>
    (s.timers.lookup id).map fun timer => (s.dropTimer id).onTimer env timer
  | .probe id result =>
    (s.probes.lookup id).bind fun probe =>
      -- An aborted probe is the only source of an AbortError.
      if result = .aborted ∧ probe.aborted = false then none
      else some ((s.dropProbe id).onProbe env probe.generation result)
  | .online => if s.disposed then none else some (s.restartNow env)
  | .offline => if s.disposed then none else some (s.markOffline env)
  | .resume => if s.disposed then none else some (s.handleResume env)
  | .dispose => if s.disposed then none else some (s.cleanup env)

def stream (mode : Mode) : Machine State (Event × Surroundings) where
  init s := ∃ old env, s = mount old env
  step s a := step mode s a.1 a.2

end RadarStream
