import GameSecurity.Binary64
import GameSecurity.RadarStream

/- The page's session with the relay: the requests of `session.ts`, and the state, refs and
   effects of `useRelaySession`. A handler runs to its end, and then the effects of what it
   set; the clock may have gone on between the two. -/
namespace RelayAccess
open Runs FiniteTable JsonText RelayProtocol RadarProtocol
open RadarStream (Mode)

structure RelaySession where
  room : List Nat
  expiresAtMs : Int
  deriving DecidableEq, Repr

inductive Kind
  | invalidCredentials | unavailable | protocol | request
  deriving DecidableEq, Repr

/-- An AbortError, or a RelaySessionError. -/
inductive Failure
  | abort
  | relay (kind : Kind) (message : String) (status : Option Nat)
  deriving DecidableEq, Repr

/-- How a fetch ends. A body that is not JSON is none. -/
inductive Fetched
  | response (status : Nat) (body : Value)
  | aborted
  | timedOut
  | failed

def fetchRelay : Fetched → Except Failure (Nat × Value)
  | .response status body => .ok (status, body)
  | .aborted => .error .abort
  | .timedOut => .error (.relay .request "Radar Relay 请求超时，请检查网络后重试" none)
  | .failed => .error (.relay .request "无法连接公网 Radar Relay" none)

/-- A number as it is read, if the double is an integer that is safe. -/
def safeInteger (n : Number) : Option Int :=
  let magnitude : ℚ := |numerator n| / denominator n
  -- Up to half of the least positive double, the double is zero.
  if magnitude * 2 ^ 1075 ≤ 1 then some 0
  else
    let rounded := Binary64.nearest magnitude
    if rounded.den = 1 ∧ rounded.num ≤ 2 ^ 53 - 1 then
      some (if n.negative then -rounded.num else rounded.num)
    else none

/-- The length of a text in units of UTF-16. -/
def utf16Length (text : List Nat) : Nat := (text.map fun c => if c < 0x10000 then 1 else 2).sum

def parseSession (value : Value) : Option RelaySession :=
  match property value (codes "authenticated"), property value (codes "room"),
    property value (codes "expiresAtMs") with
  | some (.bool true), some (.string room), some (.number n) =>
    match safeInteger n with
    | some expiresAtMs =>
      if 0 < utf16Length room ∧ utf16Length room ≤ 64 ∧ 0 ≤ expiresAtMs then
        some ⟨room, expiresAtMs⟩
      else none
    | none => none
  | _, _, _ => none

def readSession (body : Value) : Except Failure RelaySession :=
  if body.isNone then .error (.relay .protocol "Relay 返回了无法解析的会话信息" none)
  else
    match parseSession body with
    | some session => .ok session
    | none => .error (.relay .protocol "Relay 返回了无效的会话信息" none)

def isOk (status : Nat) : Prop := 200 ≤ status ∧ status ≤ 299

instance (status : Nat) : Decidable (isOk status) :=
  inferInstanceAs (Decidable (200 ≤ status ∧ status ≤ 299))

inductive RelaySessionProbe
  | authenticated (session : RelaySession)
  | unauthenticated
  | unavailable
  deriving DecidableEq, Repr

def probeRelaySession (result : Fetched) : Except Failure RelaySessionProbe := do
  let (status, body) ← fetchRelay result
  if status = 401 then return .unauthenticated
  else if status = 403 then
    .error (.relay .request "Radar Relay 的站点来源配置不匹配" (some status))
  else if status = 404 then return .unavailable
  else if ¬ isOk status then .error (.relay .request "Radar Relay 暂时不可用" (some status))
  else return .authenticated (← readSession body)

def loginRelaySession (result : Fetched) : Except Failure RelaySession := do
  let (status, body) ← fetchRelay result
  if status = 401 then .error (.relay .invalidCredentials "房间或邀请凭据无效" (some status))
  else if status = 403 then
    .error (.relay .request "Radar Relay 的站点来源配置不匹配" (some status))
  else if status = 404 then
    .error (.relay .unavailable "当前站点未启用 Radar Relay" (some status))
  else if status = 429 then
    .error (.relay .request "登录尝试过于频繁，请稍后重试" (some status))
  else if ¬ isOk status then
    .error (.relay .request "登录暂时失败，请稍后重试" (some status))
  else readSession body

def logoutRelaySession (result : Fetched) : Except Failure Unit := do
  let (status, _) ← fetchRelay result
  if isOk status ∨ status = 401 then return ()
  else .error (.relay .request "退出登录失败，请稍后重试" (some status))

inductive RelayAccessState
  | bypassed
  | loading
  | anonymous
  | unavailable
  | error (message : String)
  | authenticated (session : RelaySession)
  deriving DecidableEq, Repr

inductive Request
  | login | logout
  deriving DecidableEq, Repr

/-- A request in flight, with the signal of its controller. -/
structure Operation where
  request : Request
  aborted : Bool
  deriving DecidableEq, Repr

/-- The timer of the effect on `access`, which has captured the session. -/
structure ExpiryTimer where
  session : RelaySession
  delay : Int
  deriving DecidableEq, Repr

structure State where
  mounted : Bool
  access : RelayAccessState
  submitting : Bool
  actionError : Option String
  probeVersion : Nat
  operationController : Option Nat
  operations : Table Nat Operation
  nextOperation : Nat
  probeController : Option Nat
  probes : Table Nat Bool
  nextProbe : Nat
  expiryTimer : Option ExpiryTimer

/-- The places where the wall clock is read. -/
inductive ClockRead
  | handler | effect
  deriving DecidableEq, Repr

structure Surroundings where
  now : ClockRead → Int
  hidden : Bool

def messageForError : Failure → String
  | .abort => "Radar Relay 请求失败"
  | .relay _ message _ => message

def isUnavailable : Failure → Bool
  | .relay .unavailable _ _ => true
  | _ => false

def maxDelay : Int := 2147483647

/- `setAccess`, and the effect on `access`. -/
def State.setAccess (s : State) (env : Surroundings) (access : RelayAccessState) : State :=
  match access with
  | .authenticated session =>
    let remaining := session.expiresAtMs - env.now .effect
    if remaining ≤ 0 then { s with access := .anonymous, expiryTimer := none }
    else { s with access := access, expiryTimer := some ⟨session, min remaining maxDelay⟩ }
  | _ => { s with access := access, expiryTimer := none }

def State.abortOperation (s : State) : State :=
  match s.operationController with
  | none => s
  | some id =>
    match s.operations.lookup id with
    | none => s
    | some operation =>
      { s with operations := s.operations.insert id { operation with aborted := true } }

def State.abortProbe (s : State) : State :=
  match s.probeController with
  | none => s
  | some id =>
    match s.probes.lookup id with
    | none => s
    | some _ => { s with probes := s.probes.insert id true }

/- The effect on `probeVersion`, after the cleanup of the run before. -/
def State.startProbe (s : State) (env : Surroundings) : State :=
  let s := s.abortProbe
  { s.setAccess env .loading with
    actionError := none
    probeController := some s.nextProbe
    probes := s.probes.insert s.nextProbe false
    nextProbe := s.nextProbe + 1 }

def State.retry (s : State) (env : Surroundings) : State :=
  { s with probeVersion := s.probeVersion + 1 }.startProbe env

def State.onProbe (s : State) (env : Surroundings) (aborted : Bool) (result : Fetched) : State :=
  if aborted then s
  else
    match probeRelaySession result with
    | .ok (.authenticated session) => s.setAccess env (.authenticated session)
    | .ok .unavailable => s.setAccess env .unavailable
    | .ok .unauthenticated => s.setAccess env .anonymous
    | .error failure => s.setAccess env (.error (messageForError failure))

def State.begin (s : State) (request : Request) : State :=
  let s := s.abortOperation
  { s with
    operationController := some s.nextOperation
    operations := s.operations.insert s.nextOperation ⟨request, false⟩
    nextOperation := s.nextOperation + 1
    submitting := true
    actionError := none }

def State.login (s : State) : State := s.begin .login

def State.logout (s : State) (env : Surroundings) : State :=
  (s.begin .logout).setAccess env .anonymous

/- The `finally` of both. -/
def State.finish (s : State) (id : Nat) : State :=
  if s.operationController = some id then { s with operationController := none, submitting := false }
  else s

def State.onLogin (s : State) (env : Surroundings) (aborted : Bool) (result : Fetched) : State :=
  if aborted then s
  else
    match loginRelaySession result with
    | .ok session => s.setAccess env (.authenticated session)
    | .error failure =>
      { s with actionError := some (messageForError failure) }.setAccess env
        (if isUnavailable failure then .unavailable else .anonymous)

def State.onLogout (s : State) (aborted : Bool) (result : Fetched) : State :=
  match logoutRelaySession result with
  | .ok () => s
  | .error failure =>
    if aborted then s else { s with actionError := some (messageForError failure) }

def State.onResult (s : State) (env : Surroundings) (operation : Operation) (result : Fetched) :
    State :=
  match operation.request with
  | .login => s.onLogin env operation.aborted result
  | .logout => s.onLogout operation.aborted result

def State.onOperation (s : State) (env : Surroundings) (id : Nat) (operation : Operation)
    (result : Fetched) : State :=
  (s.onResult env operation result).finish id

def State.expire (s : State) (env : Surroundings) : State :=
  { s with actionError := some "会话已过期，请重新登录" }.setAccess env .anonymous

def State.onExpiryTimer (s : State) (env : Surroundings) (timer : ExpiryTimer) : State :=
  if timer.session.expiresAtMs ≤ env.now .handler then s.expire env
  else
    match s.access with
    | .authenticated session => s.setAccess env (.authenticated session)
    | _ => s

def State.resume (s : State) (env : Surroundings) : State :=
  if env.hidden then s
  else
    match s.access with
    | .authenticated session =>
      if session.expiresAtMs ≤ env.now .handler then s.expire env else s
    | .error _ => s.retry env
    | _ => s

def State.invalidate (s : State) (env : Surroundings) : State :=
  { s with actionError := some "会话已失效，请重新登录" }.setAccess env .anonymous

def State.unmount (s : State) : State :=
  { s.abortOperation.abortProbe with
    mounted := false, operationController := none, expiryTimer := none }

def firstRender (mode : Mode) : State where
  mounted := true
  access := if mode = .embedded then .bypassed else .loading
  submitting := false
  actionError := none
  probeVersion := 0
  operationController := none
  operations := empty
  nextOperation := 0
  probeController := none
  probes := empty
  nextProbe := 0
  expiryTimer := none

def mount (mode : Mode) (env : Surroundings) : State :=
  if mode = .embedded then (firstRender mode).setAccess env .bypassed
  else (firstRender mode).startProbe env

inductive Event
  | probe (id : Nat) (result : Fetched)
  | operation (id : Nat) (result : Fetched)
  | expiry
  | resume
  | login
  | logout
  | retry
  | invalidate
  | unmount

/-- Only a fetch that its caller aborted ends as aborted. -/
def Fetched.possible (aborted : Bool) : Fetched → Bool
  | .aborted => aborted
  | _ => true

def step (mode : Mode) (s : State) (event : Event) (env : Surroundings) : Option State :=
  match event with
  | .probe id result =>
    (s.probes.lookup id).bind fun aborted =>
      if result.possible aborted then
        some ({ s with probes := s.probes.erase id }.onProbe env aborted result)
      else none
  | .operation id result =>
    (s.operations.lookup id).bind fun operation =>
      if result.possible operation.aborted then
        some ({ s with operations := s.operations.erase id }.onOperation env id operation result)
      else none
  | .expiry => s.expiryTimer.map fun timer => { s with expiryTimer := none }.onExpiryTimer env timer
  | .resume => if s.mounted ∧ mode = .relay then some (s.resume env) else none
  | .login => if s.mounted then some s.login else none
  | .logout => if s.mounted then some (s.logout env) else none
  -- In the embedded mode the effect on `probeVersion` probes nothing.
  | .retry =>
    if s.mounted = false then none
    else if mode = .embedded then
      some ({ s with probeVersion := s.probeVersion + 1 }.setAccess env .bypassed)
    else some (s.retry env)
  | .invalidate => if s.mounted then some (s.invalidate env) else none
  | .unmount => if s.mounted then some s.unmount else none

/-- The hook under any calls at all. -/
def hook (mode : Mode) : Machine State (Event × Surroundings) where
  init s := ∃ env, s = mount mode env
  step s a := step mode s a.1 a.2

def sessionOf : RelayAccessState → Option RelaySession
  | .authenticated session => some session
  | _ => none

/-- Whether `App` mounts the workspace rather than the gate. -/
def workspace (mode : Mode) (s : State) : Bool :=
  decide (mode = .embedded) || (sessionOf s.access).isSome

/-- The calls that what is on the page can make: the gate's form and its button, and the
    workspace's button and its stream. -/
def offers (mode : Mode) (s : State) : Event → Bool
  | .login => !workspace mode s && decide (s.access = .anonymous) && !s.submitting
  | .retry =>
    !workspace mode s && match s.access with
      | .error _ => true
      | _ => false
  | .logout => workspace mode s && decide (mode = .relay) && !s.submitting
  | .invalidate => workspace mode s
  | _ => true

def page (mode : Mode) : Machine State (Event × Surroundings) where
  init s := ∃ env, s = mount mode env
  step s a := if offers mode s a.1 then step mode s a.1 a.2 else none

end RelayAccess
