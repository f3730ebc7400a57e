import GameSecurity.RelayLimiter

/- Whom the login limiter takes a request for: clientIPResolver of limiter.go, and the head of
   handleCreateSession in server.go. -/
namespace RelayClients
open Runs RelayRoom RelayConfig RelayLimiter

/-- What is read of a request. A header that is missing is empty. -/
structure Request where
  remoteAddr : Bytes
  xRealIP : Bytes
  deriving DecidableEq, Repr

/-- The networks as they are written. An address is its canonical text, as `parseIP` gives it and
    `String` writes it; `contains` is the method of net.IPNet. -/
structure ClientIPResolver where
  std : Stdlib
  contains : Bytes → Bytes → Bool
  trusted : List Bytes

def newClientIPResolver (std : Stdlib) (contains : Bytes → Bytes → Bool) (cidrs : List Bytes) :
    ClientIPResolver where
  std := std
  contains := contains
  trusted := cidrs.filter fun value => (std.parseCIDR value).isOk

def ClientIPResolver.isTrusted (r : ClientIPResolver) (ip : Bytes) : Bool :=
  r.trusted.any fun network => r.contains network ip

/-- The address at the other end of the connection; none: it is none. -/
def ClientIPResolver.peer (r : ClientIPResolver) (request : Request) : Option Bytes :=
  let host := match r.std.splitHostPort request.remoteAddr with
    | .ok (host, _) => host
    | .error _ => request.remoteAddr
  r.std.parseIP (r.std.trimSpace host)

def ClientIPResolver.resolve (r : ClientIPResolver) (request : Request) : Bytes :=
  match r.peer request with
  | none => bytes "unknown"
  | some peer =>
    if r.isTrusted peer then (r.std.parseIP (r.std.trimSpace request.xRealIP)).getD peer
    else peer

inductive Outcome where
  | notReady
  | rateLimited
  | passed
  deriving DecidableEq, Repr

structure Login where
  request : Request
  now : Time
  outcome : Outcome
  deriving DecidableEq, Repr

structure Entrance where
  history : History
  log : List Login

def handleCreateSession (r : ClientIPResolver) (ready : Bool) (request : Request) (now : Time)
    (w : Entrance) : Entrance :=
  if ¬ ready then { w with log := w.log ++ [⟨request, now, .notReady⟩] }
  else
    let clientIP := r.resolve request
    let allowed := (w.history.limiter.allow clientIP now).2
    ⟨w.history.call clientIP now,
      w.log ++ [⟨request, now, if allowed then .passed else .rateLimited⟩]⟩

/-- Requests as they come to a server of this configuration, whose clock never goes back. -/
def entrances (r : ClientIPResolver) (c : Config) : Machine Entrance (Bool × Request × Time) where
  init w := (logins c).init w.history ∧ w.log = []
  step w a :=
    if w.history.clock ≤ a.2.2 then some (handleCreateSession r a.1 a.2.1 a.2.2 w) else none

def passedIn (log : List Login) (kind : Request → Prop) [DecidablePred kind] (s t : Time) : Nat :=
  log.countP fun login =>
    decide (kind login.request ∧ s ≤ login.now ∧ login.now ≤ t ∧ login.outcome = .passed)

variable {r : ClientIPResolver} {c : Config} {w : Entrance} {s t : Time}

/-- What a peer that is no trusted proxy writes into the header has no effect. -/
theorem resolve_untrusted {request : Request} {ip : Bytes} (from_ : r.peer request = some ip)
    (untrusted : r.isTrusted ip = false) : r.resolve request = ip := by
  rw [ClientIPResolver.resolve, from_]
  exact if_neg (by rw [untrusted]; exact Bool.false_ne_true)

theorem resolve_forwarded {request : Request} {proxy ip : Bytes}
    (from_ : r.peer request = some proxy) (trusted : r.isTrusted proxy = true)
    (told : r.std.parseIP (r.std.trimSpace request.xRealIP) = some ip) :
    r.resolve request = ip := by
  rw [ClientIPResolver.resolve, from_]
  simp only [trusted, if_true, told, Option.getD_some]

structure Counted (r : ClientIPResolver) (c : Config) (w : Entrance) : Prop where
  reachable : (logins c).Reachable w.history
  passed : ∀ key s t, passedIn w.log (fun request => r.resolve request = key) s t ≤
    allowedIn w.history.log key s t

theorem passedIn_append {kind : Request → Prop} [DecidablePred kind] {log : List Login}
    {login : Login} : passedIn (log ++ [login]) kind s t = passedIn log kind s t +
      if kind login.request ∧ s ≤ login.now ∧ login.now ≤ t ∧ login.outcome = .passed then 1
      else 0 := by
  simp [passedIn, List.countP_append, List.countP_singleton]

theorem entrance_reachable (reach : (entrances r c).Reachable w) (ready : Bool) (request : Request)
    {now : Time} (later : w.history.clock ≤ now) :
    (entrances r c).Reachable (handleCreateSession r ready request now w) := by
  have step : (entrances r c).step w (ready, request, now) =
      some (handleCreateSession r ready request now w) := if_pos later
  exact reachable_step (entrances r c) reach step

theorem counted_invariant : Invariant (entrances r c) (Counted r c) := by
  constructor
  case start =>
    rintro w ⟨begun, none⟩
    constructor
    case reachable => exact reachable_start (logins c) begun
    case passed =>
      intro key s t
      rw [none]
      exact Nat.zero_le _
  case kept =>
    intro w a next ok taken
    obtain ⟨ready, request, now⟩ := a
    simp only [entrances] at taken
    split at taken
    · rename_i later
      cases Option.some.inj taken
      unfold handleCreateSession
      cases ready with
      | false =>
        constructor
        case reachable => exact ok.reachable
        case passed =>
          intro key s t
          have before := ok.passed key s t
          simp only [Bool.false_eq_true, not_false_eq_true, if_true, passedIn_append]
          simpa using before
      | true =>
        have step : (logins c).step w.history (r.resolve request, now) =
            some (w.history.call (r.resolve request) now) := if_pos later
        constructor
        case reachable => exact reachable_step (logins c) ok.reachable step
        case passed =>
          intro key s t
          have before := ok.passed key s t
          simp only [not_true_eq_false, if_false, passedIn_append, History.call, allowedIn_append,
            inWindow_iff]
          apply Nat.add_le_add before
          by_cases allowed : (w.history.limiter.allow (r.resolve request) now).2 = true
          · simp [allowed]
          · simp [allowed]
    · cases taken

/-- One kind of request among those of one key is not let pass more often than the key. -/
theorem passedIn_le {kind : Request → Prop} [DecidablePred kind] {key : Bytes}
    (same : ∀ request, kind request → r.resolve request = key) (log : List Login) :
    passedIn log kind s t ≤ passedIn log (fun request => r.resolve request = key) s t := by
  apply List.countP_mono_left
  intro login _ counted
  obtain ⟨of, rest⟩ := of_decide_eq_true counted
  exact decide_eq_true ⟨same login.request of, rest⟩

/-- A client has one budget of logins: who connects directly, whatever the header says, and who
    comes through a proxy, under the one address that it tells. -/
theorem client_limited (std : Stdlib) (c : Config) (contains : Bytes → Bytes → Bool)
    (accepted : c.validate std = .ok ()) (refills : RefillsWhenForgotten c)
    (reach : (entrances (newClientIPResolver std contains c.trustedProxyCIDRs) c).Reachable w)
    (window : s ≤ t) (ip : Bytes) :
    let r := newClientIPResolver std contains c.trustedProxyCIDRs
    let budget := (c.loginBurst : ℚ) + c.loginAttemptsPerMinute / 60 * seconds (t - s)
    (r.isTrusted ip = false → (passedIn w.log (fun request => r.peer request = some ip) s t : ℚ) ≤
        budget) ∧
      (passedIn w.log (fun request => (r.peer request).any r.isTrusted = true ∧
        r.std.parseIP (r.std.trimSpace request.xRealIP) = some ip) s t : ℚ) ≤ budget := by
  intro r budget
  have counted := reachable_invariant (entrances r c) counted_invariant reach
  have limited := login_limited (validate_ok_iff.mp accepted) refills
  have bound := limited.bounded w.history counted.reachable ip s t window
  have all : (passedIn w.log (fun request => r.resolve request = ip) s t : ℚ) ≤ budget := by
    refine le_trans ?_ bound
    exact_mod_cast counted.passed ip s t
  constructor
  · intro untrusted
    refine le_trans ?_ all
    exact_mod_cast passedIn_le (fun request from_ => resolve_untrusted from_ untrusted) w.log
  · refine le_trans ?_ all
    have told : ∀ request, ((r.peer request).any r.isTrusted = true ∧
        r.std.parseIP (r.std.trimSpace request.xRealIP) = some ip) → r.resolve request = ip := by
      rintro request ⟨through, told⟩
      cases from_ : r.peer request with
      | none =>
        rw [from_] at through
        cases through
      | some proxy =>
        rw [from_] at through
        exact resolve_forwarded from_ through told
    exact_mod_cast passedIn_le told w.log

def oneHost : Stdlib :=
  { exampleStdlib with
    splitHostPort := fun text =>
      if text = bytes "127.0.0.1:8080" then .ok (bytes "127.0.0.1", bytes "8080")
      else if text = bytes "127.0.0.1:40000" then .ok (bytes "127.0.0.1", bytes "40000")
      else .error "missing port in address"
    parseIP := fun text => if text = bytes "127.0.0.1" then some text else none }

theorem oneHost_accepted : exampleConfig.validate oneHost = .ok () := by
  rw [validate_ok_iff]
  refine ⟨by decide, ⟨_, rfl⟩, rfl, by simp [exampleConfig], rfl, ?_, ?_, ?_, ?_, ?_, ?_, ?_, ?_,
    ?_, ?_, ?_, ?_, ?_, ?_, by simp [exampleConfig], rfl⟩
  all_goals decide

def oneHostResolver : ClientIPResolver :=
  newClientIPResolver oneHost (fun _ _ => false) exampleConfig.trustedProxyCIDRs

def noLogins : Entrance :=
  ⟨⟨newIPLimiter exampleConfig.loginAttemptsPerMinute exampleConfig.loginBurst
    exampleConfig.maxTrackedIPs, 0, []⟩, []⟩

def oneLogin : Entrance :=
  handleCreateSession oneHostResolver true ⟨bytes "127.0.0.1:40000", bytes "192.0.2.1"⟩ 1 noLogins

/-- The host says that it is somebody else. -/
def twoLogins : Entrance :=
  handleCreateSession oneHostResolver true ⟨bytes "127.0.0.1:40000", bytes "192.0.2.2"⟩ 2 oneLogin

theorem twoLogins_reachable : (entrances oneHostResolver exampleConfig).Reachable twoLogins := by
  have start : (entrances oneHostResolver exampleConfig).Reachable noLogins :=
    reachable_start _ ⟨⟨0, rfl⟩, rfl⟩
  have one : (entrances oneHostResolver exampleConfig).Reachable oneLogin :=
    entrance_reachable start true _ (by decide)
  have clock : oneLogin.history.clock = 1 := rfl
  apply entrance_reachable one true
  rw [clock]
  decide

theorem client_limited_two : twoLogins.log.length = 2 ∧
    (passedIn twoLogins.log (fun request => oneHostResolver.peer request =
      some (bytes "127.0.0.1")) 0 2 : ℚ) ≤ exampleConfig.loginBurst +
        exampleConfig.loginAttemptsPerMinute / 60 * seconds (2 - 0) := by
  have refills : RefillsWhenForgotten exampleConfig := by
    norm_num [RefillsWhenForgotten, exampleConfig, seconds, minute, nanosPerSecond]
  exact ⟨rfl, (client_limited oneHost exampleConfig (fun _ _ => false) oneHost_accepted refills
    twoLogins_reachable (by decide : (0 : Time) ≤ 2) (bytes "127.0.0.1")).1 rfl⟩

end RelayClients
