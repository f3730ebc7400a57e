import Mathlib.Data.Rat.Defs
import Mathlib.Algebra.Order.Ring.Unbundled.Rat
import GameSecurity.RelayAuth
import GameSecurity.FiniteTable

/- The relay's configuration and its validator. Go strings are byte lists; a
   float64 read from JSON is finite, so it is a rational. -/
namespace RelayConfig
open RelayRoom RelayAuth FiniteTable

/-- The fields of a parsed `url.URL` the validator reads. -/
structure URL where
  scheme : Bytes
  host : Bytes
  hasUser : Bool
  rawQuery : Bytes
  fragment : Bytes
  path : Bytes

/-- What the validator calls of Go's standard library. `parseIP` gives the canonical text
   of the address, none for nil; `quote` is the verb %q. -/
structure Stdlib where
  trimSpace : Bytes → Bytes
  toLower : Bytes → Bytes
  quote : Bytes → String
  atoi : Bytes → Except String Int
  itoa : Int → Bytes
  splitHostPort : Bytes → Except String (Bytes × Bytes)
  parseCIDR : Bytes → Except String Unit
  parseURL : Bytes → Except String URL
  urlPort : URL → Bytes
  urlHostname : URL → Bytes
  parseIP : Bytes → Option Bytes

structure RoomConfig where
  id : Bytes
  producerTokenSHA256 : Bytes
  inviteTokenSHA256 : List Bytes
  maxViewers : Int

structure Config where
  listen : Bytes
  publicOrigin : Bytes
  tlsCertFile : Bytes
  tlsKeyFile : Bytes
  trustedProxyCIDRs : List Bytes
  sessionTTLSeconds : Int
  snapshotTTLMillis : Int
  maxSnapshotAgeMillis : Int
  maxFutureSkewMillis : Int
  producerIdleTimeoutSeconds : Int
  maxSnapshotBytes : Int
  maxPublishHz : ℚ
  publishBurst : Int
  loginAttemptsPerMinute : ℚ
  loginBurst : Int
  maxTrackedIPs : Int
  maxSessions : Int
  maxViewersPerSession : Int
  shutdownTimeoutSeconds : Int
  allowInsecureDevelopment : Bool
  rooms : List RoomConfig

def Config.sessionTTL (c : Config) : Int := c.sessionTTLSeconds * nanosPerSecond
def Config.snapshotTTL (c : Config) : Int := c.snapshotTTLMillis * nanosPerMillisecond
def Config.maxSnapshotAge (c : Config) : Int := c.maxSnapshotAgeMillis * nanosPerMillisecond
def Config.maxFutureSkew (c : Config) : Int := c.maxFutureSkewMillis * nanosPerMillisecond
def Config.producerIdleTimeout (c : Config) : Int := c.producerIdleTimeoutSeconds * nanosPerSecond

/-- The texts the source compares with are ASCII. -/
def bytes (text : String) : Bytes := text.toList.map fun c => c.toNat.toUInt8

/- `return errors.New(text)` under the condition. -/
def refuse (bad : Prop) [Decidable bad] (text : String) : Except String Unit :=
  if bad then .error text else .ok ()

def refuseOutside {α : Type} [LT α] [DecidableLT α] (low high value : α) (text : String) :
    Except String Unit :=
  refuse (value < low ∨ high < value) text

/-- The verb %w behind a prefix. -/
def wrap {α : Type} (context : String) : Except String α → Except String α
  | .ok value => .ok value
  | .error text => .error s!"{context}: {text}"

def splitOn (separator : UInt8) : Bytes → List Bytes
  | [] => [[]]
  | c :: rest =>
    if c = separator then [] :: splitOn separator rest
    else
      match splitOn separator rest with
      | [] => [[c]]
      | label :: labels => (c :: label) :: labels

def dnsCharacter (c : UInt8) : Bool :=
  (decide (97 ≤ c) && decide (c ≤ 122)) || (decide (48 ≤ c) && decide (c ≤ 57)) || decide (c = 45)

def validateLabels : List Bytes → Except String Unit
  | [] => .ok ()
  | label :: rest => do
    refuse (label.length = 0 ∨ 63 < label.length ∨ label.head? = some 45 ∨
      label.getLast? = some 45) "DNS host contains an invalid label"
    refuse (label.all dnsCharacter = false)
      "DNS host must contain only lowercase ASCII letters, digits, dots, and hyphens"
    validateLabels rest

def validateBrowserHost (std : Stdlib) (host : Bytes) : Except String Unit := do
  refuse (host = [] ∨ host ≠ std.toLower host) "host must be lowercase"
  refuse (host.getLast? = some 46) "host must not have a trailing dot"
  refuse (host.any (fun c => decide (127 < c)) = true)
    "host must be ASCII; use lowercase punycode for internationalized domains"
  match std.parseIP host with
  | some canonical => refuse (host ≠ canonical) "IP host must use its canonical browser form"
  | none =>
    refuse (253 < host.length) "DNS host is too long"
    validateLabels (splitOn 46 host)

def validatePort (std : Stdlib) (port : Bytes) : Except String Unit :=
  let text := "port must use canonical decimal form from 1 through 65535"
  if port = [] then .ok ()
  else
    match std.atoi port with
    | .error _ => .error text
    | .ok number => refuse (number < 1 ∨ 65535 < number ∨ std.itoa number ≠ port) text

def validateOrigin (std : Stdlib) (value : Bytes) (allowInsecure : Bool) : Except String Unit := do
  let parsed ← std.parseURL value
  refuse (parsed.scheme = [] ∨ parsed.host = [] ∨ parsed.hasUser = true ∨ parsed.rawQuery ≠ [] ∨
      parsed.fragment ≠ [] ∨ (parsed.path ≠ [] ∧ parsed.path ≠ bytes "/"))
    "must be an absolute origin without path, credentials, query, or fragment"
  let canonical := parsed.scheme ++ bytes "://" ++ parsed.host
  refuse (value ≠ canonical) s!"must use canonical form {std.quote canonical}"
  refuse (parsed.scheme ≠ bytes "https" ∧ ¬ (allowInsecure = true ∧ parsed.scheme = bytes "http"))
    "must use https (http is allowed only for explicit development mode)"
  let port := std.urlPort parsed
  refuse (parsed.host.getLast? = some 58) "host must not contain an empty port"
  validatePort std port
  refuse ((parsed.scheme = bytes "https" ∧ port = bytes "443") ∨
      (parsed.scheme = bytes "http" ∧ port = bytes "80"))
    "must omit the scheme's default port because browsers omit it from Origin"
  validateBrowserHost std (std.urlHostname parsed)

def validateCIDRs (std : Stdlib) : List Bytes → Except String Unit
  | [] => .ok ()
  | cidr :: rest => do
    wrap s!"trustedProxyCIDRs contains {std.quote cidr}" (std.parseCIDR cidr)
    validateCIDRs std rest

def roomIDPattern : String := "^[A-Za-z0-9_-]\x7b3,64\x7d$"

def roomIDCharacter (c : UInt8) : Bool :=
  (decide (65 ≤ c) && decide (c ≤ 90)) || (decide (97 ≤ c) && decide (c ≤ 122)) ||
    (decide (48 ≤ c) && decide (c ≤ 57)) || decide (c = 95) || decide (c = 45)

def matchesRoomID (id : Bytes) : Bool :=
  decide (3 ≤ id.length) && decide (id.length ≤ 64) && id.all roomIDCharacter

/-- The inner loop over a room's invites, from index j on. -/
def validateInvites (std : Stdlib) (room : RoomConfig) (i : Nat) :
    Nat → List Bytes → Table Digest String → Except String (Table Digest String)
  | _, [], seenTokenHashes => .ok seenTokenHashes
  | j, hash :: rest, seenTokenHashes => do
    let inviteHash ← wrap s!"rooms[{i}].inviteTokenSha256[{j}]" (parseHexSum hash)
    match seenTokenHashes.lookup inviteHash with
    | some previous =>
      .error s!"rooms[{i}].inviteTokenSha256[{j}] reuses the token digest from {previous}"
    | none =>
      validateInvites std room i (j + 1) rest
        (seenTokenHashes.insert inviteHash s!"room {std.quote room.id} invite {j}")

/-- One pass of the loop over the rooms; it returns the digests seen so far. -/
def validateRoom (std : Stdlib) (i : Nat) (room : RoomConfig) (seen : Finset Bytes)
    (seenTokenHashes : Table Digest String) : Except String (Table Digest String) := do
  refuse (matchesRoomID room.id = false) s!"rooms[{i}].id must match {roomIDPattern}"
  refuse (room.id ∈ seen) s!"duplicate room id {std.quote room.id}"
  let producerHash ← wrap s!"rooms[{i}].producerTokenSha256" (parseHexSum room.producerTokenSHA256)
  match seenTokenHashes.lookup producerHash with
  | some previous =>
    .error s!"rooms[{i}].producerTokenSha256 reuses the token digest from {previous}"
  | none =>
    let seenTokenHashes :=
      seenTokenHashes.insert producerHash s!"room {std.quote room.id} producer"
    refuse (room.inviteTokenSHA256.length = 0 ∨ 16 < room.inviteTokenSHA256.length)
      s!"rooms[{i}].inviteTokenSha256 must contain 1 to 16 hashes"
    let seenTokenHashes ← validateInvites std room i 0 room.inviteTokenSHA256 seenTokenHashes
    refuseOutside 1 10000 room.maxViewers s!"rooms[{i}].maxViewers must be between 1 and 10000"
    return seenTokenHashes

def validateRooms (std : Stdlib) :
    Nat → List RoomConfig → Finset Bytes → Table Digest String → Except String Unit
  | _, [], _, _ => .ok ()
  | i, room :: rest, seen, seenTokenHashes => do
    let seenTokenHashes ← validateRoom std i room seen seenTokenHashes
    validateRooms std (i + 1) rest (insert room.id seen) seenTokenHashes

def Config.validate (std : Stdlib) (c : Config) : Except String Unit := do
  refuse (std.trimSpace c.listen = []) "listen is required"
  let _ ← wrap "listen" (std.splitHostPort c.listen)
  wrap "publicOrigin" (validateOrigin std c.publicOrigin c.allowInsecureDevelopment)
  refuse (decide (c.tlsCertFile = []) ≠ decide (c.tlsKeyFile = []))
    "tlsCertFile and tlsKeyFile must be configured together"
  validateCIDRs std c.trustedProxyCIDRs
  refuseOutside 60 86400 c.sessionTTLSeconds "sessionTTLSeconds must be between 60 and 86400"
  refuseOutside 250 10000 c.snapshotTTLMillis "snapshotTTLMillis must be between 250 and 10000"
  refuseOutside 1000 60000 c.maxSnapshotAgeMillis
    "maxSnapshotAgeMillis must be between 1000 and 60000"
  refuseOutside 1000 300000 c.maxFutureSkewMillis
    "maxFutureSkewMillis must be between 1000 and 300000"
  refuseOutside 5 300 c.producerIdleTimeoutSeconds
    "producerIdleTimeoutSeconds must be between 5 and 300"
  refuseOutside 4096 (4 * 1024 * 1024) c.maxSnapshotBytes
    "maxSnapshotBytes must be between 4096 and 4194304"
  refuseOutside 1 120 c.maxPublishHz "maxPublishHz must be between 1 and 120"
  refuseOutside 1 120 c.publishBurst "publishBurst must be between 1 and 120"
  refuseOutside 1 600 c.loginAttemptsPerMinute "loginAttemptsPerMinute must be between 1 and 600"
  refuseOutside 1 100 c.loginBurst "loginBurst must be between 1 and 100"
  refuseOutside 100 1000000 c.maxTrackedIPs "maxTrackedIPs must be between 100 and 1000000"
  refuseOutside 1 1000000 c.maxSessions "maxSessions must be between 1 and 1000000"
  refuseOutside 1 8 c.maxViewersPerSession "maxViewersPerSession must be between 1 and 8"
  refuseOutside 1 60 c.shutdownTimeoutSeconds "shutdownTimeoutSeconds must be between 1 and 60"
  refuse (c.rooms.length = 0 ∨ 1000 < c.rooms.length) "rooms must contain between 1 and 1000 rooms"
  validateRooms std 0 c.rooms ∅ empty

theorem bind_ok_iff {α β : Type} {first : Except String α} {rest : α → Except String β} {b : β} :
    (first >>= rest) = .ok b ↔ ∃ a, first = .ok a ∧ rest a = .ok b := by
  cases first with
  | error text => simp [bind, Except.bind]
  | ok a => simp [bind, Except.bind]

theorem refuse_ok_iff {bad : Prop} [Decidable bad] {text : String} {u : Unit} :
    refuse bad text = .ok u ↔ ¬ bad := by
  unfold refuse
  split <;> simp [*]

theorem wrap_ok_iff {α : Type} {context : String} {result : Except String α} {a : α} :
    wrap context result = .ok a ↔ result = .ok a := by
  cases result <;> simp [wrap]

theorem refuseOutside_ok_iff {α : Type} [LinearOrder α] {low high value : α} {text : String}
    {u : Unit} : refuseOutside low high value text = .ok u ↔ low ≤ value ∧ value ≤ high := by
  simp [refuseOutside, refuse_ok_iff]

/-- Every check of an accepted configuration, in the order in which they are made. -/
structure Accepted (std : Stdlib) (c : Config) : Prop where
  listen : std.trimSpace c.listen ≠ []
  hostPort : ∃ parts, std.splitHostPort c.listen = .ok parts
  origin : validateOrigin std c.publicOrigin c.allowInsecureDevelopment = .ok ()
  tls : c.tlsCertFile = [] ↔ c.tlsKeyFile = []
  cidrs : validateCIDRs std c.trustedProxyCIDRs = .ok ()
  sessionTTL : 60 ≤ c.sessionTTLSeconds ∧ c.sessionTTLSeconds ≤ 86400
  snapshotTTL : 250 ≤ c.snapshotTTLMillis ∧ c.snapshotTTLMillis ≤ 10000
  snapshotAge : 1000 ≤ c.maxSnapshotAgeMillis ∧ c.maxSnapshotAgeMillis ≤ 60000
  futureSkew : 1000 ≤ c.maxFutureSkewMillis ∧ c.maxFutureSkewMillis ≤ 300000
  producerIdle : 5 ≤ c.producerIdleTimeoutSeconds ∧ c.producerIdleTimeoutSeconds ≤ 300
  snapshotBytes : 4096 ≤ c.maxSnapshotBytes ∧ c.maxSnapshotBytes ≤ 4 * 1024 * 1024
  publishHz : 1 ≤ c.maxPublishHz ∧ c.maxPublishHz ≤ 120
  publishBurst : 1 ≤ c.publishBurst ∧ c.publishBurst ≤ 120
  loginRate : 1 ≤ c.loginAttemptsPerMinute ∧ c.loginAttemptsPerMinute ≤ 600
  loginBurst : 1 ≤ c.loginBurst ∧ c.loginBurst ≤ 100
  trackedIPs : 100 ≤ c.maxTrackedIPs ∧ c.maxTrackedIPs ≤ 1000000
  sessions : 1 ≤ c.maxSessions ∧ c.maxSessions ≤ 1000000
  viewersPerSession : 1 ≤ c.maxViewersPerSession ∧ c.maxViewersPerSession ≤ 8
  shutdown : 1 ≤ c.shutdownTimeoutSeconds ∧ c.shutdownTimeoutSeconds ≤ 60
  roomCount : 1 ≤ c.rooms.length ∧ c.rooms.length ≤ 1000
  rooms : validateRooms std 0 c.rooms ∅ empty = .ok ()

theorem validate_ok_iff {std : Stdlib} {c : Config} :
    c.validate std = .ok () ↔ Accepted std c := by
  simp only [Config.validate, bind_ok_iff, refuse_ok_iff, wrap_ok_iff, refuseOutside_ok_iff]
  constructor
  · rintro ⟨-, listen, parts, hostPort, ⟨⟩, origin, -, tls, ⟨⟩, cidrs, -, sessionTTL, -, snapshotTTL,
      -, age, -, skew, -, idle, -, size, -, hz, -, burst, -, rate, -, loginBurst, -, ips, -, sessions,
      -, viewers, -, shutdown, -, count, rooms⟩
    have together : c.tlsCertFile = [] ↔ c.tlsKeyFile = [] := by simpa using tls
    exact ⟨listen, ⟨parts, hostPort⟩, origin, together, cidrs, sessionTTL, snapshotTTL, age, skew,
      idle, size, hz, burst, rate, loginBurst, ips, sessions, viewers, shutdown, by omega, rooms⟩
  · intro h
    obtain ⟨parts, hostPort⟩ := h.hostPort
    have count := h.roomCount
    exact ⟨(), h.listen, parts, hostPort, (), h.origin, (), by simpa using h.tls, (), h.cidrs,
      (), h.sessionTTL, (), h.snapshotTTL, (), h.snapshotAge, (), h.futureSkew, (), h.producerIdle,
      (), h.snapshotBytes, (), h.publishHz, (), h.publishBurst, (), h.loginRate, (), h.loginBurst,
      (), h.trackedIPs, (), h.sessions, (), h.viewersPerSession, (), h.shutdown, (), by omega,
      h.rooms⟩

/-- What the library returns for the origin and the address of the example below. -/
def exampleStdlib : Stdlib where
  trimSpace text := text
  toLower text := text
  quote _ := ""
  atoi _ := .error "strconv.Atoi: parsing: invalid syntax"
  itoa _ := []
  splitHostPort _ := .ok (bytes "127.0.0.1", bytes "8080")
  parseCIDR _ := .ok ()
  parseURL _ := .ok ⟨bytes "https", bytes "radar.example", false, [], [], []⟩
  urlPort _ := []
  urlHostname _ := bytes "radar.example"
  parseIP _ := none

def exampleConfig : Config where
  listen := bytes "127.0.0.1:8080"
  publicOrigin := bytes "https://radar.example"
  tlsCertFile := []
  tlsKeyFile := []
  trustedProxyCIDRs := []
  sessionTTLSeconds := 3600
  snapshotTTLMillis := 3000
  maxSnapshotAgeMillis := 10000
  maxFutureSkewMillis := 30000
  producerIdleTimeoutSeconds := 30
  maxSnapshotBytes := 512 * 1024
  maxPublishHz := 30
  publishBurst := 5
  loginAttemptsPerMinute := 10
  loginBurst := 5
  maxTrackedIPs := 10000
  maxSessions := 10000
  maxViewersPerSession := 2
  shutdownTimeoutSeconds := 10
  allowInsecureDevelopment := false
  rooms := [⟨bytes "room", List.replicate 64 48, [List.replicate 64 49], 4⟩]

theorem exampleConfig_accepted : exampleConfig.validate exampleStdlib = .ok () := by
  rw [validate_ok_iff]
  refine ⟨by decide, ⟨_, rfl⟩, rfl, by simp [exampleConfig], rfl, ?_, ?_, ?_, ?_, ?_, ?_, ?_, ?_, ?_,
    ?_, ?_, ?_, ?_, ?_, by simp [exampleConfig], rfl⟩
  all_goals decide

end RelayConfig
