import GameSecurity.JsonPrint
import GameSecurity.RelayAccess
import GameSecurity.RelaySessionStore

/- The session answers of the relay, and what the page reads in them. The page gets the bytes
   that the handlers write. -/
namespace RelayAnswer
open RelayRoom RelaySession RelaySessionStore RelayAuth RelayConfig
open JsonText JsonPrint RelayProtocol RadarProtocol RelayAccess

/- `time.Unix(0, 0)` on the scale of `time.Time`. -/
def unixEpoch : Time := 62135596800 * nanosPerSecond

def unixMilli (t : Time) : Int := (t - unixEpoch) / nanosPerMillisecond

def hexDigit (n : Nat) : UInt8 := n.digitChar.toNat.toUInt8

/- `encoding/json` of a byte of ASCII inside a string. -/
def jsonByte (c : UInt8) : Bytes :=
  if c = 34 ∨ c = 92 then [92, c]
  else if c = 8 then [92, 98]
  else if c = 12 then [92, 102]
  else if c = 10 then [92, 110]
  else if c = 13 then [92, 114]
  else if c = 9 then [92, 116]
  -- `<`, `>` and `&` are escaped as the control characters are.
  else if c < 32 ∨ c = 60 ∨ c = 62 ∨ c = 38 then
    bytes "\\u00" ++ [hexDigit (c.toNat / 16), hexDigit (c.toNat % 16)]
  else [c]

def digits (n : Nat) : Bytes := (Nat.toDigits 10 n).map fun c => c.toNat.toUInt8

def jsonInt (n : Int) : Bytes := if n < 0 then 45 :: digits n.natAbs else digits n.natAbs

/- `writeJSON` of the struct of a session. -/
def sessionJSON (room : RoomId) (expiresAt : Time) : Bytes :=
  bytes "\x7b\"authenticated\":true,\"room\":\"" ++ room.flatMap jsonByte ++
    bytes "\",\"expiresAtMs\":" ++ jsonInt (unixMilli expiresAt) ++ bytes "\x7d\n"

def unauthenticatedJSON : Bytes := bytes "\x7b\"authenticated\":false\x7d\n"

def errorJSON (code : String) : Bytes := bytes "\x7b\"error\":\"" ++ bytes code ++ bytes "\"\x7d\n"

/-- The status and the body a handler writes for what its section has answered. -/
def written (heap : SessionId → Session) : Answer → Nat × Bytes
  | .authenticated s => (200, sessionJSON (heap s).room (heap s).expiresAt)
  | .created s => (200, sessionJSON (heap s).room (heap s).expiresAt)
  | .sessionCapacity => (503, errorJSON "session_capacity")
  | .deleted => (204, [])
  | .unauthenticated => (401, unauthenticatedJSON)
  | .pruned => (204, [])

/- `response.json()`. -/
def readBody (body : Bytes) : Value := (decodeUTF8 body).bind jsonParse

def received (answer : Nat × Bytes) : Fetched := .response answer.1 (readBody answer.2)

def chars (b : Bytes) : Text := b.map fun c => Char.ofNat c.toNat

theorem chars_append (a b : Bytes) : chars (a ++ b) = chars a ++ chars b := List.map_append

theorem decodeUTF8_ascii {b : Bytes} (ascii : ∀ c ∈ b, c < 0x80) : decodeUTF8 b = some (chars b) := by
  induction b with
  | nil => rfl
  | cons c b ih =>
    have later := ih fun d member => ascii d (List.mem_cons_of_mem c member)
    rw [decodeUTF8.eq_def]
    simp only [if_pos (ascii c List.mem_cons_self), later, Option.map_some]
    rfl

theorem chars_digits (n : Nat) : chars (digits n) = Nat.toDigits 10 n := by
  have each : ∀ c ∈ Nat.toDigits 10 n, Char.ofNat c.toNat.toUInt8.toNat = c := by
    intro c member
    have digit := Nat.isDigit_of_mem_toDigits (by decide) (by decide) member
    simp only [Char.isDigit, Bool.and_eq_true, decide_eq_true_eq] at digit
    have low : c.toNat ≤ 57 := digit.2
    have same : c.toNat.toUInt8.toNat = c.toNat := by
      rw [UInt8.toNat_ofNat']
      omega
    rw [same, Char.ofNat_toNat]
  rw [chars, digits, List.map_map]
  conv_rhs => rw [← List.map_id (Nat.toDigits 10 n)]
  exact List.map_congr_left each

theorem digits_ascii (n : Nat) : ∀ c ∈ digits n, c < 0x80 := by
  intro c member
  obtain ⟨d, listed, rfl⟩ := List.mem_map.mp member
  have digit := Nat.isDigit_of_mem_toDigits (by decide) (by decide) listed
  simp only [Char.isDigit, Bool.and_eq_true, decide_eq_true_eq] at digit
  have low : d.toNat ≤ 57 := digit.2
  rw [UInt8.lt_iff_toNat_lt, UInt8.toNat_ofNat']
  change d.toNat % 256 < 128
  omega

/-- The characters of a room's name stand for themselves. -/
theorem jsonByte_room {c : UInt8} (named : roomIDCharacter c = true) : jsonByte c = [c] := by
  have each : ∀ c : UInt8, roomIDCharacter c = true → jsonByte c = [c] := by decide +kernel
  exact each c named

theorem roomCharacter_plain {c : UInt8} (named : roomIDCharacter c = true) :
    c < 0x80 ∧ Char.ofNat c.toNat ≠ '"' ∧ Char.ofNat c.toNat ≠ '\\' ∧
      32 ≤ (Char.ofNat c.toNat).toNat ∧ (Char.ofNat c.toNat).toNat = c.toNat := by
  have each : ∀ c : UInt8, roomIDCharacter c = true →
      c < 0x80 ∧ Char.ofNat c.toNat ≠ '"' ∧ Char.ofNat c.toNat ≠ '\\' ∧
        32 ≤ (Char.ofNat c.toNat).toNat ∧ (Char.ofNat c.toNat).toNat = c.toNat := by decide +kernel
  exact each c named

/-- The members of a session, as they are printed. -/
def authenticatedEntry : Entry where
  lead := []
  name := "authenticated".toList
  codes := codes "authenticated"
  value := ['t', 'r', 'u', 'e']
  holds j := j = .bool true

def roomEntry (room : RoomId) : Entry where
  lead := []
  name := "room".toList
  codes := codes "room"
  value := '"' :: (chars room ++ ['"'])
  holds j := j = .string (room.map UInt8.toNat)

def expiresEntry (ms : Nat) : Entry where
  lead := []
  name := "expiresAtMs".toList
  codes := codes "expiresAtMs"
  value := Nat.toDigits 10 ms
  holds j := j = .number ⟨false, Nat.toDigits 10 ms, none, none⟩

def sessionText (room : RoomId) (ms : Nat) : Text :=
  '{' :: (authenticatedEntry.compact ++ (following [roomEntry room, expiresEntry ms] ++ ['}']))

theorem jsonByte_flatMap {room : RoomId} (named : room.all roomIDCharacter = true) :
    room.flatMap jsonByte = room := by
  induction room with
  | nil => rfl
  | cons c room ih =>
    simp only [List.all_cons, Bool.and_eq_true] at named
    rw [List.flatMap_cons, jsonByte_room named.1, ih named.2]
    rfl

theorem decode_sessionJSON {room : RoomId} {expiresAt : Time} {ms : Nat}
    (named : room.all roomIDCharacter = true) (same : unixMilli expiresAt = ms) :
    decodeUTF8 (sessionJSON room expiresAt) = some (sessionText room ms ++ ['\n']) := by
  have plain := List.all_eq_true.mp named
  have number : jsonInt (ms : Int) = digits ms := if_neg (by omega)
  have ascii : ∀ c ∈ sessionJSON room expiresAt, c < 0x80 := by
    have fixed : ∀ c ∈ bytes "\x7b\"authenticated\":true,\"room\":\"" ++
        bytes "\",\"expiresAtMs\":" ++ bytes "\x7d\n", c < 0x80 := by decide +kernel
    intro c member
    rw [sessionJSON, jsonByte_flatMap named, same, number] at member
    simp only [List.mem_append] at member fixed
    rcases member with (((first | listed) | second) | digit) | last
    · exact fixed c (Or.inl (Or.inl first))
    · exact (roomCharacter_plain (plain c listed)).1
    · exact fixed c (Or.inl (Or.inr second))
    · exact digits_ascii ms c digit
    · exact fixed c (Or.inr last)
  rw [decodeUTF8_ascii ascii, sessionJSON, jsonByte_flatMap named, same, number]
  simp only [chars_append, chars_digits]
  have first : chars (bytes "\x7b\"authenticated\":true,\"room\":\"") =
      '{' :: (authenticatedEntry.compact ++ (',' :: '"' :: ("room".toList ++ ['"', ':', '"']))) := by
    decide
  have second : chars (bytes "\",\"expiresAtMs\":") =
      '"' :: ',' :: '"' :: ("expiresAtMs".toList ++ ['"', ':']) := by decide
  have last : chars (bytes "\x7d\n") = ['}', '\n'] := by decide
  rw [first, second, last]
  simp [sessionText, following, Entry.compact, roomEntry, expiresEntry]

theorem natOf_toDigits (n : Nat) : natOf (Nat.toDigits 10 n) = n := by
  have back := Nat.ofDigitChars_toDigits (b := 10) (n := n) (by decide) (by decide)
  rw [Nat.ofDigitChars_eq_foldl] at back
  rw [natOf]
  simp only [Nat.mul_comm] at back
  exact back

theorem safeInteger_toDigits {ms : Nat} (small : ms < 2 ^ 53) :
    safeInteger ⟨false, Nat.toDigits 10 ms, none, none⟩ = some (ms : Int) := by
  have value : (|numerator ⟨false, Nat.toDigits 10 ms, none, none⟩| : ℚ) /
      denominator ⟨false, Nat.toDigits 10 ms, none, none⟩ = ms := by
    simp [numerator, denominator, RadarProtocol.exponent, signed, natOf_toDigits]
  simp only [safeInteger]
  push_cast at value ⊢
  rw [value, Binary64.nearest_natCast small]
  split
  · next tiny =>
    have zero : ms = 0 := by
      by_contra positive
      have one : (1 : ℚ) ≤ ms := by exact_mod_cast Nat.one_le_iff_ne_zero.mpr positive
      have big : (1 : ℚ) < 2 ^ 1075 := one_lt_pow₀ (by norm_num) (by norm_num)
      exact absurd tiny (not_le.mpr (one_lt_mul_of_le_of_lt one big))
    rw [zero]
    rfl
  · rw [if_pos]
    · simp
    · refine ⟨Rat.den_natCast ms, ?_⟩
      rw [Rat.num_natCast]
      omega

theorem spells_name {name : String}
    (fine : ∀ c ∈ name.toList, c ≠ '"' ∧ c ≠ '\\' ∧ 32 ≤ c.toNat ∧ c.toNat < 256) :
    Spells name.toList (codes name) := spells_plain fine

theorem spells_room {room : RoomId} (named : room.all roomIDCharacter = true) :
    Spells (chars room) (room.map UInt8.toNat) := by
  have plain := List.all_eq_true.mp named
  have fine : ∀ c ∈ chars room, c ≠ '"' ∧ c ≠ '\\' ∧ 32 ≤ c.toNat ∧ c.toNat < 256 := by
    intro c member
    obtain ⟨b, listed, rfl⟩ := List.mem_map.mp member
    obtain ⟨low, quote, backslash, printed, same⟩ := roomCharacter_plain (plain b listed)
    exact ⟨quote, backslash, printed, by rw [same]; exact b.toNat_lt⟩
  have back : (chars room).map Char.toNat = room.map UInt8.toNat := by
    rw [chars, List.map_map]
    exact List.map_congr_left fun b listed => (roomCharacter_plain (plain b listed)).2.2.2.2
  have spells := spells_plain fine
  rw [back] at spells
  exact spells

theorem entries_good {room : RoomId} (named : room.all roomIDCharacter = true) (ms depth : Nat) :
    authenticatedEntry.Good (scanValue depth) ∧
      ∀ e ∈ [roomEntry room, expiresEntry ms], e.Good (scanValue depth) := by
  have none_ : Blanks [] := List.forall_mem_nil _
  refine ⟨⟨none_, spells_name (by simp), parses_true⟩, fun e member => ?_⟩
  rcases List.mem_cons.mp member with rfl | member
  · exact ⟨none_, spells_name (by simp), parses_string (spells_room named)⟩
  · cases List.mem_singleton.mp member
    exact ⟨none_, spells_name (by simp), parses_number (plain_toDigits ms)⟩

theorem utf16Length_room (room : RoomId) : utf16Length (room.map UInt8.toNat) = room.length := by
  induction room with
  | nil => rfl
  | cons c room ih =>
    have low : c.toNat < 0x10000 := Nat.lt_trans c.toNat_lt (by decide)
    simp only [utf16Length, List.map_cons, List.sum_cons, if_pos low, List.length_cons] at ih ⊢
    omega

theorem parseSession_sessionText {room : RoomId} (named : matchesRoomID room = true) {ms : Nat}
    (small : ms < 2 ^ 53) : ∃ j, jsonParse (sessionText room ms ++ ['\n']) = some j ∧
      parseSession (some j) = some ⟨room.map UInt8.toNat, ms⟩ := by
  simp only [matchesRoomID, Bool.and_eq_true, decide_eq_true_eq] at named
  obtain ⟨⟨long, short⟩, each⟩ := named
  obtain ⟨first, later⟩ := entries_good each ms 0
  have ends : Delimited ['\n'] := by
    intro c s same
    cases same
    exact Or.inl rfl
  obtain ⟨j, scanned, members, rfl, matched⟩ := (parses_compact later first).scans ['\n'] ends
  refine ⟨.object members, ?_, ?_⟩
  · have deep : scanValue (sessionText room ms ++ ['\n']).length (sessionText room ms ++ ['\n']) =
        some (.object members, ['\n']) := scan_value_extends _ _ (Nat.le_refl _) scanned
    rw [jsonParse, deep]
    rfl
  · cases matched with
    | cons authenticated rest =>
      cases rest with
      | cons roomed rest =>
        cases rest with
        | cons expires rest =>
          cases rest
          obtain ⟨name₁, value₁⟩ := authenticated
          obtain ⟨name₂, value₂⟩ := roomed
          obtain ⟨name₃, value₃⟩ := expires
          have apart : codes "authenticated" ≠ codes "room" ∧ codes "authenticated" ≠ codes "expiresAtMs" ∧
              codes "room" ≠ codes "expiresAtMs" := by decide
          simp only [authenticatedEntry, roomEntry, expiresEntry] at name₁ name₂ name₃ value₁ value₂ value₃
          simp [parseSession, property, lastNamed, List.filter, name₁, name₂, name₃, value₁, value₂,
            value₃, apart.1, apart.1.symm, apart.2.1, apart.2.1.symm, apart.2.2, apart.2.2.symm,
            safeInteger_toDigits small, utf16Length_room, short, Nat.lt_of_lt_of_le (by decide : 0 < 3) long]

theorem unixMilli_mono : Monotone unixMilli := by
  intro s t le
  have earlier : s - unixEpoch ≤ t - unixEpoch := Int.sub_le_sub_right le unixEpoch
  exact Int.ediv_le_ediv (by decide) earlier

/-- The page's clock, in whole milliseconds, is not past the expiry it has read before the
    relay's clock is. -/
theorem alive_of_unixMilli_lt {t expiresAt : Time} (before : unixMilli t < unixMilli expiresAt) :
    t < expiresAt := by
  by_contra late
  have later := unixMilli_mono (not_lt.mp late)
  omega

/-- What the page reads of a session it is told of. -/
def readAs (session : Session) : RelaySession :=
  ⟨session.room.map UInt8.toNat, unixMilli session.expiresAt⟩

/-- The room's name is one `Validate` takes, and the expiry a safe integer of milliseconds. -/
def Telling (session : Session) : Prop :=
  matchesRoomID session.room = true ∧ 0 ≤ unixMilli session.expiresAt ∧
    unixMilli session.expiresAt < 2 ^ 53

theorem read_sessionJSON {session : Session} (telling : Telling session) :
    ∃ j, readBody (sessionJSON session.room session.expiresAt) = some j ∧
      parseSession (some j) = some (readAs session) := by
  obtain ⟨named, low, high⟩ := telling
  obtain ⟨ms, same⟩ := Int.eq_ofNat_of_zero_le low
  have small : ms < 2 ^ 53 := by omega
  have each : session.room.all roomIDCharacter = true := by
    simp only [matchesRoomID, Bool.and_eq_true] at named
    exact named.2
  obtain ⟨j, parsed, read⟩ := parseSession_sessionText named small
  refine ⟨j, ?_, ?_⟩
  · rw [readBody, decode_sessionJSON each same, Option.bind_some, parsed]
  · rw [readAs, same]
    exact read

/-- For every session map, clock and cookie the page's probe comes out as the relay has decided:
    with the room and the expiry of the very session the cookie names, or unauthenticated. What
    the page then holds to be alive by the same clock is alive for the relay. -/
theorem probe_as_decided {sum : Bytes → Digest} {heap : SessionId → Session}
    {sessions : Sessions} {now : Time} {cookie : Option Bytes}
    (telling : ∀ d s, sessions.lookup d = some s → Telling (heap s)) :
    (∃ s, (authenticateSection sum heap sessions now cookie).answer = .authenticated s ∧
      (heap s).valid now = true ∧
      probeRelaySession (received (written heap
        (authenticateSection sum heap sessions now cookie).answer)) =
          .ok (.authenticated (readAs (heap s))) ∧
      ∀ t, unixMilli t < (readAs (heap s)).expiresAtMs → t < (heap s).expiresAt) ∨
    ((authenticateSection sum heap sessions now cookie).answer = .unauthenticated ∧
      probeRelaySession (received (written heap
        (authenticateSection sum heap sessions now cookie).answer)) = .ok .unauthenticated) := by
  have refused : ∀ answer, answer = .unauthenticated →
      probeRelaySession (received (written heap answer)) = .ok .unauthenticated := by
    intro answer same
    subst same
    rfl
  unfold authenticateSection
  cases cookie with
  | none => exact Or.inr ⟨rfl, refused _ rfl⟩
  | some value =>
    simp only
    split
    · exact Or.inr ⟨rfl, refused _ rfl⟩
    · split
      · exact Or.inr ⟨rfl, refused _ rfl⟩
      · next current found =>
        split
        · next valid =>
          obtain ⟨j, body, parsed⟩ := read_sessionJSON (telling _ _ found)
          refine Or.inl ⟨current, rfl, valid, ?_, fun t => alive_of_unixMilli_lt⟩
          have fine : isOk 200 := by decide
          simp [written, received, probeRelaySession, fetchRelay, bind, Except.bind, body, fine,
            readSession, parsed, pure, Except.pure]
        · exact Or.inr ⟨rfl, refused _ rfl⟩

/-- A cookie of one live session. -/
theorem probe_as_decided_sample :
    let token : Bytes := List.replicate 43 97
    let sum : Bytes → Digest := fun token => Vector.replicate 32 (token.headD 0)
    let heap : SessionId → Session := fun _ => newSession [97, 98, 99] (unixEpoch + 5000000000)
    let sessions : Sessions := FiniteTable.empty.insert (sum token) 0
    probeRelaySession (received (written heap
      (authenticateSection sum heap sessions unixEpoch (some token)).answer)) =
        .ok (.authenticated ⟨[97, 98, 99], 5000⟩) := by
  intro token sum heap sessions
  have telling : ∀ d s, sessions.lookup d = some s → Telling (heap s) :=
    fun _ _ _ => ⟨by decide, by decide, by decide⟩
  rcases @probe_as_decided sum heap sessions unixEpoch (some token) telling with known | unknown
  · obtain ⟨s, -, -, probed, -⟩ := known
    exact probed
  · cases unknown.1

/-- The probe of `useRadarStream` asks the same of an answer, but for the session in it. -/
def seen : Fetched → RadarStream.FetchResult
  | .response status body => .response status (parseSession body).isSome
  | .aborted => .aborted
  | .timedOut => .timedOut
  | .failed => .failed

def seenProbe : RelaySessionProbe → RadarStream.SessionProbe
  | .authenticated _ => .authenticated
  | .unauthenticated => .unauthenticated
  | .unavailable => .unavailable

theorem stream_probe (result : Fetched) :
    (RadarStream.probeRelaySession (seen result)).toOption =
      (probeRelaySession result).toOption.map seenProbe := by
  cases result with
  | response status body =>
    have read : (readSession body).toOption = parseSession body := by
      cases body with
      | none => rfl
      | some j =>
        simp only [readSession, Option.isNone_some, Bool.false_eq_true, if_false]
        cases parseSession (some j) <;> rfl
    simp only [seen, RadarStream.probeRelaySession, probeRelaySession, fetchRelay, bind, Except.bind]
    by_cases unauthorized : status = 401
    · simp only [if_pos unauthorized]
      rfl
    · by_cases forbidden : status = 403
      · simp only [if_neg unauthorized, if_pos forbidden]
        rfl
      · by_cases absent : status = 404
        · simp only [if_neg unauthorized, if_neg forbidden, if_pos absent]
          rfl
        · by_cases failed : status < 200 ∨ 299 < status
          · have refused : ¬ isOk status := by
              unfold isOk
              omega
            simp only [if_neg unauthorized, if_neg forbidden, if_neg absent, if_pos failed,
              if_pos refused]
            rfl
          · have fine : ¬ ¬ isOk status := by
              unfold isOk
              omega
            simp only [if_neg unauthorized, if_neg forbidden, if_neg absent, if_neg failed,
              if_neg fine, ← read]
            cases readSession body <;> rfl
  | _ => rfl

end RelayAnswer
