import Mathlib.Algebra.Order.Group.Abs
import GameSecurity.RelayProtocol

/- The browser's reading of a stream message. A JavaScript value is a parsed JSON value, with
   none for `undefined`; of a number the checks ask only what rounding to a double leaves. -/
namespace RadarProtocol
open RelayRoom RelayConfig JsonText RelayProtocol

abbrev Value := Option Json

def jsonParse (raw : Text) : Value :=
  match scanValue raw.length raw with
  | some (value, rest) => if skip rest = [] then some value else none
  | none => none

/-- Names are exact, and of several members of one name the last counts. -/
def lastNamed (key : List Nat) (members : List (Member Json)) : Option (Member Json) :=
  (members.filter fun m => decide (m.name = key)).getLast?

def property (value : Value) (key : List Nat) : Value :=
  match value with
  | some (.object members) => (lastNamed key members).map Member.value
  | _ => none

def isRecord : Value → Bool
  | some (.object _) => true
  | _ => false

def isArray : Value → Bool
  | some (.array _) => true
  | _ => false

def every (check : Value → Bool) : Value → Bool
  | some (.array items) => items.all fun item => check (some item)
  | _ => false

def isString : Value → Bool
  | some (.string _) => true
  | _ => false

def isOneOf (texts : List String) : Value → Bool
  | some (.string text) => texts.any fun t => decide (text = codes t)
  | _ => false

def isBoolean : Value → Bool
  | some (.bool _) => true
  | _ => false

def isNull : Value → Bool
  | some .null => true
  | _ => false

def isUndefined (value : Value) : Bool := value.isNone

/-- A number as a quotient. -/
def exponent (n : Number) : Int :=
  let written : Int := match n.exponent with
    | some (negative, digits) => if negative then -natOf digits else natOf digits
    | none => 0
  written - (n.fraction.getD []).length

def numerator (n : Number) : Int :=
  signed n (natOf (n.whole ++ n.fraction.getD []) * 10 ^ (exponent n).toNat)

def denominator (n : Number) : Int := 10 ^ (-exponent n).toNat

/-- The halves of the gaps around one, and the least magnitude that rounds to infinity. -/
def roundsToOne (n : Number) : Bool :=
  decide ((2 ^ 54 - 1) * denominator n ≤ 2 ^ 54 * numerator n) &&
    decide (2 ^ 54 * numerator n ≤ (2 ^ 54 + 2) * denominator n)

def roundsToFinite (n : Number) : Bool :=
  decide (|numerator n| < (2 ^ 1024 - 2 ^ 970) * denominator n)

def isOne : Value → Bool
  | some (.number n) => roundsToOne n
  | _ => false

def isFiniteNumber : Value → Bool
  | some (.number n) => roundsToFinite n
  | _ => false

def isVector3 (value : Value) : Bool :=
  isRecord value && isFiniteNumber (property value (codes "x")) &&
    isFiniteNumber (property value (codes "y")) && isFiniteNumber (property value (codes "z"))

def isWeapon (value : Value) : Bool := isRecord value && isString (property value (codes "name"))

def teams : List String := ["T", "CT", "SPEC", "NONE"]
def bombStates : List String :=
  ["unknown", "carried", "dropped", "planted", "defused", "exploded"]
def bombSites : List String := ["a", "b", "unknown"]

/- `value === undefined || value === null || check(value)`. -/
def absentOr (check : Value → Bool) (value : Value) : Bool :=
  isUndefined value || isNull value || check value

def isPlayer (value : Value) : Bool :=
  let field name := property value (codes name)
  isRecord value && isString (field "id") && absentOr isString (field "steamId") &&
    (isString (field "name") || isNull (field "name")) &&
    isString (field "team") && isOneOf teams (field "team") && isBoolean (field "alive") &&
    (isVector3 (field "position") || isNull (field "position")) &&
    (isFiniteNumber (field "yaw") || isNull (field "yaw")) &&
    isFiniteNumber (field "health") && isFiniteNumber (field "armor") &&
    isFiniteNumber (field "money") && absentOr isWeapon (field "activeWeapon") &&
    (isUndefined (field "inventory") || every isWeapon (field "inventory")) &&
    (isUndefined (field "weapons") || every isWeapon (field "weapons"))

def isBomb (value : Value) : Bool :=
  let field name := property value (codes name)
  isRecord value && isString (field "state") && isOneOf bombStates (field "state") &&
    (isUndefined (field "site") || isOneOf bombSites (field "site")) &&
    absentOr isVector3 (field "position") && absentOr isString (field "carrierPlayerId") &&
    absentOr isString (field "carrierId") && absentOr isFiniteNumber (field "explodeInSeconds") &&
    absentOr isFiniteNumber (field "defuseInSeconds") &&
    absentOr isFiniteNumber (field "explodeAtMs") && absentOr isFiniteNumber (field "defuseEndAtMs")

inductive ServerMessage
  | hello (value : Value)
  | error (value : Value)
  | snapshot (value : Value)

/-- The checks of a message of the type `snapshot`, in their order. -/
def isSnapshot (value : Value) : Bool :=
  let field name := property value (codes name)
  isRecord (field "map") && isString (property (field "map") (codes "id")) &&
    every isPlayer (field "players") && isBomb (field "bomb") &&
    isFiniteNumber (field "seq") && isFiniteNumber (field "capturedAtMs") &&
    absentOr isString (field "localPlayerId") && absentOr isString (field "observedPlayerId") &&
    (isUndefined (field "localTeam") || isOneOf teams (field "localTeam"))

def parseServerMessage (raw : Text) : Option ServerMessage :=
  let value := jsonParse raw
  let field name := property value (codes name)
  if (isRecord value && isOne (field "v") && isString (field "type")) = false then none
  else if isOneOf ["hello"] (field "type") then
    if isFiniteNumber (field "serverTimeMs") then some (.hello value) else none
  else if isOneOf ["error"] (field "type") then
    if isString (field "code") && isString (field "message") then some (.error value) else none
  else if (isOneOf ["snapshot"] (field "type") && isSnapshot value) = false then none
  else some (.snapshot value)

/-- What the browser asks of a field of the envelope. -/
def envelopeCheck : Field → Value → Bool
  | .version => isOne
  | .type => isOneOf ["snapshot"]
  | .protocolVersion => fun _ => true
  | .sequence => isFiniteNumber
  | .capturedAtMs => isFiniteNumber
  | .map => isRecord
  | .players => isArray
  | .bomb => isRecord

def passesEnvelope (value : Value) : Bool :=
  isRecord value && fields.all fun f => envelopeCheck f (property value f.key)

/-- The relay's check of a field, on the value a single member gives it. -/
def relayTakes (f : Field) (m : Member Json) : Bool :=
  match zero.store m f with
  | none => false
  | some e =>
    match f with
    | .version => decide (e.version = 1)
    | .type => decide (e.type = codes "snapshot")
    | .protocolVersion => decide (e.protocolVersion = 1)
    | .sequence => e.sequence.isSome
    | .capturedAtMs => e.capturedAtMs.isSome
    | .map => isJSONObject e.map
    | .players => isJSONArray e.players
    | .bomb => isJSONObject e.bomb

/-- The members of the object that the payload is. -/
def membersOf (payload : Bytes) : List (Member Json) :=
  match readPayload payload with
  | .ok (.object members, _) => members
  | _ => []

/-- The field has a member of exactly its name, and the last of them alone would satisfy
   the relay: nothing rests on another spelling, or on an older value that a null keeps. -/
def SpelledExactly (payload : Bytes) (f : Field) : Prop :=
  ∃ m, lastNamed f.key (membersOf payload) = some m ∧ relayTakes f m = true

/-- What the browser's parser makes of the payload passes its envelope checks. -/
def BrowserAgrees (payload : Bytes) : Prop :=
  ∃ text, decodeUTF8 payload = some text ∧ passesEnvelope (jsonParse text) = true

theorem every_array {check : Value → Bool} {value : Value} (h : every check value = true) :
    isArray value = true := by
  match value, h with
  | some (.array _), _ => rfl

theorem isBomb_record {value : Value} (h : isBomb value = true) : isRecord value = true := by
  simp only [isBomb, Bool.and_eq_true] at h
  exact h.1.1.1.1.1.1.1.1.1.1

theorem parseServerMessage_snapshot {raw : Text} {value : Value}
    (h : parseServerMessage raw = some (.snapshot value)) :
    value = jsonParse raw ∧ isRecord value = true ∧ isOne (property value (codes "v")) = true ∧
      isOneOf ["snapshot"] (property value (codes "type")) = true ∧ isSnapshot value = true := by
  unfold parseServerMessage at h
  generalize jsonParse raw = parsed at h ⊢
  simp only at h
  split at h
  · cases h
  · rename_i record
    split at h
    · split at h <;> cases h
    · split at h
      · split at h <;> cases h
      · split at h
        · cases h
        · rename_i snapshot
          cases h
          simp only [Bool.not_eq_false, Bool.and_eq_true] at record snapshot
          exact ⟨rfl, record.1.1, record.1.2, snapshot.1, snapshot.2⟩

/-- The checks of the envelope are among those the browser makes of a snapshot. -/
theorem snapshot_passes {raw : Text} {value : Value}
    (h : parseServerMessage raw = some (.snapshot value)) : passesEnvelope value = true := by
  obtain ⟨-, record, version, type, checks⟩ := parseServerMessage_snapshot h
  simp only [isSnapshot, Bool.and_eq_true] at checks
  obtain ⟨⟨⟨⟨⟨⟨⟨⟨map, -⟩, players⟩, bomb⟩, seq⟩, captured⟩, -⟩, -⟩, -⟩ := checks
  have each : ∀ f, envelopeCheck f (property value f.key) = true := by
    intro f
    cases f with
    | version => exact version
    | type => exact type
    | protocolVersion => rfl
    | sequence => exact seq
    | capturedAtMs => exact captured
    | map => exact map
    | players => exact every_array players
    | bomb => exact isBomb_record bomb
  rw [passesEnvelope, record, Bool.true_and, List.all_eq_true]
  exact fun f _ => each f

/-- Both decoders agree on the ends of a container's text. -/
theorem enclosed_of_ends {first last : Char} {inside : Text} (opens : isSpace first = false)
    (closes : isSpace last = false) :
    enclosed first last (first :: (inside ++ [last])) = true := by
  have kept : trimSpace (first :: (inside ++ [last])) = (first :: inside) ++ [last] := by
    rw [trimSpace, List.dropWhile_cons_of_neg (by simp [opens]), ← List.cons_append,
      List.rdropWhile_concat_neg _ _ _ (by simp [closes])]
  have ends : (first :: (inside ++ [last])).getLast? = some last := by
    rw [← List.cons_append]
    exact List.getLast?_concat
  simp [enclosed, kept, ends]

theorem not_enclosed {first last c : Char} {more : Text} (visible : isSpace c = false)
    (other : c ≠ first) : enclosed first last (c :: more) = false := by
  have start : trimSpace (c :: more) <+: c :: more := by
    rw [trimSpace, List.dropWhile_cons_of_neg (by simp [visible])]
    exact List.rdropWhile_prefix _ _
  cases shape : trimSpace (c :: more) with
  | nil => simp [enclosed, shape]
  | cons head rest =>
    rw [shape, List.cons_prefix_cons] at start
    have wrong : head ≠ first := start.1 ▸ other
    simp [enclosed, shape, wrong]

theorem scalar_start {c : Char} (h : startsScalar c = true) :
    isSpace c = false ∧ c ≠ '{' ∧ c ≠ '[' := by
  simp only [startsScalar, Bool.or_eq_true, beq_iff_eq] at h
  rcases h with ((((rfl | rfl) | rfl) | rfl) | rfl) | digit
  · decide
  · decide
  · decide
  · decide
  · decide
  · have low : 48 ≤ c.toNat ∧ c.toNat ≤ 57 := by
      simp only [Char.isDigit, Bool.and_eq_true, decide_eq_true_eq] at digit
      exact ⟨digit.1, digit.2⟩
    refine ⟨?_, ?_, ?_⟩
    · simp [isSpace]
      omega
    · rintro rfl
      simp at low
    · rintro rfl
      simp at low

/-- The relay looks at the ends of a member's text, the browser at its value. -/
theorem isJSONObject_spelled {raw : Text} {v : Json} (h : Spells raw v) :
    isJSONObject raw = isRecord (some v) := by
  cases v with
  | object members =>
    obtain ⟨inside, rfl⟩ := h
    exact enclosed_of_ends (by decide) (by decide)
  | array items =>
    obtain ⟨inside, rfl⟩ := h
    exact not_enclosed (by decide) (by decide)
  | null | bool _ | number _ | string _ =>
    obtain ⟨c, more, rfl, start⟩ := h
    obtain ⟨visible, brace, -⟩ := scalar_start start
    exact not_enclosed visible brace

theorem isJSONArray_spelled {raw : Text} {v : Json} (h : Spells raw v) :
    isJSONArray raw = isArray (some v) := by
  cases v with
  | object members =>
    obtain ⟨inside, rfl⟩ := h
    exact not_enclosed (by decide) (by decide)
  | array items =>
    obtain ⟨inside, rfl⟩ := h
    exact enclosed_of_ends (by decide) (by decide)
  | null | bool _ | number _ | string _ =>
    obtain ⟨c, more, rfl, start⟩ := h
    obtain ⟨visible, -, bracket⟩ := scalar_start start
    exact not_enclosed visible bracket

/-- An integer is its own quotient. -/
theorem whole_number {n : Number} (fraction : n.fraction = none) (exponent_ : n.exponent = none) :
    numerator n = signed n (natOf n.whole) ∧ denominator n = 1 := by
  simp [numerator, denominator, exponent, fraction, exponent_]

theorem parse_int_some {n : Number} {k : Int} (h : parseInt n = some k) :
    numerator n = k ∧ denominator n = 1 ∧ -2 ^ 63 ≤ k ∧ k < 2 ^ 63 := by
  simp only [parseInt] at h
  split at h
  · rename_i ok
    obtain ⟨fraction, exponent_, low, high⟩ := ok
    obtain ⟨top, bottom⟩ := whole_number fraction exponent_
    cases h
    exact ⟨top, bottom, low, high⟩
  · cases h

theorem parse_uint_some {n : Number} {k : Nat} (h : parseUint n = some k) :
    numerator n = k ∧ denominator n = 1 ∧ (k : Int) < 2 ^ 64 := by
  simp only [parseUint] at h
  split at h
  · rename_i ok
    obtain ⟨positive, fraction, exponent_, high⟩ := ok
    obtain ⟨top, bottom⟩ := whole_number fraction exponent_
    cases h
    have plain : signed n (natOf n.whole) = natOf n.whole := by simp [signed, positive]
    exact ⟨top.trans plain, bottom, by exact_mod_cast high⟩
  · cases h

theorem rounds_to_finite {n : Number} (whole : denominator n = 1) (low : -2 ^ 64 < numerator n)
    (high : numerator n < 2 ^ 64) : roundsToFinite n = true := by
  have bound : (2 : Int) ^ 64 ≤ 2 ^ 1024 - 2 ^ 970 := by decide +kernel
  rw [roundsToFinite, whole, mul_one, decide_eq_true_eq, abs_lt]
  exact ⟨Int.lt_of_le_of_lt (Int.neg_le_neg bound) low, Int.lt_of_lt_of_le high bound⟩

theorem rounds_to_one {n : Number} (whole : denominator n = 1) :
    roundsToOne n = decide (numerator n = 1) := by
  rw [roundsToOne, whole, ← Bool.decide_and, decide_eq_decide]
  omega

theorem goString_id {text : List Nat} (plain : ∀ c ∈ text, ¬ (0xD800 ≤ c ∧ c < 0xE000)) :
    goString text = text :=
  (List.map_congr_left fun c listed => if_neg (plain c listed)).trans (List.map_id text)

/-- The replacement of surrogates cannot produce an ASCII text. -/
theorem goString_eq_iff {text key : List Nat} (ascii : ∀ c ∈ key, c < 128) :
    goString text = key ↔ text = key := by
  constructor
  · rintro rfl
    refine (goString_id fun c listed surrogate => ?_).symm
    have low := ascii _ (List.mem_map_of_mem listed)
    rw [if_pos surrogate] at low
    omega
  · rintro rfl
    exact goString_id fun c listed surrogate => by
      have low := ascii c listed
      omega

/-- On a member that decodes, the browser's check of the value is the relay's. -/
theorem field_agrees {f : Field} {m : Member Json} {alone : Envelope}
    (spelled : Spells m.raw m.value) (decodes : zero.store m f = some alone)
    (checked : f ≠ .protocolVersion) : envelopeCheck f (some m.value) = relayTakes f m := by
  simp only [relayTakes, decodes]
  cases f with
  | version =>
    obtain ⟨v, stored, rfl⟩ := Option.map_eq_some_iff.mp decodes
    cases value : m.value with
    | null =>
      rw [value] at stored
      cases stored
      rfl
    | number n =>
      rw [value] at stored
      obtain ⟨top, bottom, -⟩ := parse_int_some stored
      simp only [envelopeCheck, isOne, rounds_to_one bottom, top]
    | bool _ | string _ | array _ | object _ =>
      rw [value] at stored
      cases stored
  | type =>
    obtain ⟨v, stored, rfl⟩ := Option.map_eq_some_iff.mp decodes
    cases value : m.value with
    | null =>
      rw [value] at stored
      cases stored
      rfl
    | string text =>
      rw [value] at stored
      cases stored
      simp only [envelopeCheck, isOneOf, List.any_cons, List.any_nil, Bool.or_false,
        decide_eq_decide]
      exact (goString_eq_iff (by decide)).symm
    | bool _ | number _ | array _ | object _ =>
      rw [value] at stored
      cases stored
  | protocolVersion => exact absurd rfl checked
  | sequence =>
    obtain ⟨v, stored, rfl⟩ := Option.map_eq_some_iff.mp decodes
    cases value : m.value with
    | null =>
      rw [value] at stored
      cases stored
      rfl
    | number n =>
      rw [value] at stored
      obtain ⟨k, parsed, rfl⟩ := Option.map_eq_some_iff.mp stored
      obtain ⟨top, bottom, high⟩ := parse_uint_some parsed
      change roundsToFinite n = true
      exact rounds_to_finite bottom (by omega) (by omega)
    | bool _ | string _ | array _ | object _ =>
      rw [value] at stored
      cases stored
  | capturedAtMs =>
    obtain ⟨v, stored, rfl⟩ := Option.map_eq_some_iff.mp decodes
    cases value : m.value with
    | null =>
      rw [value] at stored
      cases stored
      rfl
    | number n =>
      rw [value] at stored
      obtain ⟨k, parsed, rfl⟩ := Option.map_eq_some_iff.mp stored
      obtain ⟨top, bottom, low, high⟩ := parse_int_some parsed
      change roundsToFinite n = true
      exact rounds_to_finite bottom (by omega) (by omega)
    | bool _ | string _ | array _ | object _ =>
      rw [value] at stored
      cases stored
  | map =>
    cases decodes
    exact (isJSONObject_spelled spelled).symm
  | players =>
    cases decodes
    exact (isJSONArray_spelled spelled).symm
  | bomb =>
    cases decodes
    exact (isJSONObject_spelled spelled).symm

theorem lastNamed_some {key : List Nat} {members : List (Member Json)} {m : Member Json}
    (h : lastNamed key members = some m) : m ∈ members ∧ m.name = key := by
  have listed := List.mem_of_getLast? h
  simpa using listed

theorem envelopeCheck_none {f : Field} (checked : f ≠ .protocolVersion) :
    envelopeCheck f none = false := by
  cases f with
  | protocolVersion => exact absurd rfl checked
  | version | type | sequence | capturedAtMs | map | players | bomb => rfl

theorem agrees_iff {payload : Bytes} {time : Int} (accepted : validateSnapshot payload = .ok time) :
    BrowserAgrees payload ↔ ∀ f, f ≠ .protocolVersion → SpelledExactly payload f := by
  obtain ⟨members, trailing, e, read, blank, decoded, -⟩ := validateSnapshot_ok accepted
  obtain ⟨text, utf8, scanned⟩ := readPayload_ok_iff.mp read
  have longer : scanValue text.length text = some (.object members, trailing) :=
    scan_value_extends text _ le_rfl scanned
  have parsed : jsonParse text = some (.object members) := by
    simp only [jsonParse, longer, if_pos blank]
  have listed : membersOf payload = members := by simp only [membersOf, read]
  obtain ⟨-, -, -, spelled⟩ := scan_value_reads maxNestingDepth text _ _ scanned
  have same : ∀ f, f ≠ .protocolVersion →
      (envelopeCheck f (property (some (.object members)) f.key) = true ↔
        SpelledExactly payload f) := by
    intro f checked
    simp only [SpelledExactly, listed, property]
    cases found : lastNamed f.key members with
    | none =>
      simp only [Option.map_none, envelopeCheck_none checked]
      constructor
      · intro wrong
        cases wrong
      · rintro ⟨m, wrong, -⟩
        cases wrong
    | some m =>
      obtain ⟨member, name⟩ := lastNamed_some found
      obtain ⟨alone, decodes⟩ := members_decode decoded m member f (name ▸ findField_key f)
      have agrees := field_agrees (spelled members rfl m member) decodes checked
      simp only [Option.map_some, agrees, Option.some.injEq, exists_eq_left']
  constructor
  · rintro ⟨text_, utf8_, passes⟩ f checked
    rw [utf8] at utf8_
    cases utf8_
    rw [parsed, passesEnvelope, Bool.and_eq_true, List.all_eq_true] at passes
    have member : f ∈ fields := by cases f <;> decide
    exact (same f checked).mp (passes.2 f member)
  · intro exact_
    refine ⟨text, utf8, ?_⟩
    rw [parsed, passesEnvelope, Bool.and_eq_true, List.all_eq_true]
    refine ⟨rfl, fun f _ => ?_⟩
    by_cases checked : f = .protocolVersion
    · subst f
      rfl
    · exact (same f checked).mpr (exact_ f checked)

/-- An accepted payload passes the browser's checks of the envelope exactly when each field
   the browser reads is spelled as in the protocol and settled by its last such member. Any
   other is broadcast for nothing: the browser makes no snapshot of it. -/
theorem snapshot_envelope (payload : Bytes) (time : Int)
    (accepted : validateSnapshot payload = .ok time) :
    (BrowserAgrees payload ↔ ∀ f, f ≠ .protocolVersion → SpelledExactly payload f) ∧
      ((∃ f, f ≠ .protocolVersion ∧ ¬ SpelledExactly payload f) →
        ∀ text value, decodeUTF8 payload = some text →
          parseServerMessage text ≠ some (.snapshot value)) := by
  refine ⟨agrees_iff accepted, ?_⟩
  rintro ⟨f, checked, other⟩ text value utf8 parsed
  have same := (parseServerMessage_snapshot parsed).1
  have agrees : BrowserAgrees payload := ⟨text, utf8, same ▸ snapshot_passes parsed⟩
  exact other ((agrees_iff accepted).mp agrees f checked)

/-- A small snapshot whose version stands under the given name. -/
def frame (version : String) : Bytes :=
  bytes ("\x7b\"" ++ version ++ "\":1,\"type\":\"snapshot\",\"protocolVersion\":1,\"seq\":7," ++
    "\"capturedAtMs\":9,\"map\":\x7b\"id\":\"de_dust2\"\x7d,\"players\":[]," ++
    "\"bomb\":\x7b\"state\":\"unknown\"\x7d\x7d")

example : ((decodeUTF8 (frame "v")).bind parseServerMessage).isSome = true := by decide +kernel

theorem snapshot_envelope_lower_case :
    validateSnapshot (frame "v") = .ok 9 ∧
      ∀ f, f ≠ .protocolVersion → SpelledExactly (frame "v") f := by
  have accepted : validateSnapshot (frame "v") = .ok 9 := by decide +kernel
  have passes : ((decodeUTF8 (frame "v")).map fun text => passesEnvelope (jsonParse text)) =
      some true := by decide +kernel
  obtain ⟨text, utf8, agrees⟩ := Option.map_eq_some_iff.mp passes
  exact ⟨accepted, (snapshot_envelope (frame "v") 9 accepted).1.mp ⟨text, utf8, agrees⟩⟩

/-- The relay takes `V` for `v`, the browser does not. -/
theorem snapshot_envelope_upper_case :
    validateSnapshot (frame "V") = .ok 9 ∧ ¬ BrowserAgrees (frame "V") := by
  have accepted : validateSnapshot (frame "V") = .ok 9 := by decide +kernel
  have fails : ((decodeUTF8 (frame "V")).map fun text => passesEnvelope (jsonParse text)) =
      some false := by decide +kernel
  refine ⟨accepted, ?_⟩
  rintro ⟨text, utf8, passes⟩
  rw [utf8, Option.map_some, passes] at fails
  cases fails

end RadarProtocol
