import GameSecurity.JsonText
import GameSecurity.RelayConfig

/- The relay's check of a published snapshot, with what it uses of `encoding/json`. -/
namespace RelayProtocol
open RelayRoom RelayConfig JsonText

/-- The fields of `snapshotEnvelope`. -/
inductive Field
  | version | type | protocolVersion | sequence | capturedAtMs | map | players | bomb
  deriving DecidableEq, Repr

def codes (text : String) : List Nat := text.toList.map Char.toNat

/-- The names in the struct tags. -/
def Field.key : Field → List Nat
  | .version => codes "v"
  | .type => codes "type"
  | .protocolVersion => codes "protocolVersion"
  | .sequence => codes "seq"
  | .capturedAtMs => codes "capturedAtMs"
  | .map => codes "map"
  | .players => codes "players"
  | .bomb => codes "bomb"

def fields : List Field :=
  [.version, .type, .protocolVersion, .sequence, .capturedAtMs, .map, .players, .bomb]

/-- A decoded Go string has no surrogates. -/
def goString (text : List Nat) : List Nat :=
  text.map fun c => if 0xD800 ≤ c ∧ c < 0xE000 then 0xFFFD else c

/-- As `foldRune` wherever it gives an ASCII character: the letters have one other case, and
   two of them also U+017F and U+212A. -/
def foldRune (c : Nat) : Nat :=
  if 97 ≤ c ∧ c ≤ 122 then c - 32 else if c = 0x17F then 83 else if c = 0x212A then 75 else c

def foldName (name : List Nat) : List Nat := name.map foldRune

def findField (key : List Nat) : Option Field :=
  match fields.find? fun f => decide (f.key = key) with
  | some f => some f
  | none => fields.find? fun f => decide (foldName f.key = foldName key)

def natOf (digits : Text) : Nat := digits.foldl (fun n c => n * 10 + (c.toNat - 48)) 0

def signed (n : Number) (magnitude : Nat) : Int := if n.negative then -magnitude else magnitude

/- `strconv.ParseInt` and `ParseUint` of a number's text, in base 10 and 64 bits. -/
def parseInt (n : Number) : Option Int :=
  let value := signed n (natOf n.whole)
  if n.fraction = none ∧ n.exponent = none ∧ -2 ^ 63 ≤ value ∧ value < 2 ^ 63 then some value
  else none

def parseUint (n : Number) : Option Nat :=
  if n.negative = false ∧ n.fraction = none ∧ n.exponent = none ∧ natOf n.whole < 2 ^ 64 then
    some (natOf n.whole)
  else none

structure Envelope where
  version : Int
  type : List Nat
  protocolVersion : Int
  sequence : Option Nat
  capturedAtMs : Option Int
  map : Text
  players : Text
  bomb : Text

def zero : Envelope := ⟨0, [], 0, none, none, [], [], []⟩

def storeInt (old : Int) : Json → Option Int
  | .null => some old
  | .number n => parseInt n
  | _ => none

def storeString (old : List Nat) : Json → Option (List Nat)
  | .null => some old
  | .string text => some (goString text)
  | _ => none

def storePointer {α : Type} (parse : Number → Option α) : Json → Option (Option α)
  | .null => some none
  | .number n => (parse n).map some
  | _ => none

def Envelope.store (e : Envelope) (m : Member Json) : Field → Option Envelope
  | .version => (storeInt e.version m.value).map fun v => { e with version := v }
  | .type => (storeString e.type m.value).map fun v => { e with type := v }
  | .protocolVersion =>
    (storeInt e.protocolVersion m.value).map fun v => { e with protocolVersion := v }
  | .sequence => (storePointer parseUint m.value).map fun v => { e with sequence := v }
  | .capturedAtMs => (storePointer parseInt m.value).map fun v => { e with capturedAtMs := v }
  | .map => some { e with map := m.raw }
  | .players => some { e with players := m.raw }
  | .bomb => some { e with bomb := m.raw }

/-- The members in their order. An error does not stop the decoder, but it is what it returns. -/
def decodeMembers (e : Envelope) : List (Member Json) → Option Envelope
  | [] => some e
  | m :: rest =>
    match findField (goString m.name) with
    | none => decodeMembers e rest
    | some f => (e.store m f).bind fun next => decodeMembers next rest

def decodeEnvelope : Json → Option Envelope
  | .object members => decodeMembers zero members
  | .null => some zero
  | _ => none

def maxNestingDepth : Nat := 10000

def isSpace (c : Char) : Bool :=
  let code := c.toNat
  (decide (9 ≤ code) && decide (code ≤ 13)) || (decide (0x2000 ≤ code) && decide (code ≤ 0x200A)) ||
    [0x20, 0x85, 0xA0, 0x1680, 0x2028, 0x2029, 0x202F, 0x205F, 0x3000].contains code

def trimSpace (text : Text) : Text := (text.dropWhile isSpace).rdropWhile isSpace

def enclosed (first last : Char) (raw : Text) : Bool :=
  let trimmed := trimSpace raw
  decide (2 ≤ trimmed.length) && trimmed.head? == some first && trimmed.getLast? == some last

def isJSONObject (raw : Text) : Bool := enclosed '{' '}' raw
def isJSONArray (raw : Text) : Bool := enclosed '[' ']' raw

def required {α : Type} (value : Option α) (text : String) : Except String α :=
  match value with
  | some found => .ok found
  | none => .error text

/-- The first value of the payload and the text after it. -/
def readPayload (payload : Bytes) : Except String (Json × Text) := do
  let text ← required (decodeUTF8 payload) "snapshot must be valid UTF-8"
  required (scanValue maxNestingDepth text) "invalid JSON snapshot"

/-- The checks on the decoded envelope; the result is the capture time in milliseconds. -/
def Envelope.check (e : Envelope) : Except String Int := do
  refuse (e.version ≠ 1 ∨ e.type ≠ codes "snapshot") "only v1 snapshot messages are accepted"
  refuse (e.protocolVersion ≠ 1) "protocolVersion must be 1"
  let _ ← required e.sequence "snapshot sequence and capture time are required"
  let capturedAtMs ← required e.capturedAtMs "snapshot sequence and capture time are required"
  refuse (capturedAtMs < 0) "snapshot capture time must be non-negative"
  refuse (isJSONObject e.map = false ∨ isJSONArray e.players = false ∨ isJSONObject e.bomb = false)
    "snapshot map, players, and bomb have invalid types"
  return capturedAtMs

def validateSnapshot (payload : Bytes) : Except String Int := do
  let read ← readPayload payload
  let envelope ← required (decodeEnvelope read.1) "invalid JSON snapshot"
  refuse (skip read.2 ≠ []) "snapshot must contain exactly one JSON value"
  envelope.check

theorem required_ok_iff {α : Type} {value : Option α} {text : String} {a : α} :
    required value text = .ok a ↔ value = some a := by
  cases value <;> simp [required]

theorem readPayload_ok_iff {payload : Bytes} {read : Json × Text} :
    readPayload payload = .ok read ↔
      ∃ text, decodeUTF8 payload = some text ∧ scanValue maxNestingDepth text = some read := by
  simp only [readPayload, bind_ok_iff, required_ok_iff]

/-- An accepted payload is an object followed by blanks, and every member of a field decodes. -/
theorem validateSnapshot_ok {payload : Bytes} {time : Int}
    (h : validateSnapshot payload = .ok time) :
    ∃ members trailing e, readPayload payload = .ok (.object members, trailing) ∧
      skip trailing = [] ∧ decodeMembers zero members = some e ∧ e.check = .ok time := by
  simp only [validateSnapshot, bind_ok_iff, required_ok_iff, refuse_ok_iff, not_not] at h
  obtain ⟨⟨value, trailing⟩, read, e, decoded, -, blank, checked⟩ := h
  cases value with
  | object members => exact ⟨members, trailing, e, read, blank, decoded, checked⟩
  | null =>
    cases decoded
    cases checked
  | bool _ | number _ | string _ | array _ => cases decoded

theorem storeInt_any {old v : Int} {value : Json} (other : Int) (h : storeInt old value = some v) :
    ∃ w, storeInt other value = some w := by
  cases value with
  | null => exact ⟨other, rfl⟩
  | number n => exact ⟨v, h⟩
  | bool _ | string _ | array _ | object _ => cases h

theorem storeString_any {old v : List Nat} {value : Json} (other : List Nat)
    (h : storeString old value = some v) : ∃ w, storeString other value = some w := by
  cases value with
  | null => exact ⟨other, rfl⟩
  | string s => exact ⟨v, h⟩
  | bool _ | number _ | array _ | object _ => cases h

/-- Whether a member decodes does not depend on the members before it. -/
theorem store_from_zero {e next : Envelope} {m : Member Json} {f : Field}
    (h : e.store m f = some next) : ∃ alone, zero.store m f = some alone := by
  cases f with
  | version | protocolVersion =>
    obtain ⟨v, stored, -⟩ := Option.map_eq_some_iff.mp h
    obtain ⟨w, alone⟩ := storeInt_any 0 stored
    exact ⟨_, Option.map_eq_some_iff.mpr ⟨w, alone, rfl⟩⟩
  | type =>
    obtain ⟨v, stored, -⟩ := Option.map_eq_some_iff.mp h
    obtain ⟨w, alone⟩ := storeString_any [] stored
    exact ⟨_, Option.map_eq_some_iff.mpr ⟨w, alone, rfl⟩⟩
  | sequence | capturedAtMs =>
    obtain ⟨v, stored, -⟩ := Option.map_eq_some_iff.mp h
    exact ⟨_, Option.map_eq_some_iff.mpr ⟨v, stored, rfl⟩⟩
  | map | players | bomb => exact ⟨_, rfl⟩

theorem members_decode {e last : Envelope} {members : List (Member Json)}
    (h : decodeMembers e members = some last) :
    ∀ m ∈ members, ∀ f, findField (goString m.name) = some f →
      ∃ alone, zero.store m f = some alone := by
  induction members generalizing e with
  | nil =>
    intro m listed
    cases listed
  | cons head rest ih =>
    intro m listed f named
    simp only [decodeMembers] at h
    cases found : findField (goString head.name) with
    | none =>
      rw [found] at h
      rcases List.mem_cons.mp listed with rfl | later
      · rw [found] at named
        cases named
      · exact ih h m later f named
    | some g =>
      rw [found] at h
      obtain ⟨next, stored, h⟩ := Option.bind_eq_some_iff.mp h
      rcases List.mem_cons.mp listed with rfl | later
      · rw [found] at named
        cases named
        exact store_from_zero stored
      · exact ih h m later f named

/-- A name that is spelled as the tag finds its field. -/
theorem findField_key (f : Field) : findField (goString f.key) = some f := by
  cases f <;> decide

end RelayProtocol
