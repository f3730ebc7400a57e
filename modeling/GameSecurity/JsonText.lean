import Mathlib.Data.List.DropRight

/- The JSON grammar over decoded text. An object keeps its members in the order of the text,
   duplicates included, each with the text of its value: what a decoder makes of them is
   its own affair. -/
namespace JsonText

abbrev Text := List Char

/-- A number as it is written. -/
structure Number where
  negative : Bool
  whole : Text
  fraction : Option Text
  exponent : Option (Bool × Text)
  deriving DecidableEq, Repr

structure Member (Value : Type) where
  name : List Nat
  raw : Text
  value : Value

/-- Strings are lists of code points, where an unpaired surrogate stands for itself. -/
inductive Json
  | null
  | bool (value : Bool)
  | number (value : Number)
  | string (value : List Nat)
  | array (items : List Json)
  | object (members : List (Member Json))

def isBlank (c : Char) : Bool := c == ' ' || c == '\t' || c == '\n' || c == '\r'

def skip (text : Text) : Text := text.dropWhile isBlank

def hexValue (c : Char) : Option Nat :=
  if '0' ≤ c ∧ c ≤ '9' then some (c.toNat - 48)
  else if 'a' ≤ c ∧ c ≤ 'f' then some (c.toNat - 87)
  else if 'A' ≤ c ∧ c ≤ 'F' then some (c.toNat - 55)
  else none

def hexUnit (a b c d : Char) : Option Nat := do
  let a ← hexValue a
  let b ← hexValue b
  let c ← hexValue c
  let d ← hexValue d
  return ((a * 16 + b) * 16 + c) * 16 + d

def escaped : Char → Option Nat
  | '"' => some 34
  | '\\' => some 92
  | '/' => some 47
  | 'b' => some 8
  | 'f' => some 12
  | 'n' => some 10
  | 'r' => some 13
  | 't' => some 9
  | _ => none

/-- The rest of a string, after its opening quote. -/
def scanString : Text → Option (List Nat × Text)
  | [] => none
  | '"' :: rest => some ([], rest)
  | '\\' :: 'u' :: a :: b :: c :: d :: rest => do
    let unit ← hexUnit a b c d
    let (more, rest) ← scanString rest
    return (unit :: more, rest)
  | '\\' :: e :: rest => do
    let unit ← escaped e
    let (more, rest) ← scanString rest
    return (unit :: more, rest)
  | c :: rest => do
    if c = '\\' ∨ c.toNat < 32 then none
    else
      let (more, rest) ← scanString rest
      return (c.toNat :: more, rest)

/-- Two escapes in a row may spell one code point. -/
def joinUnit (unit : Nat) : List Nat → List Nat
  | [] => [unit]
  | next :: rest =>
    if 0xD800 ≤ unit ∧ unit < 0xDC00 ∧ 0xDC00 ≤ next ∧ next < 0xE000 then
      (0x10000 + (unit - 0xD800) * 0x400 + (next - 0xDC00)) :: rest
    else unit :: next :: rest

def joinSurrogates (units : List Nat) : List Nat := units.foldr joinUnit []

def scanText (text : Text) : Option (List Nat × Text) := do
  let (units, rest) ← scanString text
  return (joinSurrogates units, rest)

def scanDigits (text : Text) : Option (Text × Text) :=
  match text.takeWhile Char.isDigit with
  | [] => none
  | digits => some (digits, text.dropWhile Char.isDigit)

def scanWhole : Text → Option (Text × Text)
  | '0' :: rest => some (['0'], rest)
  | text => scanDigits text

def scanFraction : Text → Option (Option Text × Text)
  | '.' :: rest => do
    let (digits, rest) ← scanDigits rest
    return (some digits, rest)
  | text => some (none, text)

def scanSignedDigits : Text → Option ((Bool × Text) × Text)
  | '-' :: rest => do
    let (digits, rest) ← scanDigits rest
    return ((true, digits), rest)
  | '+' :: rest => do
    let (digits, rest) ← scanDigits rest
    return ((false, digits), rest)
  | text => do
    let (digits, rest) ← scanDigits text
    return ((false, digits), rest)

def scanExponent (text : Text) : Option (Option (Bool × Text) × Text) :=
  match text with
  | c :: rest =>
    if c = 'e' ∨ c = 'E' then do
      let (exponent, rest) ← scanSignedDigits rest
      return (some exponent, rest)
    else some (none, text)
  | [] => some (none, text)

def scanUnsigned (negative : Bool) (text : Text) : Option (Number × Text) := do
  let (whole, text) ← scanWhole text
  let (fraction, text) ← scanFraction text
  let (exponent, text) ← scanExponent text
  return (⟨negative, whole, fraction, exponent⟩, text)

def scanNumber : Text → Option (Number × Text)
  | '-' :: rest => scanUnsigned true rest
  | text => scanUnsigned false text

def scanScalar : Text → Option (Json × Text)
  | '"' :: rest => do
    let (value, rest) ← scanText rest
    return (.string value, rest)
  | 'n' :: 'u' :: 'l' :: 'l' :: rest => some (.null, rest)
  | 't' :: 'r' :: 'u' :: 'e' :: rest => some (.bool true, rest)
  | 'f' :: 'a' :: 'l' :: 's' :: 'e' :: rest => some (.bool false, rest)
  | text => do
    let (value, rest) ← scanNumber text
    return (.number value, rest)

section Containers

variable (inner : Text → Option (Json × Text))

/-- The items of an array from a first one on; no more than there are characters. -/
def scanItems : Nat → Text → Option (List Json × Text)
  | 0, _ => none
  | more + 1, text => do
    let (item, rest) ← inner text
    match skip rest with
    | ',' :: rest => do
      let (items, rest) ← scanItems more rest
      return (item :: items, rest)
    | ']' :: rest => some ([item], rest)
    | _ => none

def scanName (text : Text) : Option (List Nat × Text) :=
  match skip text with
  | '"' :: rest => do
    let (name, rest) ← scanText rest
    match skip rest with
    | ':' :: rest => some (name, skip rest)
    | _ => none
  | _ => none

def scanMember (text : Text) : Option (Member Json × Text) := do
  let (name, start) ← scanName text
  let (value, rest) ← inner start
  return (⟨name, start.take (start.length - rest.length), value⟩, rest)

def scanMembers : Nat → Text → Option (List (Member Json) × Text)
  | 0, _ => none
  | more + 1, text => do
    let (member, rest) ← scanMember inner text
    match skip rest with
    | ',' :: rest => do
      let (members, rest) ← scanMembers more rest
      return (member :: members, rest)
    | '}' :: rest => some ([member], rest)
    | _ => none

def scanArray (text : Text) : Option (Json × Text) :=
  match skip text with
  | ']' :: rest => some (.array [], rest)
  | _ => do
    let (items, rest) ← scanItems inner text.length text
    return (.array items, rest)

def scanObject (text : Text) : Option (Json × Text) :=
  match skip text with
  | '}' :: rest => some (.object [], rest)
  | _ => do
    let (members, rest) ← scanMembers inner text.length text
    return (.object members, rest)

def scanNested (text : Text) : Option (Json × Text) :=
  match text with
  | '{' :: rest => scanObject inner rest
  | '[' :: rest => scanArray inner rest
  | _ => scanScalar text

end Containers

/-- A value whose arrays and objects are nested to the given depth at most. -/
def scanValue : Nat → Text → Option (Json × Text)
  | 0, text => scanScalar (skip text)
  | depth + 1, text => scanNested (scanValue depth) (skip text)

def isTail (c : UInt8) : Bool := decide (0x80 ≤ c) && decide (c ≤ 0xBF)

def tailBits (c : UInt8) : Nat := c.toNat - 0x80

/-- The characters of a well-formed UTF-8 text. -/
def decodeUTF8 : List UInt8 → Option Text
  | [] => some []
  | a :: rest =>
    if a < 0x80 then (decodeUTF8 rest).map (Char.ofNat a.toNat :: ·)
    else
      match rest with
      | [] => none
      | b :: rest =>
        if 0xC2 ≤ a ∧ a ≤ 0xDF ∧ isTail b then
          (decodeUTF8 rest).map (Char.ofNat ((a.toNat - 0xC0) * 0x40 + tailBits b) :: ·)
        else
          match rest with
          | [] => none
          | c :: rest =>
            if 0xE0 ≤ a ∧ a ≤ 0xEF ∧ isTail b ∧ isTail c ∧ (a = 0xE0 → 0xA0 ≤ b) ∧
                (a = 0xED → b ≤ 0x9F) then
              (decodeUTF8 rest).map
                (Char.ofNat (((a.toNat - 0xE0) * 0x40 + tailBits b) * 0x40 + tailBits c) :: ·)
            else
              match rest with
              | [] => none
              | d :: rest =>
                if 0xF0 ≤ a ∧ a ≤ 0xF4 ∧ isTail b ∧ isTail c ∧ isTail d ∧ (a = 0xF0 → 0x90 ≤ b) ∧
                    (a = 0xF4 → b ≤ 0x8F) then
                  (decodeUTF8 rest).map
                    (Char.ofNat ((((a.toNat - 0xF0) * 0x40 + tailBits b) * 0x40 + tailBits c) * 0x40 +
                      tailBits d) :: ·)
                else none

theorem skip_suffix (text : Text) : skip text <:+ text := List.dropWhile_suffix _

theorem scan_string_suffix {text rest : Text} {units : List Nat}
    (h : scanString text = some (units, rest)) : rest <:+ text := by
  fun_induction scanString text generalizing units with
  | case1 => cases h
  | case2 tail =>
    cases h
    exact List.suffix_cons _ _
  | case3 a b c d tail ih =>
    simp only [bind, Option.bind_eq_some_iff] at h
    obtain ⟨unit, -, ⟨more, last⟩, found, same⟩ := h
    cases same
    exact (ih found).trans ⟨['\\', 'u', a, b, c, d], rfl⟩
  | case4 e tail other ih =>
    simp only [bind, Option.bind_eq_some_iff] at h
    obtain ⟨unit, -, ⟨more, last⟩, found, same⟩ := h
    cases same
    exact (ih found).trans ⟨['\\', e], rfl⟩
  | case5 => cases h
  | case6 c tail _ _ _ _ ih =>
    simp only [bind, Option.bind_eq_some_iff] at h
    obtain ⟨⟨more, last⟩, found, same⟩ := h
    cases same
    exact (ih found).trans (List.suffix_cons _ _)

theorem scan_text_suffix {text rest : Text} {name : List Nat}
    (h : scanText text = some (name, rest)) : rest <:+ text := by
  simp only [scanText, bind, Option.bind_eq_some_iff] at h
  obtain ⟨⟨units, last⟩, found, same⟩ := h
  cases same
  exact scan_string_suffix found

/-- A run of digits is never empty. -/
theorem scan_digits_suffix {text rest digits : Text} (h : scanDigits text = some (digits, rest)) :
    ∃ c tail, text = c :: tail ∧ c.isDigit = true ∧ rest <:+ tail := by
  cases text with
  | nil => cases h
  | cons c tail =>
    cases first : c.isDigit with
    | false => simp [scanDigits, first] at h
    | true =>
      simp only [scanDigits, List.takeWhile_cons, first, List.dropWhile_cons, if_true,
        Option.some.injEq, Prod.mk.injEq] at h
      exact ⟨c, tail, rfl, first, h.2 ▸ List.dropWhile_suffix _⟩

theorem scan_fraction_suffix {text rest : Text} {fraction : Option Text}
    (h : scanFraction text = some (fraction, rest)) : rest <:+ text := by
  unfold scanFraction at h
  split at h
  · simp only [bind, Option.bind_eq_some_iff] at h
    obtain ⟨⟨digits, last⟩, found, same⟩ := h
    cases same
    obtain ⟨c, tail, rfl, -, later⟩ := scan_digits_suffix found
    exact later.trans ⟨['.', c], rfl⟩
  · cases h
    exact List.suffix_rfl

theorem scan_signed_suffix {text rest : Text} {exponent : Bool × Text}
    (h : scanSignedDigits text = some (exponent, rest)) : rest <:+ text := by
  unfold scanSignedDigits at h
  split at h <;> simp only [bind, Option.bind_eq_some_iff] at h <;>
    obtain ⟨⟨digits, last⟩, found, same⟩ := h <;> cases same <;>
    obtain ⟨c, tail, rfl, -, later⟩ := scan_digits_suffix found
  · exact later.trans ⟨['-', c], rfl⟩
  · exact later.trans ⟨['+', c], rfl⟩
  · exact later.trans ⟨[c], rfl⟩

theorem scan_exponent_suffix {text rest : Text} {exponent : Option (Bool × Text)}
    (h : scanExponent text = some (exponent, rest)) : rest <:+ text := by
  unfold scanExponent at h
  split at h
  · split at h
    · simp only [bind, Option.bind_eq_some_iff] at h
      obtain ⟨⟨digits, last⟩, found, same⟩ := h
      cases same
      exact (scan_signed_suffix found).trans (List.suffix_cons _ _)
    · cases h
      exact List.suffix_rfl
  · cases h
    exact List.suffix_rfl

theorem scan_unsigned_suffix {text rest : Text} {negative : Bool} {n : Number}
    (h : scanUnsigned negative text = some (n, rest)) :
    ∃ c tail, text = c :: tail ∧ c.isDigit = true ∧ rest <:+ tail := by
  simp only [scanUnsigned, bind, Option.bind_eq_some_iff] at h
  obtain ⟨⟨whole, afterWhole⟩, found, ⟨fraction, afterFraction⟩, second, ⟨exponent, last⟩, third,
    same⟩ := h
  cases same
  have later : last <:+ afterWhole :=
    (scan_exponent_suffix third).trans (scan_fraction_suffix second)
  unfold scanWhole at found
  split at found
  · cases found
    exact ⟨'0', _, rfl, rfl, later⟩
  · obtain ⟨c, tail, rfl, digit, first⟩ := scan_digits_suffix found
    exact ⟨c, tail, rfl, digit, later.trans first⟩

def startsScalar (c : Char) : Bool :=
  c == '"' || c == 'n' || c == 't' || c == 'f' || c == '-' || c.isDigit

/-- What the text of a value shows at its ends. -/
def Spells (raw : Text) : Json → Prop
  | .object _ => ∃ inside, raw = '{' :: (inside ++ ['}'])
  | .array _ => ∃ inside, raw = '[' :: (inside ++ [']'])
  | _ => ∃ c more, raw = c :: more ∧ startsScalar c = true

theorem scan_number_suffix {text rest : Text} {n : Number} (h : scanNumber text = some (n, rest)) :
    ∃ c tail, text = c :: tail ∧ startsScalar c = true ∧ rest <:+ tail := by
  unfold scanNumber at h
  split at h
  · obtain ⟨c, tail, rfl, -, later⟩ := scan_unsigned_suffix h
    exact ⟨'-', c :: tail, rfl, rfl, later.trans (List.suffix_cons _ _)⟩
  · obtain ⟨c, tail, rfl, digit, later⟩ := scan_unsigned_suffix h
    exact ⟨c, tail, rfl, by simp [startsScalar, digit], later⟩

/-- The texts of the members of an object. -/
def MembersSpelled (v : Json) : Prop :=
  ∀ members, v = .object members → ∀ m ∈ members, Spells m.raw m.value

/-- The text of a scalar: its first character, and nothing of a container. -/
theorem scan_scalar_spells {text rest : Text} {v : Json} (h : scanScalar text = some (v, rest)) :
    ∃ raw, text = raw ++ rest ∧ Spells raw v ∧ MembersSpelled v := by
  unfold scanScalar at h
  split at h
  · rename_i tail
    simp only [bind, Option.bind_eq_some_iff] at h
    obtain ⟨⟨value, last⟩, found, same⟩ := h
    cases same
    obtain ⟨used, rfl⟩ := scan_text_suffix found
    exact ⟨'"' :: used, rfl, ⟨'"', used, rfl, rfl⟩, fun _ other => by cases other⟩
  · cases h
    exact ⟨['n', 'u', 'l', 'l'], rfl, ⟨'n', _, rfl, rfl⟩, fun _ other => by cases other⟩
  · cases h
    exact ⟨['t', 'r', 'u', 'e'], rfl, ⟨'t', _, rfl, rfl⟩, fun _ other => by cases other⟩
  · cases h
    exact ⟨['f', 'a', 'l', 's', 'e'], rfl, ⟨'f', _, rfl, rfl⟩, fun _ other => by cases other⟩
  · simp only [bind, Option.bind_eq_some_iff] at h
    obtain ⟨⟨value, last⟩, found, same⟩ := h
    cases same
    obtain ⟨c, tail, rfl, start, used, rfl⟩ := scan_number_suffix found
    exact ⟨c :: used, rfl, ⟨c, used, rfl, start⟩, fun _ other => by cases other⟩

theorem scan_name_suffix {text rest : Text} {name : List Nat}
    (h : scanName text = some (name, rest)) : rest <:+ text ∧ skip rest = rest := by
  have before := skip_suffix text
  unfold scanName at h
  split at h
  · rename_i quoted opened
    rw [opened] at before
    simp only [bind, Option.bind_eq_some_iff] at h
    obtain ⟨⟨found, after⟩, named, h⟩ := h
    have middle := (skip_suffix after).trans (scan_text_suffix named)
    split at h
    · rename_i tail colon
      cases h
      rw [colon] at middle
      have value : skip tail <:+ text :=
        ((skip_suffix tail).trans (List.suffix_cons _ _)).trans
          (middle.trans ((List.suffix_cons _ _).trans before))
      exact ⟨value, List.dropWhile_idempotent isBlank tail⟩
    · cases h
  · cases h

/-- What holds of every decoder of the values inside a container. -/
def Reads (inner : Text → Option (Json × Text)) : Prop :=
  ∀ text v rest, inner text = some (v, rest) →
    ∃ raw, skip text = raw ++ rest ∧ Spells raw v ∧ MembersSpelled v

section Containers

variable {inner : Text → Option (Json × Text)}

theorem reads_suffix (reads : Reads inner) {text rest : Text} {v : Json}
    (h : inner text = some (v, rest)) :
    rest <:+ text := by
  obtain ⟨raw, same, -⟩ := reads text v rest h
  have later : rest <:+ skip text := same ▸ List.suffix_append raw rest
  exact later.trans (skip_suffix text)

theorem scan_items_suffix (reads : Reads inner) {more : Nat} {text rest : Text} {items : List Json}
    (h : scanItems inner more text = some (items, rest)) : ']' :: rest <:+ text := by
  induction more generalizing text items with
  | zero => cases h
  | succ more ih =>
    simp only [scanItems, bind, Option.bind_eq_some_iff] at h
    obtain ⟨⟨item, after⟩, found, h⟩ := h
    have later : skip after <:+ text := (skip_suffix after).trans (reads_suffix reads found)
    split at h
    · rename_i tail comma
      simp only [Option.bind_eq_some_iff] at h
      obtain ⟨⟨others, last⟩, next, same⟩ := h
      cases same
      rw [comma] at later
      exact ((ih next).trans (List.suffix_cons _ _)).trans later
    · rename_i tail close
      cases h
      rw [close] at later
      exact later
    · cases h

theorem scan_member_spells (reads : Reads inner) {text rest : Text} {m : Member Json}
    (h : scanMember inner text = some (m, rest)) :
    rest <:+ text ∧ Spells m.raw m.value := by
  simp only [scanMember, bind, Option.bind_eq_some_iff] at h
  obtain ⟨⟨name, start⟩, named, ⟨v, last⟩, found, same⟩ := h
  cases same
  obtain ⟨first, blank⟩ := scan_name_suffix named
  obtain ⟨raw, spelled, shape, -⟩ := reads start v last found
  rw [blank] at spelled
  have taken : start.take (start.length - last.length) = raw := by
    rw [spelled, List.length_append, Nat.add_sub_cancel, List.take_left]
  exact ⟨(reads_suffix reads found).trans first, taken ▸ shape⟩

theorem scan_members_spells (reads : Reads inner) {more : Nat} {text rest : Text}
    {members : List (Member Json)} (h : scanMembers inner more text = some (members, rest)) :
    '}' :: rest <:+ text ∧ ∀ m ∈ members, Spells m.raw m.value := by
  induction more generalizing text members with
  | zero => cases h
  | succ more ih =>
    simp only [scanMembers, bind, Option.bind_eq_some_iff] at h
    obtain ⟨⟨member, after⟩, found, h⟩ := h
    obtain ⟨first, shape⟩ := scan_member_spells reads found
    have later : skip after <:+ text := (skip_suffix after).trans first
    split at h
    · rename_i tail comma
      simp only [Option.bind_eq_some_iff] at h
      obtain ⟨⟨others, last⟩, next, same⟩ := h
      cases same
      obtain ⟨closed, shapes⟩ := ih next
      rw [comma] at later
      refine ⟨(closed.trans (List.suffix_cons _ _)).trans later, ?_⟩
      intro m listed
      rcases List.mem_cons.mp listed with rfl | among
      · exact shape
      · exact shapes m among
    · rename_i tail close
      cases h
      rw [close] at later
      refine ⟨later, ?_⟩
      intro m listed
      rw [List.mem_singleton.mp listed]
      exact shape
    · cases h

/-- From the bracket that opens a container to the one that closes it. -/
theorem bracketed {first last : Char} {text rest : Text} (h : last :: rest <:+ text) :
    ∃ inside, first :: text = (first :: (inside ++ [last])) ++ rest := by
  obtain ⟨inside, rfl⟩ := h
  exact ⟨inside, by simp⟩

theorem scan_array_spells (reads : Reads inner) {text rest : Text} {v : Json}
    (h : scanArray inner text = some (v, rest)) :
    ∃ raw, '[' :: text = raw ++ rest ∧ Spells raw v ∧ MembersSpelled v := by
  unfold scanArray at h
  split at h
  · rename_i tail close
    cases h
    have closed := skip_suffix text
    rw [close] at closed
    obtain ⟨inside, same⟩ := bracketed closed
    exact ⟨_, same, ⟨inside, rfl⟩, fun _ other => by cases other⟩
  · simp only [bind, Option.bind_eq_some_iff] at h
    obtain ⟨⟨items, last⟩, found, same⟩ := h
    cases same
    obtain ⟨inside, same⟩ := bracketed (scan_items_suffix reads found)
    exact ⟨_, same, ⟨inside, rfl⟩, fun _ other => by cases other⟩

theorem scan_object_spells (reads : Reads inner) {text rest : Text} {v : Json}
    (h : scanObject inner text = some (v, rest)) :
    ∃ raw, '{' :: text = raw ++ rest ∧ Spells raw v ∧ MembersSpelled v := by
  unfold scanObject at h
  split at h
  · rename_i tail close
    cases h
    have closed := skip_suffix text
    rw [close] at closed
    obtain ⟨inside, same⟩ := bracketed closed
    refine ⟨_, same, ⟨inside, rfl⟩, ?_⟩
    rintro _ ⟨⟩ m listed
    cases listed
  · simp only [bind, Option.bind_eq_some_iff] at h
    obtain ⟨⟨members, last⟩, found, same⟩ := h
    cases same
    obtain ⟨closed, shapes⟩ := scan_members_spells reads found
    obtain ⟨inside, same⟩ := bracketed closed
    refine ⟨_, same, ⟨inside, rfl⟩, ?_⟩
    rintro _ ⟨⟩
    exact shapes

end Containers

theorem scan_value_reads (depth : Nat) : Reads (scanValue depth) := by
  induction depth with
  | zero =>
    intro text v rest h
    exact scan_scalar_spells h
  | succ depth ih =>
    intro text v rest h
    simp only [scanValue, scanNested] at h
    split at h
    · rename_i tail opened
      rw [opened]
      exact scan_object_spells ih h
    · rename_i tail opened
      rw [opened]
      exact scan_array_spells ih h
    · exact scan_scalar_spells h

/-- One decoder of inner values does what another does, on texts up to a length. -/
def Extends (bound : Nat) (inner further : Text → Option (Json × Text)) : Prop :=
  ∀ text result, text.length ≤ bound → inner text = some result → further text = some result

section Containers

variable {inner further : Text → Option (Json × Text)} {bound : Nat}

theorem scan_items_extends (reads : Reads inner) (h : Extends bound inner further) {more : Nat}
    {text : Text} {result : List Json × Text} (short : text.length ≤ bound)
    (found : scanItems inner more text = some result) :
    scanItems further more text = some result := by
  induction more generalizing text result with
  | zero => cases found
  | succ more ih =>
    simp only [scanItems, bind, Option.bind_eq_some_iff] at found ⊢
    obtain ⟨⟨item, after⟩, first, found⟩ := found
    refine ⟨_, h text _ short first, ?_⟩
    have later := ((skip_suffix after).trans (reads_suffix reads first)).length_le
    split at found
    · rename_i tail comma
      simp only [Option.bind_eq_some_iff] at found ⊢
      obtain ⟨others, next, same⟩ := found
      rw [comma, List.length_cons] at later
      exact ⟨others, ih (by omega) next, same⟩
    · exact found
    · cases found

theorem scan_member_extends (h : Extends bound inner further) {text : Text}
    {result : Member Json × Text} (short : text.length ≤ bound)
    (found : scanMember inner text = some result) : scanMember further text = some result := by
  simp only [scanMember, bind, Option.bind_eq_some_iff] at found ⊢
  obtain ⟨⟨name, start⟩, named, second, value, same⟩ := found
  have fits : start.length ≤ bound := (scan_name_suffix named).1.length_le.trans short
  exact ⟨_, named, second, h start _ fits value, same⟩

theorem scan_members_extends (reads : Reads inner) (h : Extends bound inner further) {more : Nat}
    {text : Text} {result : List (Member Json) × Text} (short : text.length ≤ bound)
    (found : scanMembers inner more text = some result) :
    scanMembers further more text = some result := by
  induction more generalizing text result with
  | zero => cases found
  | succ more ih =>
    simp only [scanMembers, bind, Option.bind_eq_some_iff] at found ⊢
    obtain ⟨⟨member, after⟩, first, found⟩ := found
    refine ⟨_, scan_member_extends h short first, ?_⟩
    have later := ((skip_suffix after).trans (scan_member_spells reads first).1).length_le
    split at found
    · rename_i tail comma
      simp only [Option.bind_eq_some_iff] at found ⊢
      obtain ⟨others, next, same⟩ := found
      rw [comma, List.length_cons] at later
      exact ⟨others, ih (by omega) next, same⟩
    · exact found
    · cases found

theorem scan_array_extends (reads : Reads inner) (h : Extends bound inner further) {text : Text}
    {result : Json × Text} (short : text.length ≤ bound)
    (found : scanArray inner text = some result) : scanArray further text = some result := by
  unfold scanArray at found ⊢
  split at found
  · exact found
  · simp only [bind, Option.bind_eq_some_iff] at found ⊢
    obtain ⟨items, scanned, same⟩ := found
    exact ⟨items, scan_items_extends reads h short scanned, same⟩

theorem scan_object_extends (reads : Reads inner) (h : Extends bound inner further) {text : Text}
    {result : Json × Text} (short : text.length ≤ bound)
    (found : scanObject inner text = some result) : scanObject further text = some result := by
  unfold scanObject at found ⊢
  split at found
  · exact found
  · simp only [bind, Option.bind_eq_some_iff] at found ⊢
    obtain ⟨members, scanned, same⟩ := found
    exact ⟨members, scan_members_extends reads h short scanned, same⟩

end Containers

theorem scan_nested_of_scalar {inner : Text → Option (Json × Text)} {text : Text}
    {result : Json × Text} (h : scanScalar text = some result) :
    scanNested inner text = some result := by
  unfold scanNested
  split
  · cases h
  · cases h
  · exact h

/-- No text nests deeper than it is long: a value read with any limit on the nesting is read
   alike with the length of the text as the limit. -/
theorem scan_value_extends {depth limit : Nat} :
    Extends limit (scanValue depth) (scanValue limit) := by
  induction depth generalizing limit with
  | zero =>
    intro text result short h
    cases limit with
    | zero => exact h
    | succ limit => exact scan_nested_of_scalar h
  | succ depth ih =>
    intro text result short h
    have blank := (skip_suffix text).length_le
    simp only [scanValue, scanNested] at h
    cases limit with
    | zero =>
      have none_ : text = [] := List.length_eq_zero_iff.mp (Nat.le_zero.mp short)
      subst text
      exact h
    | succ limit =>
      simp only [scanValue, scanNested]
      split at h
      · rename_i tail opened
        rw [opened, List.length_cons] at blank
        exact scan_object_extends (scan_value_reads depth) ih (by omega) h
      · rename_i tail opened
        rw [opened, List.length_cons] at blank
        exact scan_array_extends (scan_value_reads depth) ih (by omega) h
      · exact h

end JsonText
