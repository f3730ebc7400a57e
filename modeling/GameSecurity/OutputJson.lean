import Mathlib.Algebra.Group.Int.Defs
import Mathlib.Algebra.Group.Nat.Defs
import GameSecurity.DumperOutput
import GameSecurity.JsonPrint

/- What a JSON decoder makes of the files. Their text is of bytes, so a character is a byte. -/
namespace OutputJson
open AsciiText SortedMap DumperOutput
open JsonText (Json Member Number scanValue scanNested scanScalar scanString scanText skip)
open JsonPrint

-- Literals of the files are evaluated character by character.
set_option maxRecDepth 1500

def latin (s : Text) : JsonText.Text := s.map fun c => Char.ofNat c.toNat

def bytes (t : JsonText.Text) : Text := t.map fun c => c.toNat.toUInt8

/-- A whole document. -/
def decode (s : Text) : Option Json :=
  match scanValue s.length (latin s) with
  | some (j, rest) => if skip rest = [] then some j else none
  | none => none

def asBytes (codes : List Nat) : Option Text :=
  if ∀ code ∈ codes, code < 256 then some (codes.map Nat.toUInt8) else none

def asText : Json → Option Text
  | .string codes => asBytes codes
  | _ => none

def asInt : Json → Option Int
  | .number n =>
    if n.fraction = none ∧ n.exponent = none then
      some (if n.negative then -(value 10 (bytes n.whole) : Int) else value 10 (bytes n.whole))
    else none
  | _ => none

/-- An integer that a type has. -/
def asRange {α : Type} (low high : Int) (make : Int → α) (j : Json) : Option α := do
  let n ← asInt j
  if low ≤ n ∧ n < high then some (make n) else none

def asUInt64 : Json → Option UInt64 := asRange 0 (2 ^ 64) fun n => n.toNat.toUInt64

def asUInt8 : Json → Option UInt8 := asRange 0 (2 ^ 8) fun n => n.toNat.toUInt8

def asInt64 : Json → Option Int64 := asRange (-2 ^ 63) (2 ^ 63) Int64.ofInt

def asInt32 : Json → Option Int32 := asRange (-2 ^ 31) (2 ^ 31) Int32.ofInt

def asEntry {V : Type} (asValue : Json → Option V) (m : Member Json) : Option (Text × V) := do
  return (← asBytes m.name, ← asValue m.value)

/-- Of members with one name the last counts. -/
def asMap {V : Type} (asValue : Json → Option V) : Json → Option (Map Text V)
  | .object members => (members.mapM (asEntry asValue)).map ofList
  | _ => none

def asList {V : Type} (asValue : Json → Option V) : Json → Option (List V)
  | .array items => items.mapM asValue
  | _ => none

def asNullable {V : Type} (asValue : Json → Option V) : Json → Option (Option V)
  | .null => some none
  | j => (asValue j).map some

/-- A member of an object. -/
def field (j : Json) (name : Text) : Option Json :=
  (asMap some j).bind fun members => members.find? name

def asKind (j : Json) : Option ClassMetadataKind := do
  let name ← asText j
  [.networkChangeCallback, .networkVarNames, .unknown].find? fun kind => decide (kindName kind = name)

/-- Metadata without a type name has the empty one. -/
def asMetadata (j : Json) : Option ClassMetadata := do
  let kind ← asKind (← field j (text "type"))
  let name ← asText (← field j (text "name"))
  match field j (text "type_name") with
  | none => return ⟨kind, name, []⟩
  | some typeName => return ⟨kind, name, ← asText typeName⟩

structure ClassView where
  parent : Option Text
  fields : Map Text Int32
  metadata : List ClassMetadata

structure EnumView where
  alignment : UInt8
  members : Map Text Int64

structure ScopeView where
  classes : Map Text ClassView
  enums : Map Text EnumView

def asClass (j : Json) : Option ClassView := do
  let parent ← asNullable asText (← field j (text "parent"))
  let fields ← asMap asInt32 (← field j (text "fields"))
  let metadata ← asList asMetadata (← field j (text "metadata"))
  return ⟨parent, fields, metadata⟩

def asEnum (j : Json) : Option EnumView := do
  let alignment ← asUInt8 (← field j (text "alignment"))
  let members ← asMap asInt64 (← field j (text "members"))
  return ⟨alignment, members⟩

def asScope (j : Json) : Option ScopeView := do
  let classes ← asMap asClass (← field j (text "classes"))
  let enums ← asMap asEnum (← field j (text "enums"))
  return ⟨classes, enums⟩

def decodeNested (s : Text) : Option InterfaceMap := (decode s).bind (asMap (asMap asUInt64))

def decodeSchemas (s : Text) : Option (Map Text ScopeView) := (decode s).bind (asMap asScope)

theorem latin_append (a b : Text) : latin (a ++ b) = latin a ++ latin b := List.map_append

theorem byte_char (c : UInt8) : (Char.ofNat c.toNat).toNat = c.toNat := by
  have valid : c.toNat.isValidChar := Or.inl (Nat.lt_trans c.toNat_lt (by decide))
  rw [Char.ofNat, dif_pos valid]
  rfl

theorem bytes_latin (s : Text) : bytes (latin s) = s := by
  rw [bytes, latin, List.map_map]
  conv_rhs => rw [← List.map_id s]
  refine List.map_congr_left fun c _ => ?_
  change (Char.ofNat c.toNat).toNat.toUInt8 = c
  rw [byte_char]
  exact UInt8.ofNat_toNat

theorem asBytes_codes (s : Text) : asBytes (s.map UInt8.toNat) = some s := by
  have low : ∀ code ∈ s.map UInt8.toNat, code < 256 := by
    intro code member
    obtain ⟨c, -, rfl⟩ := List.mem_map.mp member
    exact c.toNat_lt
  have back : (s.map UInt8.toNat).map Nat.toUInt8 = s := by
    rw [List.map_map]
    conv_rhs => rw [← List.map_id s]
    exact List.map_congr_left fun c _ => UInt8.ofNat_toNat
  rw [asBytes, if_pos low, back]

theorem scanString_escaped {e : Char} {unit : Nat} (stands : JsonText.escaped e = some unit)
    (rest : JsonText.Text) :
    scanString ('\\' :: e :: rest) = (scanString rest).map fun p => (unit :: p.1, p.2) := by
  rw [scanString, stands]
  · cases scanString rest <;> rfl
  · rintro _ _ _ _ _ rfl -
    cases stands

theorem scanString_unit {a b c d : Char} {unit : Nat} (stands : JsonText.hexUnit a b c d = some unit)
    (rest : JsonText.Text) :
    scanString ('\\' :: 'u' :: a :: b :: c :: d :: rest) =
      (scanString rest).map fun p => (unit :: p.1, p.2) := by
  rw [scanString, stands]
  cases scanString rest <;> rfl

/-- What stands for a byte is scanned as the byte. -/
theorem scanString_escape (c : UInt8) (rest : JsonText.Text) :
    scanString (latin (escape c) ++ rest) =
      (scanString rest).map fun p => (c.toNat :: p.1, p.2) := by
  rw [escape]
  split
  · next same => exact same ▸ scanString_escaped (e := '"') rfl rest
  · next quote =>
    split
    · next same => exact same ▸ scanString_escaped (e := '\\') rfl rest
    · next backslash =>
      split
      · next same => exact same ▸ scanString_escaped (e := 'b') rfl rest
      split
      · next same => exact same ▸ scanString_escaped (e := 'f') rfl rest
      split
      · next same => exact same ▸ scanString_escaped (e := 'n') rfl rest
      split
      · next same => exact same ▸ scanString_escaped (e := 'r') rfl rest
      split
      · next same => exact same ▸ scanString_escaped (e := 't') rfl rest
      split
      · next low =>
        have unit : ∀ n < 32, JsonText.hexUnit '0' '0' (Char.ofNat (digit (n / 16)).toNat)
            (Char.ofNat (digit (n % 16)).toNat) = some n := by decide
        exact scanString_unit (unit c.toNat (UInt8.lt_iff_toNat_lt.mp low)) rest
      · next high =>
        have printed : 32 ≤ c.toNat := Nat.le_of_not_lt fun low => high (UInt8.lt_iff_toNat_lt.mpr low)
        have apart : ∀ {d : UInt8}, c ≠ d → Char.ofNat c.toNat ≠ Char.ofNat d.toNat := by
          intro d differs same
          refine differs (UInt8.toNat_inj.mp ?_)
          rw [← byte_char c, same, byte_char]
        have scanned := scanString_plain (apart quote) (apart backslash)
          (by rw [byte_char]; exact printed) rest
        rw [byte_char] at scanned
        exact scanned

/-- A quoted name is scanned as the name. -/
theorem spells_escape (s : Text) : Spells (latin (jsonEscape s)) (s.map UInt8.toNat) := by
  intro rest
  have low : ∀ unit ∈ s.map UInt8.toNat, unit < 256 := by
    intro unit member
    obtain ⟨c, -, rfl⟩ := List.mem_map.mp member
    exact c.toNat_lt
  have units : scanString (latin (jsonEscape s) ++ '"' :: rest) = some (s.map UInt8.toNat, rest) := by
    clear low
    induction s with
    | nil =>
      change scanString ('"' :: rest) = some ([], rest)
      rw [scanString]
    | cons c s ih =>
      rw [jsonEscape, List.flatMap_cons, latin_append, List.append_assoc, scanString_escape]
      change ((scanString (latin (jsonEscape s) ++ '"' :: rest)).map _) = _
      rw [ih]
      rfl
  rw [scanText, units]
  simp only [bind, Option.bind_some, joinSurrogates_low low]
  rfl

theorem decode_parses {depth : Nat} {s : Text} {holds : Json → Prop}
    (parses : Parses (scanValue depth) (latin s) holds) : ∃ j, decode s = some j ∧ holds j := by
  obtain ⟨j, scanned, h⟩ := parses.scans [] nofun
  rw [List.append_nil] at scanned
  have short : (latin s).length ≤ s.length := Nat.le_of_eq (List.length_map _)
  have longer : scanValue s.length (latin s) = some (j, []) :=
    JsonText.scan_value_extends _ _ short scanned
  refine ⟨j, ?_, h⟩
  rw [decode, longer]
  rfl

section Pieces

variable {depth : Nat}

theorem plain_numeral (n : Nat) : Plain (latin (numeral 10 n)) where
  some_ := fun empty => numeral_ne_nil 10 n (List.map_eq_nil_iff.mp empty)
  all := by
    intro c member
    obtain ⟨b, written, rfl⟩ := List.mem_map.mp member
    have each : ∀ n < 10, (Char.ofNat (digit n).toNat).isDigit = true := by decide
    exact numeral_all (by decide) (fun b => (Char.ofNat b.toNat).isDigit = true) each n b written
  lead := by
    rcases Nat.eq_zero_or_pos n with rfl | positive
    · exact Or.inl rfl
    · refine Or.inr fun s same => ?_
      have ten : 1 < 10 := by decide
      obtain ⟨d, t, starts, first, few⟩ := numeral_lead ten positive
      have each : ∀ d < 10, Char.ofNat (digit d).toNat = '0' → d = 0 := by decide
      rw [starts] at same
      have zero := each d few (List.cons.inj same).1
      omega

theorem parses_toString (n : Int) :
    Parses (scanValue depth) (latin (toString n)) fun j => asInt j = some n := by
  have back : value 10 (bytes (latin (numeral 10 n.natAbs))) = n.natAbs := by
    rw [bytes_latin]
    exact value_numeral (by decide) (by decide) n.natAbs
  rw [DumperOutput.toString]
  split
  · refine (parses_negative (plain_numeral n.natAbs)).imp ?_
    rintro _ rfl
    simp only [asInt, back, and_self, if_true, Option.some.injEq]
    omega
  · refine (parses_number (plain_numeral n.natAbs)).imp ?_
    rintro _ rfl
    simp only [asInt, back, and_self, if_true, Bool.false_eq_true, if_false, Option.some.injEq]
    omega

theorem parses_q (s : Text) : Parses (scanValue depth) (latin (q s)) fun j => asText j = some s := by
  have quoted : latin (q s) = '"' :: (latin (jsonEscape s) ++ ['"']) := by
    rw [q, latin, List.map_cons, List.map_append]
    rfl
  rw [quoted]
  refine (parses_string (spells_escape s)).imp ?_
  rintro _ rfl
  exact asBytes_codes s

theorem asRange_inside {α : Type} {low high : Int} {make : Int → α} {j : Json} {n : Int}
    (read : asInt j = some n) (inside : low ≤ n ∧ n < high) :
    asRange low high make j = some (make n) := by
  rw [asRange, read]
  exact if_pos inside

theorem parses_uint64 (v : UInt64) :
    Parses (scanValue depth) (latin (toString v.toNat)) fun j => asUInt64 j = some v := by
  refine (parses_toString v.toNat).imp fun j read => ?_
  have inside : (0 : Int) ≤ v.toNat ∧ (v.toNat : Int) < 2 ^ 64 :=
    ⟨Int.natCast_nonneg _, by exact_mod_cast v.toNat_lt⟩
  have same : (v.toNat : Int).toNat.toUInt64 = v := UInt64.ofNat_toNat
  exact (asRange_inside read inside).trans (congrArg some same)

theorem parses_uint8 (v : UInt8) :
    Parses (scanValue depth) (latin (toString v.toNat)) fun j => asUInt8 j = some v := by
  refine (parses_toString v.toNat).imp fun j read => ?_
  have inside : (0 : Int) ≤ v.toNat ∧ (v.toNat : Int) < 2 ^ 8 :=
    ⟨Int.natCast_nonneg _, by exact_mod_cast v.toNat_lt⟩
  have same : (v.toNat : Int).toNat.toUInt8 = v := UInt8.ofNat_toNat
  exact (asRange_inside read inside).trans (congrArg some same)

theorem parses_int64 (v : Int64) :
    Parses (scanValue depth) (latin (toString v.toInt)) fun j => asInt64 j = some v := by
  refine (parses_toString v.toInt).imp fun j read => ?_
  exact (asRange_inside read ⟨v.le_toInt, v.toInt_lt⟩).trans (congrArg some (Int64.ofInt_toInt v))

theorem parses_int32 (v : Int32) :
    Parses (scanValue depth) (latin (toString v.toInt)) fun j => asInt32 j = some v := by
  refine (parses_toString v.toInt).imp fun j read => ?_
  exact (asRange_inside read ⟨v.le_toInt, v.toInt_lt⟩).trans (congrArg some (Int32.ofInt_toInt v))

/-- An entry of an object: what it is written as, and what has to hold of its value. -/
structure Row where
  name : Text
  value : Text
  holds : Json → Prop

def Row.text (lead : Text) (row : Row) : Text :=
  lead ++ q row.name ++ AsciiText.text ": " ++ row.value

def Row.Matches (m : Member Json) (row : Row) : Prop :=
  m.name = row.name.map UInt8.toNat ∧ row.holds m.value

def Row.entry (lead : Text) (row : Row) : Entry :=
  ⟨latin lead, latin (jsonEscape row.name), row.name.map UInt8.toNat, latin row.value, row.holds⟩

theorem row_text (lead : Text) (row : Row) : latin (row.text lead) = (row.entry lead).text := by
  rw [Row.text, latin_append, latin_append, latin_append]
  have quoted : latin (q row.name) = '"' :: (latin (jsonEscape row.name) ++ ['"']) := by
    rw [q, latin, List.map_cons, List.map_append]
    rfl
  rw [quoted]
  simp only [List.append_assoc, List.cons_append]
  rfl

theorem separated_cons {α : Type} (first next : Text) (entry : α → Text) (a : α) (rest : List α) :
    separated first next entry (a :: rest) =
      first ++ entry a ++ rest.flatMap fun b => next ++ entry b := rfl

theorem latin_separated {α : Type} (first gap : Text) (entry : α → Text) (l : List α) :
    latin (separated first (44 :: gap) entry l) =
      joined (latin first) (latin gap) (l.map fun a => latin (entry a)) := by
  cases l with
  | nil => rfl
  | cons a l =>
    rw [separated, latin_append, latin_append, List.map_cons, joined]
    congr 1
    induction l with
    | nil => rfl
    | cons b l ih =>
      rw [List.flatMap_cons, latin_append, ih, List.map_cons, List.flatMap_cons, latin_append]
      rfl

/-- What stands around the entries of a list is spaces and ends of lines. -/
def Laid (lead first gap tail : Text) : Prop :=
  ∀ c ∈ lead ++ (first ++ (gap ++ tail)), c = 32 ∨ c = 10

instance (lead first gap tail : Text) : Decidable (Laid lead first gap tail) :=
  inferInstanceAs (Decidable (∀ c ∈ lead ++ (first ++ (gap ++ tail)), c = 32 ∨ c = 10))

theorem blanks_latin {s : Text} (each : ∀ c ∈ s, c = 32 ∨ c = 10) : Blanks (latin s) := by
  intro c member
  obtain ⟨b, listed, rfl⟩ := List.mem_map.mp member
  rcases each b listed with rfl | rfl <;> rfl

theorem Laid.parts {lead first gap tail : Text} (laid : Laid lead first gap tail) :
    Blanks (latin lead) ∧ Blanks (latin first) ∧ Blanks (latin gap) ∧ Blanks (latin tail) := by
  simp only [Laid, List.forall_mem_append] at laid
  obtain ⟨leads, firsts, gaps, tails⟩ := laid
  exact ⟨blanks_latin leads, blanks_latin firsts, blanks_latin gaps, blanks_latin tails⟩

/-- An end of line at the end may be left out. -/
theorem Laid.closing {lead first gap a b : Text} {p : Prop} [Decidable p]
    (laid : Laid lead first gap (a ++ b)) : Laid lead first gap ((if p then a else []) ++ b) := by
  simp only [Laid, List.forall_mem_append] at laid ⊢
  obtain ⟨leads, firsts, gaps, before, behind⟩ := laid
  refine ⟨leads, firsts, gaps, ?_, behind⟩
  split
  · exact before
  · exact fun c member => absurd member List.not_mem_nil

/-- An object is written as a list of rows in braces. -/
theorem parses_rows {lead first gap tail : Text} (laid : Laid lead first gap tail)
    {rows : List Row} (each : ∀ row ∈ rows, Parses (scanValue depth) (latin row.value) row.holds) :
    Parses (scanValue (depth + 1))
      (latin (123 :: (separated first (44 :: gap) (Row.text lead) rows ++ (tail ++ [125]))))
      fun j => ∃ members, j = .object members ∧ List.Forall₂ Row.Matches members rows := by
  obtain ⟨leads, firsts, gaps, tails⟩ := laid.parts
  have good : ∀ e ∈ rows.map (Row.entry lead), e.Good (scanValue depth) := by
    intro e member
    obtain ⟨row, listed, rfl⟩ := List.mem_map.mp member
    exact ⟨leads, spells_escape row.name, each row listed⟩
  have texts : (rows.map fun row => latin (row.text lead)) =
      (rows.map (Row.entry lead)).map Entry.text := by
    rw [List.map_map]
    exact List.map_congr_left fun row _ => row_text lead row
  have written : latin (123 :: (separated first (44 :: gap) (Row.text lead) rows ++ (tail ++ [125]))) =
      '{' :: (joined (latin first) (latin gap) ((rows.map (Row.entry lead)).map Entry.text) ++
        (latin tail ++ ['}'])) := by
    rw [← texts, ← latin_separated, latin, List.map_cons, List.map_append, List.map_append]
    rfl
  rw [written]
  refine (parses_object good firsts gaps tails).imp ?_
  rintro _ ⟨members, rfl, matched⟩
  have rowwise : List.Forall₂ (fun m row => Entry.Matches m (Row.entry lead row)) members rows :=
    List.forall₂_map_right_iff.mp matched
  exact ⟨members, rfl, rowwise⟩

theorem mapM_matched {α β γ : Type} {f : β → Option γ} {view : α → γ} {l : List α} {m : List β}
    (matched : List.Forall₂ (fun b a => f b = some (view a)) m l) :
    m.mapM f = some (l.map view) := by
  induction matched with
  | nil => rfl
  | cons same _ ih =>
    rw [List.mapM_cons, same, ih]
    rfl

/-- Rows of which each value is read back are read back as a map. -/
theorem parses_map {α V : Type} {asValue : Json → Option V} (key : α → Text) (view : α → V)
    (value : α → Text) {lead first gap tail : Text} (laid : Laid lead first gap tail) {l : List α}
    (each : ∀ a ∈ l,
      Parses (scanValue depth) (latin (value a)) fun j => asValue j = some (view a)) :
    Parses (scanValue (depth + 1))
      (latin (123 :: (separated first (44 :: gap)
        (fun a => lead ++ q (key a) ++ text ": " ++ value a) l ++ (tail ++ [125]))))
      fun j => asMap asValue j = some (ofList (l.map fun a => (key a, view a))) := by
  let row (a : α) : Row := ⟨key a, value a, fun j => asValue j = some (view a)⟩
  have good : ∀ r ∈ l.map row, Parses (scanValue depth) (latin r.value) r.holds := by
    intro r member
    obtain ⟨a, listed, rfl⟩ := List.mem_map.mp member
    exact each a listed
  have written : separated first (44 :: gap) (Row.text lead) (l.map row) =
      separated first (44 :: gap) (fun a => lead ++ q (key a) ++ text ": " ++ value a) l := by
    cases l with
    | nil => rfl
    | cons a l =>
      rw [separated, List.map_cons, separated, List.flatMap_map]
      rfl
  rw [← written]
  refine (parses_rows laid good).imp ?_
  rintro _ ⟨members, rfl, matched⟩
  have entries : List.Forall₂
      (fun m a => asEntry asValue m = some (key a, view a)) members l := by
    refine List.Forall₂.imp ?_ (List.forall₂_map_right_iff.mp matched)
    intro m a agrees
    obtain ⟨named, read⟩ := agrees
    rw [asEntry, named, asBytes_codes, read]
    rfl
  rw [asMap, mapM_matched entries]
  rfl

/-- Items in brackets. -/
theorem parses_list {α V : Type} {asValue : Json → Option V} (view : α → V) (value : α → Text)
    {lead first gap tail : Text} (laid : Laid lead first gap tail) {l : List α}
    (each : ∀ a ∈ l,
      Parses (scanValue depth) (latin (value a)) fun j => asValue j = some (view a)) :
    Parses (scanValue (depth + 1))
      (latin (91 :: (separated first (44 :: gap) (fun a => lead ++ value a) l ++ (tail ++ [93]))))
      fun j => asList asValue j = some (l.map view) := by
  obtain ⟨leads, firsts, gaps, tails⟩ := laid.parts
  let item (a : α) : Item := ⟨latin lead, latin (value a), fun j => asValue j = some (view a)⟩
  have good : ∀ e ∈ l.map item, e.Good (scanValue depth) := by
    intro e member
    obtain ⟨a, listed, rfl⟩ := List.mem_map.mp member
    exact ⟨leads, each a listed⟩
  have texts : (l.map fun a => latin (lead ++ value a)) = (l.map item).map Item.text := by
    rw [List.map_map]
    exact List.map_congr_left fun a _ => latin_append lead (value a)
  have written :
      latin (91 :: (separated first (44 :: gap) (fun a => lead ++ value a) l ++ (tail ++ [93]))) =
        '[' :: (joined (latin first) (latin gap) ((l.map item).map Item.text) ++
          (latin tail ++ [']'])) := by
    rw [← texts, ← latin_separated, latin, List.map_cons, List.map_append, List.map_append]
    rfl
  rw [written]
  refine (parses_array good firsts gaps tails).imp ?_
  rintro _ ⟨values, rfl, matched⟩
  have items : List.Forall₂ (fun j a => Item.Matches j (item a)) values l :=
    List.forall₂_map_right_iff.mp matched
  exact mapM_matched items

/-- The members of an object have the names of its rows, and their values what the rows say. -/
theorem rows_entries {members : List (Member Json)} {rows : List Row}
    (matched : List.Forall₂ Row.Matches members rows) :
    ∃ entries, members.mapM (asEntry some) = some entries ∧
      entries.map Prod.fst = rows.map Row.name ∧
      ∀ row ∈ rows, ∃ j, (row.name, j) ∈ entries ∧ row.holds j := by
  induction matched with
  | nil => exact ⟨[], rfl, rfl, fun row member => absurd member List.not_mem_nil⟩
  | @cons m row members rows agrees _ ih =>
    obtain ⟨named, holds⟩ := agrees
    obtain ⟨entries, read, names, found⟩ := ih
    have first : asEntry some m = some (row.name, m.value) := by
      rw [asEntry, named, asBytes_codes]
      rfl
    refine ⟨(row.name, m.value) :: entries, ?_, congrArg (row.name :: ·) names, ?_⟩
    · rw [List.mapM_cons, first, read]
      rfl
    · intro r listed
      rcases List.mem_cons.mp listed with rfl | later
      · exact ⟨m.value, List.mem_cons_self, holds⟩
      · obtain ⟨j, among, h⟩ := found r later
        exact ⟨j, List.mem_cons_of_mem _ among, h⟩

/-- A row of an object is found by its name, and no other name is found. -/
theorem field_rows {members : List (Member Json)} {rows : List Row}
    (matched : List.Forall₂ Row.Matches members rows) (distinct : (rows.map Row.name).Nodup) :
    (∀ row ∈ rows, ∃ j, field (.object members) row.name = some j ∧ row.holds j) ∧
      ∀ name ∉ rows.map Row.name, field (.object members) name = none := by
  obtain ⟨entries, read, names, found⟩ := rows_entries matched
  have object : asMap some (.object members) = some (ofList entries) := by rw [asMap, read]; rfl
  rw [← names] at distinct
  constructor
  · intro row listed
    obtain ⟨j, among, holds⟩ := found row listed
    refine ⟨j, ?_, holds⟩
    rw [field, object]
    exact (find_ofList distinct).mpr among
  · intro name absent
    rw [field, object, ← names] at *
    refine Option.eq_none_iff_forall_ne_some.mpr fun j found => absent ?_
    exact List.mem_map_of_mem ((find_ofList distinct).mp found)

/-- The rows of a record with distinct names. -/
theorem parses_record {lead first gap tail : Text} (laid : Laid lead first gap tail)
    {rows : List Row} (each : ∀ row ∈ rows, Parses (scanValue depth) (latin row.value) row.holds)
    (distinct : (rows.map Row.name).Nodup) :
    Parses (scanValue (depth + 1))
      (latin (123 :: (separated first (44 :: gap) (Row.text lead) rows ++ (tail ++ [125]))))
      fun j => (∀ row ∈ rows, ∃ v, field j row.name = some v ∧ row.holds v) ∧
        ∀ name ∉ rows.map Row.name, field j name = none := by
  refine (parses_rows laid each).imp ?_
  rintro _ ⟨members, rfl, matched⟩
  exact field_rows matched distinct

end Pieces

section Nested

def nestedValue (values : Map Text UInt64) : Text :=
  123 :: (separated [10] [44, 10]
    (fun value => text "    " ++ q value.1 ++ text ": " ++ DumperOutput.toString value.2.toNat)
    values.entries ++ (((if values.entries ≠ [] then text "\n" else []) ++ text "  ") ++ [125]))

theorem nestedJsonModule_eq (entry : Text × Map Text UInt64) :
    nestedJsonModule entry = text "  " ++ q entry.1 ++ text ": " ++ nestedValue entry.2 := by
  simp only [nestedJsonModule, nestedValue, List.append_assoc]
  rfl

theorem nestedJson_eq (map : InterfaceMap) :
    nestedJson map = 123 :: (separated [10] [44, 10]
      (fun entry => text "  " ++ q entry.1 ++ text ": " ++ nestedValue entry.2) map.entries ++
      ((if map.entries ≠ [] then text "\n" else []) ++ [] ++ [125])) := by
  rw [nestedJson, show nestedJsonModule = _ from funext nestedJsonModule_eq]
  simp only [List.append_assoc]
  rfl

theorem map_entries {V : Type} (m : Map Text V) :
    ofList (m.entries.map fun entry => (entry.1, entry.2)) = m := by
  rw [show m.entries.map (fun entry => (entry.1, entry.2)) = m.entries from List.map_id _,
    ofList_entries]

theorem parses_nestedValue {depth : Nat} (values : Map Text UInt64) :
    Parses (scanValue (depth + 1)) (latin (nestedValue values))
      fun j => asMap asUInt64 j = some values := by
  have read : Parses (scanValue (depth + 1)) (latin (nestedValue values)) fun j =>
      asMap asUInt64 j = some (ofList (values.entries.map fun entry => (entry.1, entry.2))) :=
    parses_map Prod.fst Prod.snd
      (fun value : Text × UInt64 => DumperOutput.toString value.2.toNat)
      (Laid.closing (by decide)) fun value _ => parses_uint64 value.2
  rw [map_entries] at read
  exact read

theorem decodeNested_nestedJson (map : InterfaceMap) : decodeNested (nestedJson map) = some map := by
  have read : Parses (scanValue 2) (latin (nestedJson map)) fun j => asMap (asMap asUInt64) j =
      some (ofList (map.entries.map fun entry => (entry.1, entry.2))) := by
    rw [nestedJson_eq]
    exact parses_map Prod.fst Prod.snd (fun entry : Text × Map Text UInt64 => nestedValue entry.2)
      (Laid.closing (by decide))
      fun entry _ => parses_nestedValue entry.2
  rw [map_entries] at read
  obtain ⟨j, decoded, same⟩ := decode_parses read
  rw [decodeNested, decoded]
  exact same

end Nested

section Schemas

variable {depth : Nat}

/-- The files give the type name of a NetworkVarNames entry only. -/
def published (md : ClassMetadata) : ClassMetadata :=
  if md.kind = .networkVarNames then md else { md with typeName := [] }

def classView (cls : ClassInfo) : ClassView where
  parent := cls.parentName
  fields := ofList (cls.fields.map fun field => (field.name, field.offset))
  metadata := cls.metadata.map published

def enumView (en : EnumInfo) : EnumView where
  alignment := en.alignment
  members := ofList (en.members.map fun member => (member.name, member.value))

def scopeView (s : Scope) : ScopeView where
  classes := ofList (s.classes.map fun cls => (cls.name, classView cls))
  enums := ofList (s.enums.map fun en => (en.name, enumView en))

def quotedRow (name value : Text) : Row := ⟨name, q value, fun j => asText j = some value⟩

def metadataRows (md : ClassMetadata) : List Row :=
  [quotedRow (text "type") (kindName md.kind), quotedRow (text "name") md.name] ++
    if md.kind = .networkVarNames then [quotedRow (text "type_name") md.typeName] else []

def metadataValue (md : ClassMetadata) : Text :=
  123 :: (separated [] [44, 32] (Row.text []) (metadataRows md) ++ ([] ++ [125]))

theorem schemasJsonMetadata_eq (md : ClassMetadata) :
    schemasJsonMetadata md = text "\n          " ++ metadataValue md := by
  obtain ⟨kind, name, typeName⟩ := md
  cases kind <;> simp only [schemasJsonMetadata, metadataValue, metadataRows, quotedRow,
    separated_cons, Row.text, List.append_assoc, List.cons_append, List.flatMap_cons,
    List.flatMap_nil, List.append_nil,
    List.nil_append, if_true, if_false, reduceCtorEq] <;> rfl

theorem asKind_name {j : Json} {kind : ClassMetadataKind} (named : asText j = some (kindName kind)) :
    asKind j = some kind := by
  rw [asKind, named]
  cases kind <;> rfl

theorem parses_metadata (md : ClassMetadata) :
    Parses (scanValue (depth + 1)) (latin (metadataValue md))
      fun j => asMetadata j = some (published md) := by
  have each : ∀ row ∈ metadataRows md, Parses (scanValue depth) (latin row.value) row.holds := by
    intro row member
    have quoted : ∃ name value, row = quotedRow name value := by
      rcases List.mem_append.mp member with first | last
      · rcases List.mem_cons.mp first with rfl | second
        · exact ⟨_, _, rfl⟩
        · exact ⟨_, _, List.mem_singleton.mp second⟩
      · split at last
        · exact ⟨_, _, List.mem_singleton.mp last⟩
        · exact absurd last List.not_mem_nil
    obtain ⟨name, value, rfl⟩ := quoted
    exact parses_q value
  obtain ⟨kind, name, typeName⟩ := md
  have names : (metadataRows ⟨kind, name, typeName⟩).map Row.name = text "type" :: text "name" ::
      (if kind = .networkVarNames then [text "type_name"] else []) := by
    cases kind <;> rfl
  have distinct : ((metadataRows ⟨kind, name, typeName⟩).map Row.name).Nodup := by
    rw [names]
    cases kind <;> decide
  refine (parses_record (by decide) each distinct).imp ?_
  rintro j ⟨found, absent⟩
  obtain ⟨t, kindField, kindText⟩ : ∃ t, field j (text "type") = some t ∧
      asText t = some (kindName kind) :=
    found (quotedRow (text "type") (kindName kind)) List.mem_cons_self
  obtain ⟨n, nameField, nameText⟩ : ∃ n, field j (text "name") = some n ∧ asText n = some name :=
    found (quotedRow (text "name") name) (List.mem_cons_of_mem _ List.mem_cons_self)
  have known := asKind_name kindText
  by_cases named : kind = .networkVarNames
  · subst named
    obtain ⟨u, typeField, typeText⟩ : ∃ u, field j (text "type_name") = some u ∧
        asText u = some typeName :=
      found (quotedRow (text "type_name") typeName)
        (List.mem_cons_of_mem _ (List.mem_cons_of_mem _ List.mem_cons_self))
    simp only [asMetadata, kindField, known, nameField, nameText, typeField, typeText, bind,
      Option.bind_some]
    rfl
  · have typeField : field j (text "type_name") = none := by
      refine absent _ ?_
      rw [names, if_neg named]
      decide
    simp only [asMetadata, kindField, known, nameField, nameText, typeField, bind, Option.bind_some,
      published, if_neg named]
    rfl

theorem nullable_text {j : Json} {s : Text} (read : asText j = some s) :
    asNullable asText j = some (some s) := by
  cases j with
  | null => cases read
  | _ => exact congrArg (Option.map some) read

def parentText : Option Text → Text
  | some parent => q parent
  | none => text "null"

theorem parses_parent (parent : Option Text) :
    Parses (scanValue depth) (latin (parentText parent))
      fun j => asNullable asText j = some parent := by
  cases parent with
  | none =>
    refine parses_null.imp ?_
    rintro _ rfl
    rfl
  | some parent => exact (parses_q parent).imp fun j => nullable_text

def fieldsText (fields : List ClassField) : Text :=
  123 :: (separated [] [44]
    (fun field => text "\n          " ++ q field.1 ++ text ": " ++ DumperOutput.toString field.2.toInt)
    (sortedFields fields).entries ++
    (((if (sortedFields fields).entries ≠ [] then text "\n        " else []) ++ []) ++ [125]))

theorem sortedFields_eq (fields : List ClassField) :
    sortedFields fields = ofList (fields.map fun field => (field.name, field.offset)) := by
  rw [sortedFields, ofList, List.foldl_map]

theorem parses_fields (fields : List ClassField) :
    Parses (scanValue (depth + 1)) (latin (fieldsText fields)) fun j => asMap asInt32 j =
      some (ofList (fields.map fun field => (field.name, field.offset))) := by
  have read : Parses (scanValue (depth + 1)) (latin (fieldsText fields)) fun j => asMap asInt32 j =
      some (ofList ((sortedFields fields).entries.map fun entry => (entry.1, entry.2))) :=
    parses_map Prod.fst Prod.snd (fun field : Text × Int32 => DumperOutput.toString field.2.toInt)
      (Laid.closing (by decide))
      fun field _ => parses_int32 field.2
  rw [map_entries, sortedFields_eq] at read
  exact read

def metadataText (metadata : List ClassMetadata) : Text :=
  91 :: (separated [] [44] (fun md => text "\n          " ++ metadataValue md) metadata ++
    (((if metadata ≠ [] then text "\n        " else []) ++ []) ++ [93]))

theorem parses_metadataList (metadata : List ClassMetadata) :
    Parses (scanValue (depth + 2)) (latin (metadataText metadata))
      fun j => asList asMetadata j = some (metadata.map published) :=
  parses_list published metadataValue (Laid.closing (by decide))
    fun md _ => parses_metadata md

def classRows (cls : ClassInfo) : List Row :=
  [⟨text "parent", parentText cls.parentName, fun j => asNullable asText j = some cls.parentName⟩,
    ⟨text "fields", fieldsText cls.fields, fun j => asMap asInt32 j =
      some (ofList (cls.fields.map fun field => (field.name, field.offset)))⟩,
    ⟨text "metadata", metadataText cls.metadata,
      fun j => asList asMetadata j = some (cls.metadata.map published)⟩]

def classValue (cls : ClassInfo) : Text :=
  123 :: (separated [10] [44, 10] (Row.text (text "        ")) (classRows cls) ++
    (text "\n      " ++ [125]))

theorem schemasJsonClass_eq (cls : ClassInfo) :
    schemasJsonClass cls = text "\n      " ++ q cls.name ++ text ": " ++ classValue cls := by
  obtain ⟨name, parentName, metadata, fields⟩ := cls
  have printed : schemasJsonMetadata = fun md => text "\n          " ++ metadataValue md :=
    funext schemasJsonMetadata_eq
  simp only [schemasJsonClass, classValue, classRows, fieldsText, metadataText, printed,
    separated_cons, Row.text, List.append_assoc, List.append_nil, List.cons_append,
    List.nil_append, List.flatMap_cons, List.flatMap_nil]
  cases parentName <;> rfl

theorem parses_class (cls : ClassInfo) :
    Parses (scanValue (depth + 3)) (latin (classValue cls))
      fun j => asClass j = some (classView cls) := by
  have each : ∀ row ∈ classRows cls,
      Parses (scanValue (depth + 2)) (latin row.value) row.holds := by
    simp only [classRows, List.forall_mem_cons]
    exact ⟨parses_parent _, parses_fields _, parses_metadataList _, nofun⟩
  have distinct : ((classRows cls).map Row.name).Nodup := by
    change [text "parent", text "fields", text "metadata"].Nodup
    decide
  refine (parses_record (by decide) each distinct).imp ?_
  rintro j ⟨found, -⟩
  simp only [classRows, List.forall_mem_cons] at found
  obtain ⟨⟨p, parentField, parent⟩, ⟨f, fieldsField, fields⟩, ⟨m, metadataField, metadata⟩, -⟩ := found
  simp only [asClass, parentField, parent, fieldsField, fields, metadataField, metadata, bind,
    Option.bind_some]
  rfl

def membersText (members : List EnumMember) : Text :=
  123 :: (separated [] [44]
    (fun member => text "\n          " ++ q member.name ++ text ": " ++
      DumperOutput.toString member.value.toInt) members ++
    (((if members ≠ [] then text "\n        " else []) ++ []) ++ [125]))

def enumRows (en : EnumInfo) : List Row :=
  [⟨text "alignment", DumperOutput.toString en.alignment.toNat,
      fun j => asUInt8 j = some en.alignment⟩,
    ⟨text "members", membersText en.members, fun j => asMap asInt64 j =
      some (ofList (en.members.map fun member => (member.name, member.value)))⟩]

def enumValue (en : EnumInfo) : Text :=
  123 :: (separated [10] [44, 10] (Row.text (text "        ")) (enumRows en) ++
    (text "\n      " ++ [125]))

theorem schemasJsonEnum_eq (en : EnumInfo) :
    schemasJsonEnum en = text "\n      " ++ q en.name ++ text ": " ++ enumValue en := by
  simp only [schemasJsonEnum, enumValue, enumRows, membersText, separated_cons, Row.text,
    List.append_assoc, List.append_nil, List.cons_append, List.nil_append, List.flatMap_cons,
    List.flatMap_nil]
  rfl

theorem parses_enum (en : EnumInfo) :
    Parses (scanValue (depth + 2)) (latin (enumValue en)) fun j => asEnum j = some (enumView en) := by
  have each : ∀ row ∈ enumRows en, Parses (scanValue (depth + 1)) (latin row.value) row.holds := by
    simp only [enumRows, List.forall_mem_cons]
    refine ⟨parses_uint8 en.alignment, ?_, nofun⟩
    exact parses_map EnumMember.name EnumMember.value
      (fun member => DumperOutput.toString member.value.toInt) (Laid.closing (by decide))
      fun member _ => parses_int64 member.value
  have distinct : ((enumRows en).map Row.name).Nodup := by
    change [text "alignment", text "members"].Nodup
    decide
  refine (parses_record (by decide) each distinct).imp ?_
  rintro j ⟨found, -⟩
  simp only [enumRows, List.forall_mem_cons] at found
  obtain ⟨⟨a, alignmentField, alignment⟩, ⟨m, membersField, members⟩, -⟩ := found
  simp only [asEnum, alignmentField, alignment, membersField, members, bind, Option.bind_some]
  rfl

def classesText (classes : List ClassInfo) : Text :=
  123 :: (separated [] [44]
    (fun cls => text "\n      " ++ q cls.name ++ text ": " ++ classValue cls) classes ++
    (((if classes ≠ [] then text "\n    " else []) ++ []) ++ [125]))

def enumsText (enums : List EnumInfo) : Text :=
  123 :: (separated [] [44]
    (fun en => text "\n      " ++ q en.name ++ text ": " ++ enumValue en) enums ++
    (((if enums ≠ [] then text "\n    " else []) ++ []) ++ [125]))

def scopeRows (s : Scope) : List Row :=
  [⟨text "classes", classesText s.classes, fun j => asMap asClass j =
      some (ofList (s.classes.map fun cls => (cls.name, classView cls)))⟩,
    ⟨text "enums", enumsText s.enums, fun j => asMap asEnum j =
      some (ofList (s.enums.map fun en => (en.name, enumView en)))⟩]

def scopeValue (s : Scope) : Text :=
  123 :: (separated [10] [44, 10] (Row.text (text "    ")) (scopeRows s) ++ (text "\n  " ++ [125]))

theorem schemasJsonModule_eq (entry : Text × Scope) :
    schemasJsonModule entry = text "  " ++ q entry.1 ++ text ": " ++ scopeValue entry.2 := by
  have classes : schemasJsonClass = fun cls =>
      text "\n      " ++ q cls.name ++ text ": " ++ classValue cls := funext schemasJsonClass_eq
  have enums : schemasJsonEnum = fun en =>
      text "\n      " ++ q en.name ++ text ": " ++ enumValue en := funext schemasJsonEnum_eq
  simp only [schemasJsonModule, scopeValue, scopeRows, classesText, enumsText, classes, enums,
    separated_cons, Row.text, List.append_assoc, List.append_nil, List.cons_append,
    List.nil_append, List.flatMap_cons, List.flatMap_nil]
  rfl

theorem parses_scope (s : Scope) :
    Parses (scanValue (depth + 5)) (latin (scopeValue s))
      fun j => asScope j = some (scopeView s) := by
  have each : ∀ row ∈ scopeRows s, Parses (scanValue (depth + 4)) (latin row.value) row.holds := by
    simp only [scopeRows, List.forall_mem_cons]
    refine ⟨?_, ?_, nofun⟩
    · exact parses_map ClassInfo.name classView classValue
        (Laid.closing (by decide)) fun cls _ => parses_class cls
    · exact parses_map EnumInfo.name enumView enumValue
        (Laid.closing (by decide)) fun en _ => parses_enum en
  have distinct : ((scopeRows s).map Row.name).Nodup := by
    change [text "classes", text "enums"].Nodup
    decide
  refine (parses_record (by decide) each distinct).imp ?_
  rintro j ⟨found, -⟩
  simp only [scopeRows, List.forall_mem_cons] at found
  obtain ⟨⟨c, classesField, classes⟩, ⟨e, enumsField, enums⟩, -⟩ := found
  simp only [asScope, classesField, classes, enumsField, enums, bind, Option.bind_some]
  rfl

theorem schemasJson_eq (map : SchemaMap) :
    schemasJson map = 123 :: (separated [10] [44, 10]
      (fun entry => text "  " ++ q entry.1 ++ text ": " ++ scopeValue entry.2) map.entries ++
      ((if map.entries = [] then [10] else []) ++ [10] ++ [125])) := by
  rw [schemasJson, show schemasJsonModule = _ from funext schemasJsonModule_eq]
  cases map.entries with
  | nil => rfl
  | cons entry rest =>
    simp only [separated_cons, List.append_assoc, List.nil_append, reduceCtorEq, if_false]
    rfl

theorem decodeSchemas_schemasJson (map : SchemaMap) :
    decodeSchemas (schemasJson map) = some (map.mapValues scopeView) := by
  have read : Parses (scanValue 6) (latin (schemasJson map)) fun j => asMap asScope j =
      some (ofList (map.entries.map fun entry => (entry.1, scopeView entry.2))) := by
    rw [schemasJson_eq]
    exact parses_map Prod.fst (fun entry : Text × Scope => scopeView entry.2)
      (fun entry => scopeValue entry.2) (Laid.closing (by decide))
      fun entry _ => parses_scope entry.2
  rw [show ofList (map.entries.map fun entry => (entry.1, scopeView entry.2)) =
    map.mapValues scopeView from ofList_entries (map.mapValues scopeView)] at read
  obtain ⟨j, decoded, same⟩ := decode_parses read
  rw [decodeSchemas, decoded]
  exact same

end Schemas

/-- The names that are promised to be distinct. -/
structure Distinct (s : Scope) : Prop where
  classes : (s.classes.map ClassInfo.name).Nodup
  enums : (s.enums.map EnumInfo.name).Nodup
  members : ∀ en ∈ s.enums, (en.members.map EnumMember.name).Nodup

/-- Type names are those of NetworkVarNames entries, as the analysis reads them. -/
def Typed (cls : ClassInfo) : Prop :=
  ∀ md ∈ cls.metadata, md.kind ≠ .networkVarNames → md.typeName = []

structure TellsClass (cls : ClassInfo) (v : ClassView) : Prop where
  parent : v.parent = cls.parentName
  /-- The last field of a name counts. -/
  fields : ∀ name, v.fields.find? name =
    (cls.fields.reverse.find? fun field => decide (field.name = name)).map ClassField.offset
  /-- The kinds and names, and the type names of NetworkVarNames entries. -/
  metadata : v.metadata = cls.metadata.map published
  exact : Typed cls → v.metadata = cls.metadata

structure TellsEnum (en : EnumInfo) (v : EnumView) : Prop where
  alignment : v.alignment = en.alignment
  members : ∀ name value, v.members.find? name = some value ↔ ⟨name, value⟩ ∈ en.members

/-- The view has the classes and enums of the scope and no others. -/
structure Tells (s : Scope) (v : ScopeView) : Prop where
  classes : ∀ name c, v.classes.find? name = some c ↔
    ∃ cls ∈ s.classes, cls.name = name ∧ c = classView cls
  enums : ∀ name e, v.enums.find? name = some e ↔ ∃ en ∈ s.enums, en.name = name ∧ e = enumView en
  each_class : ∀ cls ∈ s.classes, TellsClass cls (classView cls)
  each_enum : ∀ en ∈ s.enums, TellsEnum en (enumView en)

theorem find_named {α V : Type} {l : List α} {key : α → Text} (view : α → V)
    (distinct : (l.map key).Nodup) (name : Text) (v : V) :
    (ofList (l.map fun a => (key a, view a))).find? name = some v ↔
      ∃ a ∈ l, key a = name ∧ v = view a := by
  have keys : ((l.map fun a => (key a, view a)).map Prod.fst).Nodup := by
    rw [List.map_map]
    exact distinct
  rw [find_ofList keys, List.mem_map]
  constructor
  · rintro ⟨a, listed, same⟩
    exact ⟨a, listed, congrArg Prod.fst same, (congrArg Prod.snd same).symm⟩
  · rintro ⟨a, listed, rfl, rfl⟩
    exact ⟨a, listed, rfl⟩

theorem classView_tells (cls : ClassInfo) : TellsClass cls (classView cls) where
  parent := rfl
  fields := by
    intro name
    rw [classView, find_ofList_last, ← List.map_reverse, List.find?_map, Option.map_map]
    rfl
  metadata := rfl
  exact := by
    intro typed
    have same : cls.metadata.map published = cls.metadata.map id := by
      refine List.map_congr_left fun md member => ?_
      by_cases named : md.kind = .networkVarNames
      · exact if_pos named
      · rw [published, if_neg named, ← typed md member named]
        rfl
    exact same.trans (List.map_id _)

theorem enumView_tells {en : EnumInfo} (distinct : (en.members.map EnumMember.name).Nodup) :
    TellsEnum en (enumView en) where
  alignment := rfl
  members := by
    intro name value
    rw [enumView, find_named EnumMember.value distinct]
    constructor
    · rintro ⟨member, listed, rfl, rfl⟩
      exact listed
    · intro listed
      exact ⟨_, listed, rfl, rfl⟩

theorem scopeView_tells {s : Scope} (distinct : Distinct s) : Tells s (scopeView s) where
  classes := find_named classView distinct.classes
  enums := find_named enumView distinct.enums
  each_class cls _ := classView_tells cls
  each_enum en listed := enumView_tells (distinct.members en listed)

/-- What is written is decoded to what it was written of. -/
theorem json_round_trips :
    (∀ map : InterfaceMap, decodeNested (nestedJson map) = some map) ∧
      (∀ map : OffsetMap, decodeNested (offsetsJson map) = some (widen map) ∧
        (widen map).entries = (map.entries.filter fun entry => decide (entry.2.entries ≠ [])).map
          fun entry => (entry.1, entry.2.mapValues UInt32.toUInt64)) ∧
      ∀ map : SchemaMap, decodeSchemas (schemasJson map) = some (map.mapValues scopeView) ∧
        ∀ entry ∈ map.entries, Distinct entry.2 → Tells entry.2 (scopeView entry.2) := by
  refine ⟨decodeNested_nestedJson, fun map => ⟨?_, widen_entries map⟩, fun map => ⟨?_, ?_⟩⟩
  · exact decodeNested_nestedJson (widen map)
  · exact decodeSchemas_schemasJson map
  · exact fun entry _ => scopeView_tells

/-- A module without offsets. -/
def valueless : OffsetMap := ofList [(text "client.dll", empty)]

/-- A type name on an entry that is not of NetworkVarNames. -/
def typedEntry : ClassInfo :=
  ⟨text "C_Base", none, [⟨.networkChangeCallback, text "OnChanged", text "int32"⟩], []⟩

def typedMap : SchemaMap := ofList [(text "client.dll", ⟨[typedEntry], []⟩)]

theorem json_left_out :
    decodeNested (offsetsJson valueless) ≠
        some (valueless.mapValues fun values => values.mapValues UInt32.toUInt64) ∧
      decodeSchemas (schemasJson typedMap) = some (typedMap.mapValues scopeView) ∧
      (classView typedEntry).metadata ≠ typedEntry.metadata := by
  refine ⟨?_, decodeSchemas_schemasJson typedMap, by decide⟩
  rw [show offsetsJson valueless = nestedJson (widen valueless) from rfl,
    decodeNested_nestedJson, ne_eq, Option.some.injEq]
  intro same
  have none : (widen valueless).entries = [] := rfl
  rw [same] at none
  cases none

end OutputJson
