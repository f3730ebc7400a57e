import Mathlib.Data.List.Forall2
import GameSecurity.JsonText

/- Printed JSON is scanned again. A piece of a document is given by its text and by what has
   to hold of the value that is scanned from it. -/
namespace JsonPrint
open JsonText

def Blanks (t : Text) : Prop := ∀ c ∈ t, isBlank c = true

instance (t : Text) : Decidable (Blanks t) := inferInstanceAs (Decidable (∀ c ∈ t, isBlank c = true))

def Solid (t : Text) : Prop := ∃ c s, t = c :: s ∧ isBlank c = false

/-- What may follow a value. -/
def Delimited (rest : Text) : Prop :=
  ∀ c s, rest = c :: s → isBlank c = true ∨ c = ',' ∨ c = '}' ∨ c = ']'

/-- The text is scanned as a value with the property, whatever follows it. -/
structure Parses (inner : Text → Option (Json × Text)) (t : Text) (holds : Json → Prop) : Prop where
  solid : Solid t
  scans : ∀ rest, Delimited rest → ∃ j, inner (t ++ rest) = some (j, rest) ∧ holds j

theorem Parses.imp {inner : Text → Option (Json × Text)} {t : Text} {holds other : Json → Prop}
    (parses : Parses inner t holds) (implies : ∀ j, holds j → other j) : Parses inner t other where
  solid := parses.solid
  scans rest delimited := by
    obtain ⟨j, scanned, h⟩ := parses.scans rest delimited
    exact ⟨j, scanned, implies j h⟩

/-- Between quotes the text spells the name. -/
def Spells (t : Text) (name : List Nat) : Prop :=
  ∀ rest, scanText (t ++ '"' :: rest) = some (name, rest)

/-- A member as it is printed. -/
structure Entry where
  lead : Text
  name : Text
  codes : List Nat
  value : Text
  holds : Json → Prop

def Entry.text (e : Entry) : Text := e.lead ++ '"' :: (e.name ++ '"' :: ':' :: ' ' :: e.value)

structure Entry.Good (inner : Text → Option (Json × Text)) (e : Entry) : Prop where
  blanks : Blanks e.lead
  spells : Spells e.name e.codes
  parses : Parses inner e.value e.holds

def Entry.Matches (m : Member Json) (e : Entry) : Prop := m.name = e.codes ∧ e.holds m.value

/-- An item as it is printed. -/
structure Item where
  lead : Text
  value : Text
  holds : Json → Prop

def Item.text (e : Item) : Text := e.lead ++ e.value

structure Item.Good (inner : Text → Option (Json × Text)) (e : Item) : Prop where
  blanks : Blanks e.lead
  parses : Parses inner e.value e.holds

def Item.Matches (j : Json) (e : Item) : Prop := e.holds j

/-- A list's pieces, with commas between them. -/
def joined (first gap : Text) : List Text → Text
  | [] => []
  | t :: rest => first ++ t ++ rest.flatMap fun u => ',' :: (gap ++ u)

theorem skip_blanks {a : Text} (blanks : Blanks a) (s : Text) : skip (a ++ s) = skip s :=
  List.dropWhile_append_of_pos blanks

theorem skip_solid {s : Text} (solid : Solid s) : skip s = s := by
  obtain ⟨c, s, rfl, visible⟩ := solid
  exact List.dropWhile_cons_of_neg (by rw [visible]; exact Bool.false_ne_true)

theorem solid_append {t : Text} (solid : Solid t) (rest : Text) : Solid (t ++ rest) := by
  obtain ⟨c, s, rfl, visible⟩ := solid
  exact ⟨c, s ++ rest, rfl, visible⟩

/-- A closing bracket behind blanks may follow a value. -/
theorem delimited_tail {tail : Text} (blanks : Blanks tail) {c : Char} (closes : c = '}' ∨ c = ']')
    (rest : Text) : Delimited (tail ++ c :: rest) := by
  intro d s same
  cases tail with
  | nil =>
    cases same
    exact Or.inr (Or.inr closes)
  | cons b tail =>
    cases same
    exact Or.inl (blanks d List.mem_cons_self)

/-- So may the pieces that follow, and then the bracket. -/
theorem delimited_rest (gap : Text) {tail : Text} (blanks : Blanks tail) {c : Char}
    (closes : c = '}' ∨ c = ']') (later : List Text) (rest : Text) :
    Delimited ((later.flatMap fun u => ',' :: (gap ++ u)) ++ (tail ++ c :: rest)) := by
  cases later with
  | nil => exact delimited_tail blanks closes rest
  | cons u later =>
    intro d s same
    cases same
    exact Or.inr (Or.inl rfl)

theorem scanString_plain {c : Char} (quote : c ≠ '"') (backslash : c ≠ '\\') (printed : 32 ≤ c.toNat)
    (rest : Text) :
    scanString (c :: rest) = (scanString rest).map fun p => (c.toNat :: p.1, p.2) := by
  have control : ¬ (c = '\\' ∨ c.toNat < 32) := by
    rintro (same | low)
    · exact backslash same
    · omega
  rw [scanString, if_neg control]
  · cases scanString rest <;> rfl
  · exact quote
  · exact fun _ _ _ _ _ same _ => backslash same
  · exact fun _ _ same _ => backslash same

theorem joinSurrogates_low {units : List Nat} (low : ∀ unit ∈ units, unit < 256) :
    joinSurrogates units = units := by
  induction units with
  | nil => rfl
  | cons unit units ih =>
    have first := low unit List.mem_cons_self
    change joinUnit unit (joinSurrogates units) = _
    rw [ih fun u member => low u (List.mem_cons_of_mem unit member)]
    cases units with
    | nil => rfl
    | cons next units =>
      rw [joinUnit, if_neg (by omega)]

/-- A text of plain characters spells itself. -/
theorem spells_plain {t : Text}
    (plain : ∀ c ∈ t, c ≠ '"' ∧ c ≠ '\\' ∧ 32 ≤ c.toNat ∧ c.toNat < 256) :
    Spells t (t.map Char.toNat) := by
  intro rest
  have units : scanString (t ++ '"' :: rest) = some (t.map Char.toNat, rest) := by
    induction t with
    | nil =>
      change scanString ('"' :: rest) = some ([], rest)
      rw [scanString]
    | cons c t ih =>
      obtain ⟨quote, backslash, printed, -⟩ := plain c List.mem_cons_self
      have later := ih fun d member => plain d (List.mem_cons_of_mem c member)
      rw [List.cons_append, scanString_plain quote backslash printed, later]
      rfl
  have low : ∀ unit ∈ t.map Char.toNat, unit < 256 := by
    intro unit member
    obtain ⟨c, listed, rfl⟩ := List.mem_map.mp member
    exact (plain c listed).2.2.2
  rw [scanText, units]
  simp only [bind, Option.bind_some, joinSurrogates_low low]
  rfl

section Lists

variable {inner : Text → Option (Json × Text)}

theorem entry_opens {e : Entry} (good : e.Good inner) {first : Text} (blanks : Blanks first)
    (rest : Text) : skip (first ++ (e.text ++ rest)) =
      '"' :: (e.name ++ '"' :: ':' :: ' ' :: (e.value ++ rest)) := by
  rw [skip_blanks blanks, Entry.text, List.append_assoc, skip_blanks good.blanks]
  simp only [List.cons_append, List.append_assoc]
  exact skip_solid ⟨_, _, rfl, rfl⟩

theorem scanMember_printed {e : Entry} (good : e.Good inner) {first : Text}
    (blanks : Blanks first) {rest : Text} (delimited : Delimited rest) :
    ∃ m, scanMember inner (first ++ (e.text ++ rest)) = some (m, rest) ∧ Entry.Matches m e := by
  obtain ⟨j, scanned, holds⟩ := good.parses.scans rest delimited
  have value : skip (' ' :: (e.value ++ rest)) = e.value ++ rest := by
    have blank : Blanks [' '] := by
      intro c member
      cases List.mem_singleton.mp member
      rfl
    rw [show ' ' :: (e.value ++ rest) = [' '] ++ (e.value ++ rest) from rfl, skip_blanks blank,
      skip_solid (solid_append good.parses.solid rest)]
  have colon : skip (':' :: ' ' :: (e.value ++ rest)) = ':' :: ' ' :: (e.value ++ rest) :=
    skip_solid ⟨_, _, rfl, rfl⟩
  have named : scanName (first ++ (e.text ++ rest)) = some (e.codes, e.value ++ rest) := by
    have spelled : scanText (e.name ++ '"' :: ':' :: ' ' :: (e.value ++ rest)) =
        some (e.codes, ':' :: ' ' :: (e.value ++ rest)) := good.spells _
    rw [scanName, entry_opens good blanks]
    simp only [spelled, bind, Option.bind_some, colon, value]
  rw [scanMember, named]
  simp only [bind, Option.bind_some, scanned]
  exact ⟨_, rfl, rfl, holds⟩

theorem scanMembers_printed {gap tail : Text} (gaps : Blanks gap) (tails : Blanks tail)
    {entries : List Entry} (later : ∀ e ∈ entries, e.Good inner) {e : Entry} (good : e.Good inner)
    {first : Text} (blanks : Blanks first) {fuel : Nat} (enough : entries.length < fuel)
    (rest : Text) :
    ∃ members, scanMembers inner fuel (first ++ (e.text ++
        (((entries.map Entry.text).flatMap fun u => ',' :: (gap ++ u)) ++ (tail ++ '}' :: rest)))) =
      some (members, rest) ∧ List.Forall₂ Entry.Matches members (e :: entries) := by
  induction entries generalizing e first fuel with
  | nil =>
    obtain ⟨fuel, rfl⟩ := Nat.exists_eq_succ_of_ne_zero (Nat.ne_of_gt (Nat.zero_lt_of_lt enough))
    obtain ⟨m, scanned, matches_⟩ :=
      scanMember_printed good blanks (delimited_tail tails (Or.inl rfl) rest)
    have closes : skip (tail ++ '}' :: rest) = '}' :: rest := by
      rw [skip_blanks tails]
      exact skip_solid ⟨_, _, rfl, rfl⟩
    refine ⟨[m], ?_, .cons matches_ .nil⟩
    rw [List.map_nil, List.flatMap_nil, List.nil_append, scanMembers, scanned]
    simp only [bind, Option.bind_some, closes]
  | cons next entries ih =>
    obtain ⟨fuel, rfl⟩ := Nat.exists_eq_succ_of_ne_zero (Nat.ne_of_gt (Nat.zero_lt_of_lt enough))
    obtain ⟨members, others, matched⟩ :=
      ih (fun e member => later e (List.mem_cons_of_mem next member))
        (later next List.mem_cons_self) gaps (Nat.lt_of_succ_lt_succ enough)
    obtain ⟨m, scanned, matches_⟩ := scanMember_printed good blanks
      (delimited_rest gap tails (Or.inl rfl) ((next :: entries).map Entry.text) rest)
    refine ⟨m :: members, ?_, .cons matches_ matched⟩
    rw [scanMembers, scanned]
    simp only [bind, Option.bind_some, List.map_cons, List.flatMap_cons, List.cons_append,
      List.append_assoc]
    rw [skip_solid ⟨_, _, rfl, rfl⟩]
    simp only [others, Option.bind_some]
    rfl

/-- A member as it is printed without blanks. -/
def Entry.compact (e : Entry) : Text := '"' :: (e.name ++ '"' :: ':' :: e.value)

/-- The members behind the first one, each with its comma. -/
def following (entries : List Entry) : Text := entries.flatMap fun e => ',' :: e.compact

theorem scanMember_compact {e : Entry} (good : e.Good inner) {rest : Text}
    (delimited : Delimited rest) :
    ∃ m, scanMember inner (e.compact ++ rest) = some (m, rest) ∧ Entry.Matches m e := by
  obtain ⟨j, scanned, holds⟩ := good.parses.scans rest delimited
  have quote : skip (e.compact ++ rest) = '"' :: (e.name ++ '"' :: ':' :: (e.value ++ rest)) := by
    simp only [Entry.compact, List.cons_append, List.append_assoc]
    exact skip_solid ⟨_, _, rfl, rfl⟩
  have colon : skip (':' :: (e.value ++ rest)) = ':' :: (e.value ++ rest) :=
    skip_solid ⟨_, _, rfl, rfl⟩
  have start : skip (e.value ++ rest) = e.value ++ rest :=
    skip_solid (solid_append good.parses.solid rest)
  have named : scanName (e.compact ++ rest) = some (e.codes, e.value ++ rest) := by
    have spelled : scanText (e.name ++ '"' :: ':' :: (e.value ++ rest)) =
        some (e.codes, ':' :: (e.value ++ rest)) := good.spells _
    rw [scanName, quote]
    simp only [spelled, bind, Option.bind_some, colon, start]
  rw [scanMember, named]
  simp only [bind, Option.bind_some, scanned]
  exact ⟨_, rfl, rfl, holds⟩

theorem scanMembers_compact {entries : List Entry} (later : ∀ e ∈ entries, e.Good inner) {e : Entry}
    (good : e.Good inner) {fuel : Nat} (enough : entries.length < fuel) (rest : Text) :
    ∃ members, scanMembers inner fuel (e.compact ++ (following entries ++ '}' :: rest)) =
      some (members, rest) ∧ List.Forall₂ Entry.Matches members (e :: entries) := by
  induction entries generalizing e fuel with
  | nil =>
    obtain ⟨fuel, rfl⟩ := Nat.exists_eq_succ_of_ne_zero (Nat.ne_of_gt (Nat.zero_lt_of_lt enough))
    have closes : Delimited ('}' :: rest) := by
      intro c s same
      cases same
      exact Or.inr (Or.inr (Or.inl rfl))
    obtain ⟨m, scanned, matches_⟩ := scanMember_compact good closes
    have brace : skip ('}' :: rest) = '}' :: rest := skip_solid ⟨_, _, rfl, rfl⟩
    refine ⟨[m], ?_, .cons matches_ .nil⟩
    rw [following, List.flatMap_nil, List.nil_append, scanMembers, scanned]
    simp only [bind, Option.bind_some, brace]
  | cons next entries ih =>
    obtain ⟨fuel, rfl⟩ := Nat.exists_eq_succ_of_ne_zero (Nat.ne_of_gt (Nat.zero_lt_of_lt enough))
    obtain ⟨members, others, matched⟩ :=
      ih (fun e member => later e (List.mem_cons_of_mem next member))
        (later next List.mem_cons_self) (Nat.lt_of_succ_lt_succ enough)
    have split_ : following (next :: entries) ++ '}' :: rest =
        ',' :: (next.compact ++ (following entries ++ '}' :: rest)) := by
      simp only [following, List.flatMap_cons, List.cons_append, List.append_assoc]
    have comma : Delimited (following (next :: entries) ++ '}' :: rest) := by
      rw [split_]
      intro c s same
      cases same
      exact Or.inr (Or.inl rfl)
    obtain ⟨m, scanned, matches_⟩ := scanMember_compact good comma
    refine ⟨m :: members, ?_, .cons matches_ matched⟩
    rw [scanMembers, scanned, split_]
    simp only [bind, Option.bind_some]
    rw [skip_solid ⟨_, _, rfl, rfl⟩]
    simp only [others, Option.bind_some]
    rfl

theorem scanItems_printed {gap tail : Text} (gaps : Blanks gap) (tails : Blanks tail)
    (skips : ∀ t, inner (skip t) = inner t)
    {items : List Item} (later : ∀ e ∈ items, e.Good inner) {e : Item} (good : e.Good inner)
    {first : Text} (blanks : Blanks first) {fuel : Nat} (enough : items.length < fuel)
    (rest : Text) :
    ∃ values, scanItems inner fuel (first ++ (e.text ++
        (((items.map Item.text).flatMap fun u => ',' :: (gap ++ u)) ++ (tail ++ ']' :: rest)))) =
      some (values, rest) ∧ List.Forall₂ Item.Matches values (e :: items) := by
  have starts : ∀ {e : Item} {first : Text}, e.Good inner → Blanks first → ∀ rest,
      inner (first ++ (e.text ++ rest)) = inner (e.value ++ rest) := by
    intro e first good blanks rest
    rw [← skips (first ++ (e.text ++ rest)), ← skips (e.value ++ rest), skip_blanks blanks,
      Item.text, List.append_assoc, skip_blanks good.blanks]
  induction items generalizing e first fuel with
  | nil =>
    obtain ⟨fuel, rfl⟩ := Nat.exists_eq_succ_of_ne_zero (Nat.ne_of_gt (Nat.zero_lt_of_lt enough))
    obtain ⟨j, scanned, holds⟩ := good.parses.scans _ (delimited_tail tails (Or.inr rfl) rest)
    have closes : skip (tail ++ ']' :: rest) = ']' :: rest := by
      rw [skip_blanks tails]
      exact skip_solid ⟨_, _, rfl, rfl⟩
    refine ⟨[j], ?_, .cons holds .nil⟩
    rw [List.map_nil, List.flatMap_nil, List.nil_append, scanItems, starts good blanks, scanned]
    simp only [bind, Option.bind_some, closes]
  | cons next items ih =>
    obtain ⟨fuel, rfl⟩ := Nat.exists_eq_succ_of_ne_zero (Nat.ne_of_gt (Nat.zero_lt_of_lt enough))
    obtain ⟨values, others, matched⟩ :=
      ih (fun e member => later e (List.mem_cons_of_mem next member))
        (later next List.mem_cons_self) gaps (Nat.lt_of_succ_lt_succ enough)
    obtain ⟨j, scanned, holds⟩ := good.parses.scans _
      (delimited_rest gap tails (Or.inr rfl) ((next :: items).map Item.text) rest)
    refine ⟨j :: values, ?_, .cons holds matched⟩
    rw [scanItems, starts good blanks, scanned]
    simp only [bind, Option.bind_some, List.map_cons, List.flatMap_cons, List.cons_append,
      List.append_assoc]
    rw [skip_solid ⟨_, _, rfl, rfl⟩]
    simp only [others, Option.bind_some]
    rfl

end Lists

theorem skip_skip (t : Text) : skip (skip t) = skip t := List.dropWhile_idempotent isBlank t

theorem scanValue_skip (depth : Nat) (t : Text) : scanValue depth (skip t) = scanValue depth t := by
  cases depth <;> rw [scanValue, scanValue, skip_skip]

theorem scanValue_bracket (depth : Nat) (s : Text) : scanValue depth (']' :: s) = none := by
  cases depth <;> rfl

theorem later_length (gap : Text) (later : List Text) :
    later.length ≤ (later.flatMap fun u => ',' :: (gap ++ u)).length := by
  induction later with
  | nil => exact Nat.le_refl 0
  | cons u later ih =>
    simp only [List.flatMap_cons, List.length_append, List.length_cons]
    omega

section Values

variable {depth : Nat}

/-- An object whose members are printed with commas between them. -/
theorem parses_object {entries : List Entry} (good : ∀ e ∈ entries, e.Good (scanValue depth))
    {first gap tail : Text} (firsts : Blanks first) (gaps : Blanks gap) (tails : Blanks tail) :
    Parses (scanValue (depth + 1))
      ('{' :: (joined first gap (entries.map Entry.text) ++ (tail ++ ['}'])))
      fun j => ∃ members, j = .object members ∧ List.Forall₂ Entry.Matches members entries where
  solid := ⟨_, _, rfl, rfl⟩
  scans rest _ := by
    rw [List.cons_append, scanValue, skip_solid ⟨_, _, rfl, rfl⟩]
    simp only [scanNested, scanObject, List.append_assoc, List.cons_append, List.nil_append]
    cases entries with
    | nil =>
      have closes : skip (tail ++ '}' :: rest) = '}' :: rest := by
        rw [skip_blanks tails]
        exact skip_solid ⟨_, _, rfl, rfl⟩
      simp only [List.map_nil, joined, List.nil_append, closes]
      exact ⟨_, rfl, [], rfl, .nil⟩
    | cons e entries =>
      simp only [List.map_cons, joined, List.append_assoc]
      have here := good e List.mem_cons_self
      have fits : entries.length < (first ++ (e.text ++
          (((entries.map Entry.text).flatMap fun u => ',' :: (gap ++ u)) ++
            (tail ++ '}' :: rest)))).length := by
        have := later_length gap (entries.map Entry.text)
        rw [List.length_map] at this
        simp only [List.length_append, List.length_cons]
        omega
      obtain ⟨members, scanned, matched⟩ := scanMembers_printed gaps tails
        (fun e member => good e (List.mem_cons_of_mem _ member)) here firsts fits rest
      rw [entry_opens here firsts]
      simp only [scanned, bind, Option.bind_some]
      exact ⟨_, rfl, members, rfl, matched⟩

/-- An array whose items are printed with commas between them. -/
theorem parses_compact {entries : List Entry} (later : ∀ e ∈ entries, e.Good (scanValue depth))
    {e : Entry} (good : e.Good (scanValue depth)) :
    Parses (scanValue (depth + 1)) ('{' :: (e.compact ++ (following entries ++ ['}'])))
      fun j => ∃ members, j = .object members ∧
        List.Forall₂ Entry.Matches members (e :: entries) where
  solid := ⟨_, _, rfl, rfl⟩
  scans rest _ := by
    rw [List.cons_append, scanValue, skip_solid ⟨_, _, rfl, rfl⟩]
    simp only [scanNested, scanObject, List.append_assoc, List.cons_append, List.nil_append]
    have fits : entries.length < (e.compact ++ (following entries ++ '}' :: rest)).length := by
      have each : entries.length ≤ (following entries).length := by
        induction entries with
        | nil => exact Nat.le_refl 0
        | cons next entries ih =>
          have tail := ih fun e member => later e (List.mem_cons_of_mem next member)
          simp only [following, List.flatMap_cons, List.length_append, List.length_cons] at tail ⊢
          omega
      simp only [List.length_append, List.length_cons]
      omega
    obtain ⟨members, scanned, matched⟩ := scanMembers_compact later good fits rest
    have quote : ∀ s, skip (e.compact ++ s) = '"' :: (e.name ++ '"' :: ':' :: (e.value ++ s)) := by
      intro s
      simp only [Entry.compact, List.cons_append, List.append_assoc]
      exact skip_solid ⟨_, _, rfl, rfl⟩
    rw [quote]
    simp only [scanned, bind, Option.bind_some]
    exact ⟨_, rfl, members, rfl, matched⟩

theorem parses_array {items : List Item} (good : ∀ e ∈ items, e.Good (scanValue depth))
    {first gap tail : Text} (firsts : Blanks first) (gaps : Blanks gap) (tails : Blanks tail) :
    Parses (scanValue (depth + 1))
      ('[' :: (joined first gap (items.map Item.text) ++ (tail ++ [']'])))
      fun j => ∃ values, j = .array values ∧ List.Forall₂ Item.Matches values items where
  solid := ⟨_, _, rfl, rfl⟩
  scans rest _ := by
    rw [List.cons_append, scanValue, skip_solid ⟨_, _, rfl, rfl⟩]
    simp only [scanNested, scanArray, List.append_assoc, List.cons_append, List.nil_append]
    cases items with
    | nil =>
      have closes : skip (tail ++ ']' :: rest) = ']' :: rest := by
        rw [skip_blanks tails]
        exact skip_solid ⟨_, _, rfl, rfl⟩
      simp only [List.map_nil, joined, List.nil_append, closes]
      exact ⟨_, rfl, [], rfl, .nil⟩
    | cons e items =>
      simp only [List.map_cons, joined, List.append_assoc]
      have here := good e List.mem_cons_self
      have fits : items.length < (first ++ (e.text ++
          (((items.map Item.text).flatMap fun u => ',' :: (gap ++ u)) ++
            (tail ++ ']' :: rest)))).length := by
        have := later_length gap (items.map Item.text)
        rw [List.length_map] at this
        simp only [List.length_append, List.length_cons]
        omega
      obtain ⟨values, scanned, matched⟩ := scanItems_printed gaps tails (scanValue_skip depth)
        (fun e member => good e (List.mem_cons_of_mem _ member)) here firsts fits rest
      obtain ⟨c, s, starts, visible⟩ := here.parses.solid
      -- A value does not begin with the bracket that closes the array.
      have other : c ≠ ']' := by
        rintro rfl
        have ends : Delimited [] := fun c s starts => by cases starts
        obtain ⟨j, found, -⟩ := here.parses.scans [] ends
        rw [starts, List.cons_append, scanValue_bracket] at found
        cases found
      have opens : ∀ rest, skip (first ++ (e.text ++ rest)) = c :: (s ++ rest) := by
        intro rest
        rw [skip_blanks firsts, Item.text, List.append_assoc, skip_blanks here.blanks, starts]
        exact skip_solid ⟨c, s ++ rest, rfl, visible⟩
      rw [opens]
      simp only [scanned, bind, Option.bind_some]
      split
      · next same => exact absurd (List.cons.inj same).1 other
      · exact ⟨_, rfl, values, rfl, matched⟩

/-- A numeral without a zero too many. -/
structure Plain (digits : Text) : Prop where
  some_ : digits ≠ []
  all : ∀ c ∈ digits, c.isDigit = true
  lead : digits = ['0'] ∨ ∀ s, digits ≠ '0' :: s

theorem delimited_head {c : Char} {s : Text} (delimited : Delimited (c :: s)) :
    ¬ c.isDigit = true ∧ c ≠ '.' ∧ ¬ (c = 'e' ∨ c = 'E') := by
  rcases delimited c s rfl with blank | rfl | rfl | rfl
  · simp only [isBlank, Bool.or_eq_true, beq_iff_eq] at blank
    rcases blank with ((rfl | rfl) | rfl) | rfl <;> decide
  all_goals decide

theorem scanWhole_printed {digits : Text} (plain : Plain digits) {rest : Text}
    (delimited : Delimited rest) : scanWhole (digits ++ rest) = some (digits, rest) := by
  rcases plain.lead with rfl | other
  · rfl
  · have stop : rest.takeWhile Char.isDigit = [] ∧ rest.dropWhile Char.isDigit = rest := by
      cases rest with
      | nil => exact ⟨rfl, rfl⟩
      | cons c s =>
        have nonDigit := (delimited_head delimited).1
        exact ⟨List.takeWhile_cons_of_neg nonDigit, List.dropWhile_cons_of_neg nonDigit⟩
    rw [scanWhole, scanDigits, List.takeWhile_append_of_pos plain.all,
      List.dropWhile_append_of_pos plain.all, stop.1, stop.2, List.append_nil]
    · cases digits with
      | nil => exact absurd rfl plain.some_
      | cons c digits => rfl
    · intro s same
      cases digits with
      | nil => exact plain.some_ rfl
      | cons c digits => exact other digits (by rw [(List.cons.inj same).1])

theorem scanUnsigned_printed {digits : Text} (plain : Plain digits) (negative : Bool) {rest : Text}
    (delimited : Delimited rest) :
    scanUnsigned negative (digits ++ rest) = some (⟨negative, digits, none, none⟩, rest) := by
  have fraction : scanFraction rest = some (none, rest) := by
    cases rest with
    | nil => rfl
    | cons c s =>
      rw [scanFraction]
      exact fun _ same => (delimited_head delimited).2.1 (List.cons.inj same).1
  have exponent : scanExponent rest = some (none, rest) := by
    cases rest with
    | nil => rfl
    | cons c s => rw [scanExponent, if_neg (delimited_head delimited).2.2]
  simp only [scanUnsigned, scanWhole_printed plain delimited, bind, Option.bind_some, fraction,
    exponent]
  rfl

/-- A scalar is one at every depth. -/
theorem scanValue_scalar {t : Text} (solid : Solid t) {rest : Text} {result : Json × Text}
    (scanned : scanScalar (t ++ rest) = some result) : scanValue depth (t ++ rest) = some result := by
  have starts := skip_solid (solid_append solid rest)
  cases depth with
  | zero => rw [scanValue, starts, scanned]
  | succ depth =>
    rw [scanValue, starts]
    exact scan_nested_of_scalar scanned

theorem parses_string {t : Text} {codes : List Nat} (spells : Spells t codes) :
    Parses (scanValue depth) ('"' :: (t ++ ['"'])) (· = .string codes) where
  solid := ⟨_, _, rfl, rfl⟩
  scans rest _ := by
    have spelled : scanText (t ++ '"' :: rest) = some (codes, rest) := spells rest
    refine ⟨_, scanValue_scalar ⟨_, _, rfl, rfl⟩ ?_, rfl⟩
    simp only [List.cons_append, List.append_assoc, List.nil_append, scanScalar, spelled, bind,
      Option.bind_some]
    rfl

theorem parses_null : Parses (scanValue depth) ['n', 'u', 'l', 'l'] (· = .null) where
  solid := ⟨_, _, rfl, rfl⟩
  scans _ _ := ⟨_, scanValue_scalar ⟨_, _, rfl, rfl⟩ rfl, rfl⟩

theorem scanScalar_digit {c : Char} (digit : c.isDigit = true) (s : Text) :
    scanScalar (c :: s) = (scanUnsigned false (c :: s)).map fun p => (.number p.1, p.2) := by
  have number : scanNumber (c :: s) = scanUnsigned false (c :: s) := by
    rw [scanNumber]
    rintro _ ⟨⟩
    exact absurd digit (by decide)
  rw [scanScalar, number]
  · cases scanUnsigned false (c :: s) <;> rfl
  all_goals
    rintro _ ⟨⟩
    exact absurd digit (by decide)

theorem parses_number {digits : Text} (plain : Plain digits) :
    Parses (scanValue depth) digits (· = .number ⟨false, digits, none, none⟩) := by
  obtain ⟨c, s, rfl⟩ := List.exists_cons_of_ne_nil plain.some_
  have digit := plain.all c List.mem_cons_self
  have solid : Solid (c :: s) := by
    refine ⟨c, s, rfl, ?_⟩
    by_contra blank
    simp only [isBlank, Bool.not_eq_false, Bool.or_eq_true, beq_iff_eq] at blank
    rcases blank with ((rfl | rfl) | rfl) | rfl <;> exact absurd digit (by decide)
  refine ⟨solid, fun rest delimited => ⟨_, scanValue_scalar solid ?_, rfl⟩⟩
  have scanned := scanUnsigned_printed plain false delimited
  rw [List.cons_append] at scanned ⊢
  rw [scanScalar_digit digit, scanned]
  rfl

theorem parses_negative {digits : Text} (plain : Plain digits) :
    Parses (scanValue depth) ('-' :: digits) (· = .number ⟨true, digits, none, none⟩) where
  solid := ⟨_, _, rfl, rfl⟩
  scans rest delimited := by
    refine ⟨_, scanValue_scalar ⟨_, _, rfl, rfl⟩ ?_, rfl⟩
    rw [List.cons_append, scanScalar]
    · simp only [scanNumber, scanUnsigned_printed plain true delimited, bind, Option.bind_some]
      rfl
    all_goals exact nofun

theorem parses_true : Parses (scanValue depth) ['t', 'r', 'u', 'e'] (· = .bool true) where
  solid := ⟨_, _, rfl, rfl⟩
  scans _ _ := ⟨_, scanValue_scalar ⟨_, _, rfl, rfl⟩ rfl, rfl⟩

end Values

theorem plain_toDigits (n : Nat) : Plain (Nat.toDigits 10 n) where
  some_ := Nat.toDigits_ne_nil
  all c member := Nat.isDigit_of_mem_toDigits (by decide) (by decide) member
  lead := by
    induction n using Nat.strongRecOn with
    | ind n ih =>
      by_cases low : n < 10
      · have each : ∀ n < 10, Nat.digitChar n = '0' → n = 0 := by decide
        rw [Nat.toDigits_of_lt_base low]
        by_cases zero : n = 0
        · subst zero
          exact Or.inl rfl
        · refine Or.inr fun s same => ?_
          exact zero (each n low (List.cons.inj same).1)
      · rw [Nat.toDigits_of_base_le (by decide) (by omega)]
        refine Or.inr fun s same => ?_
        rcases ih (n / 10) (by omega) with zero | other
        · have value := Nat.ofDigitChars_toDigits (b := 10) (n := n / 10) (by decide) (by decide)
          rw [zero] at value
          have none_ : n / 10 = 0 := value.symm
          omega
        · cases digits : Nat.toDigits 10 (n / 10) with
          | nil => exact Nat.toDigits_ne_nil digits
          | cons c t =>
            rw [digits, List.cons_append] at same
            exact other t (by rw [digits, (List.cons.inj same).1])

end JsonPrint
