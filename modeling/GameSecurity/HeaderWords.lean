import GameSecurity.CppTokens
import GameSecurity.DumperOutput

/- What the code of a header is written with: the identifiers that are made of names, and
   numbers. -/
namespace HeaderWords
open AsciiText DumperOutput CppTokens

/-- A letter or an underscore, then letters, digits and underscores. -/
def Identifier (name : Text) : Prop :=
  (∃ c s, name = c :: s ∧ isdigit c = false) ∧ ∀ c ∈ name, isalnum c = true ∨ c = 95

instance (name : Text) : Decidable (Identifier name) :=
  decidable_of_iff (name.head?.any (fun c => !isdigit c) = true ∧
      ∀ c ∈ name, isalnum c = true ∨ c = 95) <| by
    refine and_congr_left fun _ => ?_
    cases name with
    | nil => simp
    | cons c s => simp

def namespaceName (module : Text) : Text := snakeCase (slugify module)

section Names

/-- What leads a name that has nothing in front of a digit. -/
def led (s : Text) : Text :=
  match s with
  | [] => [95]
  | c :: rest => if isdigit c then 95 :: c :: rest else c :: rest

def plain (c : UInt8) : UInt8 := if isalnum c ∨ c = 95 then c else 95

theorem isdigit_plain (c : UInt8) : isdigit (plain c) = isdigit c := by
  rw [plain]
  split
  · rfl
  · next other =>
    have noDigit : isdigit c = false := by
      by_contra digit
      exact other (Or.inl (by simp [isalnum, digit]))
    rw [noDigit]
    rfl

theorem slugify_led (s : Text) : slugify s = (led s).map plain := by
  cases s with
  | nil => rfl
  | cons c s =>
    change (if isdigit (plain c) then 95 :: plain c :: s.map plain else plain c :: s.map plain) =
      (if isdigit c then 95 :: c :: s else c :: s).map plain
    rw [isdigit_plain]
    split <;> rfl

theorem plain_alnum {c : UInt8} (letter : isalnum c = true) : plain c = c := if_pos (Or.inl letter)

theorem plain_other {c : UInt8} (other : isalnum c = false) : plain c = 95 := by
  rw [plain]
  split
  · next word => exact word.resolve_left (by rw [other]; exact Bool.false_ne_true)
  · rfl

def Word (s : Text) : Prop := ∀ c ∈ s, isalnum c = true ∨ c = 95

theorem plain_word (c : UInt8) : isalnum (plain c) = true ∨ plain c = 95 := by
  cases letter : isalnum c with
  | true => exact Or.inl ((plain_alnum letter).symm ▸ letter)
  | false => exact Or.inr (plain_other letter)

theorem slugify_identifier (s : Text) : Identifier (slugify s) := by
  rw [slugify_led]
  constructor
  · have leads : ∃ c rest, led s = c :: rest ∧ isdigit c = false := by
      cases s with
      | nil => exact ⟨95, [], rfl, by decide⟩
      | cons c rest =>
        cases digit : isdigit c with
        | true => exact ⟨95, c :: rest, by simp [led, digit], by decide⟩
        | false => exact ⟨c, rest, by simp [led, digit], digit⟩
    obtain ⟨c, rest, same, first⟩ := leads
    exact ⟨plain c, rest.map plain, by rw [same]; rfl, (isdigit_plain c).trans first⟩
  · intro c member
    obtain ⟨d, -, rfl⟩ := List.mem_map.mp member
    exact plain_word d

theorem tolower_word {c : UInt8} (upper : isupper c = true) :
    isalnum (tolower c) = true ∧ isdigit (tolower c) = false := by
  simp only [isupper, decide_eq_true_eq, UInt8.le_iff_toNat_le, UInt8.toNat_ofNat] at upper
  have up : isupper c = true := by
    simp only [isupper, decide_eq_true_eq, UInt8.le_iff_toNat_le, UInt8.toNat_ofNat]
    exact upper
  have moved : (c + 32).toNat = c.toNat + 32 := by
    rw [UInt8.toNat_add, show (32 : UInt8).toNat = 32 from rfl]
    omega
  have lower : islower (c + 32) = true := by
    simp only [islower, decide_eq_true_eq, UInt8.le_iff_toNat_le, UInt8.toNat_ofNat, moved]
    omega
  have digit : isdigit (c + 32) = false := by
    simp only [isdigit, decide_eq_false_iff_not, UInt8.le_iff_toNat_le, UInt8.toNat_ofNat, moved]
    omega
  rw [tolower, if_pos up]
  exact ⟨by simp [isalnum, lower], digit⟩

/-- What has been put out stays in front, and letters, digits and underscores come behind it. -/
theorem snakeFrom_word {s out : Text} (word : Word s) (before : Word out) :
    Word (snakeFrom out s) ∧ out <+: snakeFrom out s := by
  have append : ∀ {a b : Text}, Word a → Word b → Word (a ++ b) := by
    intro a b first second c member
    exact (List.mem_append.mp member).elim (first c) (second c)
  have single : ∀ {c : UInt8}, isalnum c = true ∨ c = 95 → Word [c] := by
    intro c holds d member
    rw [List.mem_singleton.mp member]
    exact holds
  induction s generalizing out with
  | nil => exact ⟨before, List.prefix_rfl⟩
  | cons c s ih =>
    have later : Word s := fun d member => word d (List.mem_cons_of_mem c member)
    rw [snakeFrom]
    split
    · next upper =>
      have letter := single (Or.inl (tolower_word upper).1)
      split
      · obtain ⟨whole, more⟩ := ih later (append (append before (single (Or.inr rfl))) letter)
        exact ⟨whole, ((List.prefix_append _ _).trans (List.prefix_append _ _)).trans more⟩
      · obtain ⟨whole, more⟩ := ih later (append before letter)
        exact ⟨whole, (List.prefix_append _ _).trans more⟩
    · obtain ⟨whole, more⟩ := ih later (append before (single (word c List.mem_cons_self)))
      exact ⟨whole, (List.prefix_append _ _).trans more⟩

theorem namespaceName_identifier (module : Text) : Identifier (namespaceName module) := by
  obtain ⟨⟨c, s, same, first⟩, word⟩ := slugify_identifier module
  rw [same] at word
  have later : Word s := fun d member => word d (List.mem_cons_of_mem c member)
  -- The first character is put out as it is or in lower case.
  have starts : ∃ d, isdigit d = false ∧ (isalnum d = true ∨ d = 95) ∧
      snakeFrom [] (c :: s) = snakeFrom [d] s := by
    rw [snakeFrom]
    split
    · next upper => exact ⟨tolower c, (tolower_word upper).2, Or.inl (tolower_word upper).1, rfl⟩
    · exact ⟨c, first, word c List.mem_cons_self, rfl⟩
  obtain ⟨d, noDigit, holds, run⟩ := starts
  have single : Word [d] := by
    intro e member
    rw [List.mem_singleton.mp member]
    exact holds
  obtain ⟨whole, rest, more⟩ := snakeFrom_word later single
  rw [namespaceName, snakeCase, same, run]
  exact ⟨⟨d, rest, more.symm, noDigit⟩, whole⟩

end Names

section Code

/-- Plain code of one line. -/
def Code (s : Text) : Prop := ∀ c ∈ s, Plain c ∧ c ≠ 10

instance (s : Text) : Decidable (Code s) := inferInstanceAs (Decidable (∀ c ∈ s, Plain c ∧ c ≠ 10))

theorem Code.append {a b : Text} (first : Code a) (second : Code b) : Code (a ++ b) := by
  intro c member
  exact (List.mem_append.mp member).elim (first c) (second c)

theorem Code.line {s : Text} (code : Code s) : 10 ∉ s := fun member => (code 10 member).2 rfl

theorem Code.plain {s : Text} (code : Code s) : ∀ c ∈ s, Plain c :=
  fun c member => (code c member).1

theorem word_code {s : Text} (word : ∀ c ∈ s, isalnum c = true ∨ c = 95) : Code s := by
  intro c member
  have other : ∀ d : UInt8, isalnum d = false → d ≠ 95 → c ≠ d := by
    rintro d letter mark rfl
    rcases word c member with alnum | same
    · exact Bool.false_ne_true (letter.symm.trans alnum)
    · exact mark same
  exact ⟨⟨other 13 (by decide) (by decide), other 34 (by decide) (by decide),
    other 39 (by decide) (by decide), other 47 (by decide) (by decide),
    other 92 (by decide) (by decide)⟩, other 10 (by decide) (by decide)⟩

theorem upperHex_code (n : UInt64) : Code (upperHex n) := by
  have ten : 1 < 16 := by decide
  refine Code.append (by decide) fun c member => ?_
  obtain ⟨d, listed, rfl⟩ := List.mem_map.mp member
  exact numeral_all ten
    (fun d => Plain (if islower d then d - 32 else d) ∧ (if islower d then d - 32 else d) ≠ 10)
    (by decide) n.toNat d listed

theorem hex_code (value : Int64) : Code (hex value) := upperHex_code _

theorem enumHex_code (value : Int64) (alignment : UInt8) : Code (enumHex value alignment) :=
  upperHex_code _

theorem numeral_code (n : Nat) : Code (numeral 10 n) := by
  have ten : 1 < 10 := by decide
  exact numeral_all ten (fun c => Plain c ∧ c ≠ 10) (by decide) n

theorem toString_code (n : Int) : Code (DumperOutput.toString n) := by
  rw [DumperOutput.toString]
  split
  · exact Code.append (a := [45]) (by decide) (numeral_code n.natAbs)
  · exact numeral_code n.natAbs

theorem enumCppType_code (alignment : UInt8) : Code (enumCppType alignment) := by
  rw [enumCppType]
  repeat' split
  all_goals decide

end Code

end HeaderWords
