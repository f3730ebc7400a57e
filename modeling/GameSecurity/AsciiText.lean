import Mathlib.Data.List.TakeWhile
import Mathlib.Data.List.DropRight

/- ASCII text as bytes: the character classes of the C locale, and numerals. -/
namespace AsciiText

abbrev Text := List UInt8

-- What maps by text and lists of texts rest on.
scoped instance textTrans : Trans (fun a b : Text => a < b) (fun a b : Text => a < b)
    fun a b : Text => a < b := inferInstance

scoped instance textTrichotomous : Std.Trichotomous fun a b : Text => a < b := inferInstance

scoped instance textLawful : LawfulBEq Text := inferInstance

/-- A literal of the source. -/
def text (literal : String) : Text := literal.toList.map fun c => c.toNat.toUInt8

def isspace (c : UInt8) : Bool := c = 32 ∨ (9 ≤ c ∧ c ≤ 13)

def isdigit (c : UInt8) : Bool := 48 ≤ c ∧ c ≤ 57

def isupper (c : UInt8) : Bool := 65 ≤ c ∧ c ≤ 90

def islower (c : UInt8) : Bool := 97 ≤ c ∧ c ≤ 122

def isalnum (c : UInt8) : Bool := isdigit c ∨ isupper c ∨ islower c

def tolower (c : UInt8) : UInt8 := if isupper c then c + 32 else c

def isxdigit (c : UInt8) : Bool := isdigit c ∨ (65 ≤ c ∧ c ≤ 70) ∨ (97 ≤ c ∧ c ≤ 102)

/-- What every number below 256 has, every byte has. -/
theorem each_byte {p : UInt8 → Prop} (each : ∀ n < 256, p n.toUInt8) (c : UInt8) : p c := by
  have found := each c.toNat c.toNat_lt
  rwa [show c.toNat.toUInt8 = c from c.ofNat_toNat] at found

/-- The value of a digit, up to base 16. -/
def digitValue (c : UInt8) : Nat :=
  if isdigit c then c.toNat - 48 else (tolower c).toNat - 87

/-- The value of a row of digits, behind digits of the value `n`. -/
def valueFrom (base n : Nat) (digits : Text) : Nat :=
  digits.foldl (fun n c => n * base + digitValue c) n

def value (base : Nat) (digits : Text) : Nat := valueFrom base 0 digits

/-- The digits of a number, in lower case. -/
def numeral (base n : Nat) : Text := (Nat.toDigits base n).map fun c => c.toNat.toUInt8

theorem value_append (base : Nat) (a b : Text) :
    value base (a ++ b) = valueFrom base (value base a) b := List.foldl_append

/-- The digit of a number below 16. -/
def digit (n : Nat) : UInt8 := n.digitChar.toNat.toUInt8

theorem digitValue_digit {n : Nat} (low : n < 16) : digitValue (digit n) = n := by
  have each : ∀ n < 16, digitValue (digit n) = n := by decide
  exact each n low

theorem digitValue_lt {c : UInt8} (hex : isxdigit c = true) : digitValue c < 16 := by
  simp only [isxdigit, digitValue, tolower, isupper, isdigit, decide_eq_true_eq,
    UInt8.le_iff_toNat_le, UInt8.toNat_ofNat] at hex ⊢
  split
  · omega
  · split
    · rw [UInt8.toNat_add, show (32 : UInt8).toNat = 32 from rfl]
      omega
    · omega

theorem isdigit_digit {n : Nat} (low : n < 10) : isdigit (digit n) = true := by
  have each : ∀ n < 10, isdigit (digit n) = true := by decide
  exact each n low

theorem isxdigit_digit {n : Nat} (low : n < 16) : isxdigit (digit n) = true := by
  have each : ∀ n < 16, isxdigit (digit n) = true := by decide
  exact each n low

theorem numeral_low {base n : Nat} (low : n < base) : numeral base n = [digit n] := by
  rw [numeral, Nat.toDigits_of_lt_base low]
  rfl

theorem numeral_high {base n : Nat} (many : 1 < base) (high : base ≤ n) :
    numeral base n = numeral base (n / base) ++ [digit (n % base)] := by
  rw [numeral, Nat.toDigits_of_base_le many high, List.map_append]
  rfl

theorem numeral_ne_nil (base n : Nat) : numeral base n ≠ [] := by
  rw [numeral, Ne, List.map_eq_nil_iff]
  exact Nat.toDigits_ne_nil

theorem value_numeral {base : Nat} (many : 1 < base) (few : base ≤ 16) (n : Nat) :
    value base (numeral base n) = n := by
  induction n using Nat.strongRecOn with
  | ind n ih =>
    by_cases low : n < base
    · rw [numeral_low low]
      change 0 * base + digitValue (digit n) = n
      rw [digitValue_digit (by omega)]
      omega
    · have last : n % base < base := Nat.mod_lt n (by omega)
      rw [numeral_high many (by omega), value_append, ih (n / base) (Nat.div_lt_self (by omega) many)]
      change n / base * base + digitValue (digit (n % base)) = n
      rw [digitValue_digit (by omega), Nat.mul_comm]
      exact Nat.div_add_mod n base

/-- What every digit below the base has, the digits of a numeral have. -/
theorem numeral_all {base : Nat} (many : 1 < base) (p : UInt8 → Prop)
    (each : ∀ n < base, p (digit n)) (n : Nat) : ∀ c ∈ numeral base n, p c := by
  induction n using Nat.strongRecOn with
  | ind n ih =>
    intro c member
    by_cases low : n < base
    · rw [numeral_low low, List.mem_singleton] at member
      subst member
      exact each n low
    · rw [numeral_high many (by omega), List.mem_append, List.mem_singleton] at member
      rcases member with before | rfl
      · exact ih (n / base) (Nat.div_lt_self (by omega) many) c before
      · exact each (n % base) (Nat.mod_lt n (by omega))

/-- No numeral begins with a zero, but that of zero. -/
theorem numeral_lead {base n : Nat} (many : 1 < base) (positive : 0 < n) :
    ∃ d s, numeral base n = digit d :: s ∧ 0 < d ∧ d < base := by
  induction n using Nat.strongRecOn with
  | ind n ih =>
    by_cases low : n < base
    · exact ⟨n, [], numeral_low low, positive, low⟩
    · obtain ⟨d, s, starts, first, few⟩ :=
        ih (n / base) (Nat.div_lt_self positive many) (Nat.div_pos (by omega) (by omega))
      exact ⟨d, s ++ [digit (n % base)], by rw [numeral_high many (by omega), starts]; rfl, first, few⟩

def Blank (s : Text) : Prop := ∀ c ∈ s, isspace c = true

theorem Blank.append {a b : Text} (first : Blank a) (second : Blank b) : Blank (a ++ b) := by
  intro c member
  rcases List.mem_append.mp member with before | after
  · exact first c before
  · exact second c after

/-- Both ends without their spaces. -/
def trim (s : Text) : Text := (s.dropWhile isspace).rdropWhile isspace

theorem dropWhile_head {p : UInt8 → Bool} {c : UInt8} {s r : Text}
    (found : s.dropWhile p = c :: r) : p c = false := by
  have stop := List.head_dropWhile_not p (l := s)
  simpa [found] using stop

theorem dropWhile_stop {p : UInt8 → Bool} {c : UInt8} (stop : p c = false) (a b : Text) :
    (a ++ c :: b).dropWhile p = a.dropWhile p ++ c :: b := by
  induction a with
  | nil => exact List.dropWhile_cons_of_neg (by rw [stop]; exact Bool.false_ne_true)
  | cons d a ih =>
    rw [List.cons_append, List.dropWhile_cons, List.dropWhile_cons]
    split
    · exact ih
    · rfl

theorem rdropWhile_stop {p : UInt8 → Bool} {c : UInt8} (stop : p c = false) (a b : Text) :
    (a ++ c :: b).rdropWhile p = a ++ c :: b.rdropWhile p := by
  have turned : (a ++ c :: b).reverse = b.reverse ++ c :: a.reverse := by simp
  rw [List.rdropWhile, turned, dropWhile_stop stop, List.rdropWhile]
  simp

theorem trim_before {a : Text} (blank : Blank a) (s : Text) : trim (a ++ s) = trim s := by
  rw [trim, List.dropWhile_append_of_pos blank, trim]

theorem trim_after {b : Text} (blank : Blank b) (s : Text) : trim (s ++ b) = trim s := by
  induction s with
  | nil =>
    have none_ : b.dropWhile isspace = [] := List.dropWhile_eq_nil_iff.mpr blank
    rw [List.nil_append, trim, none_]
    rfl
  | cons c s ih =>
    rw [trim, trim, List.cons_append, List.dropWhile_cons, List.dropWhile_cons]
    split
    · exact ih
    · have turned : (c :: (s ++ b)).reverse = b.reverse ++ (c :: s).reverse := by simp
      have spaces : ∀ d ∈ b.reverse, isspace d = true :=
        fun d member => blank d (List.mem_reverse.mp member)
      rw [List.rdropWhile, turned, List.dropWhile_append_of_pos spaces, List.rdropWhile]

theorem trim_dropWhile (s : Text) : trim (s.dropWhile isspace) = trim s := by
  have blank : Blank (s.takeWhile isspace) := fun c => List.mem_takeWhile_imp
  have split_ := trim_before blank (s.dropWhile isspace)
  rwa [List.takeWhile_append_dropWhile, eq_comm] at split_

theorem trim_rdropWhile (s : Text) : trim (s.rdropWhile isspace) = trim s := by
  have blank : Blank (s.rtakeWhile isspace) := fun c => List.mem_rtakeWhile_imp
  have split_ := trim_after blank (s.rdropWhile isspace)
  rwa [List.rdropWhile_append_rtakeWhile, eq_comm] at split_

theorem trim_trim (s : Text) : trim (trim s) = trim s := by
  rw [show trim s = (s.dropWhile isspace).rdropWhile isspace from rfl, trim_rdropWhile,
    trim_dropWhile]
  rfl

theorem trim_solid (s : Text) : (trim s).dropWhile isspace = trim s := by
  obtain ⟨r, split_⟩ := List.rdropWhile_prefix isspace (l := s.dropWhile isspace)
  cases found : trim s with
  | nil => rfl
  | cons c t =>
    rw [show (s.dropWhile isspace).rdropWhile isspace = c :: t from found] at split_
    exact List.dropWhile_cons_of_neg (by rw [dropWhile_head split_.symm]; exact Bool.false_ne_true)

section Throwing

variable {ε α β : Type}

@[simp] theorem ok_bind (a : α) (f : α → Except ε β) : (Except.ok a >>= f) = f a := rfl

@[simp] theorem error_bind (what : ε) (f : α → Except ε β) :
    (Except.error what >>= f) = .error what := rfl

theorem bind_eq_ok_iff {x : Except ε α} {f : α → Except ε β} {b : β} :
    (x >>= f) = .ok b ↔ ∃ a, x = .ok a ∧ f a = .ok b := by
  cases x with
  | error what => simp
  | ok a => simp

end Throwing

end AsciiText
