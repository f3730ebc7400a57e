import Mathlib.Algebra.Group.Int.Defs
import Mathlib.Algebra.Group.Nat.Defs
import Mathlib.Data.List.Induction
import GameSecurity.RuntimeConfig

/- load_file: a layout is changed line by line by the text that its file stream gives. -/
namespace LayoutFile
open AsciiText RuntimeConfig

def lines : Text → List Text
  | [] => []
  | c :: s =>
    if c = 10 then [] :: lines s
    else
      match lines s with
      | [] => [[c]]
      | line :: rest => (c :: line) :: rest

def splitSign : Text → Bool × Text
  | [] => (false, [])
  | c :: s => if c = 45 then (true, s) else if c = 43 then (false, s) else (false, c :: s)

/-- The base that a numeral's first characters choose, and its digits from there. -/
def splitBase : Text → Nat × Text
  | z :: x :: d :: s =>
    if z = 48 ∧ (x = 120 ∨ x = 88) ∧ isxdigit d then (16, d :: s)
    else (if z = 48 then 8 else 10, z :: x :: d :: s)
  | s => (if s.head? = some 48 then 8 else 10, s)

def inBase (base : Nat) (c : UInt8) : Bool := isxdigit c && decide (digitValue c < base)

/-- std::stoull in base 0; the rest of the text is what it has not consumed. Both of its
   exceptions carry the function's name. -/
def stoull (s : Text) : Except Text (UInt64 × Text) :=
  let (negative, s) := splitSign (s.dropWhile isspace)
  let (base, s) := splitBase s
  let digits := s.takeWhile (inBase base)
  if digits = [] then .error (text "stoull")
  else if 2 ^ 64 ≤ value base digits then .error (text "stoull")
  else
    let n := (value base digits).toUInt64
    .ok (if negative then 0 - n else n, s.dropWhile (inBase base))

def parseInteger (input : Text) : Except Text UInt64 :=
  let s := trim input
  if s = [] then .error (text "empty integer value")
  else do
    let (value, rest) ← stoull s
    if rest ≠ [] then .error (text "invalid integer value: " ++ s) else .ok value

/-- One turn of the loop, up to the assignment; nothing: the line is skipped. -/
def readLine (lineNo : Nat) (line : Text) : Except Text (Option (Text × UInt64)) :=
  let line := trim line
  if line = [] ∨ line.head? = some 35 then .ok none
  else
    match line.dropWhile (· ≠ 61) with
    | [] => .error (text "invalid layout line " ++ numeral 10 lineNo ++ text ": expected key=value")
    | _ :: rest =>
      let key := trim (line.takeWhile (· ≠ 61))
      let value := trim rest
      if key = [] then .error (text "empty layout key on line " ++ numeral 10 lineNo)
      else do
        let n ← parseInteger value
        .ok (some (key, n))

def LayoutConfig.set (c : LayoutConfig) (key : Text) (n : UInt64) : LayoutConfig where
  values other := if other = key then some n else c.values other

/-- The loop from a line on; an exception leaves what the lines before it have set. -/
def loadLines (c : LayoutConfig) (lineNo : Nat) : List Text → LayoutConfig × Except Text Unit
  | [] => (c, .ok ())
  | line :: rest =>
    match readLine (lineNo + 1) line with
    | .error what => (c, .error what)
    | .ok none => loadLines c (lineNo + 1) rest
    | .ok (some (key, n)) => loadLines (LayoutConfig.set c key n) (lineNo + 1) rest

def loadFile (c : LayoutConfig) (path : Text) (file : Option Text) :
    LayoutConfig × Except Text Unit :=
  match file with
  | none => (c, .error (text "unable to open layout file: " ++ path))
  | some content => loadLines c 0 (lines content)

def Skipped (line : Text) : Prop := trim line = [] ∨ (trim line).head? = some 35

instance (line : Text) : Decidable (Skipped line) := inferInstanceAs (Decidable (_ ∨ _))

def Sets (line key v : Text) : Prop :=
  ¬ Skipped line ∧ ∃ a b, line = a ++ 61 :: b ∧ 61 ∉ a ∧ key = trim a ∧ v = trim b

/-- The documented numerals: decimal, or hexadecimal behind a prefix. -/
def Numeral (v : Text) (n : UInt64) : Prop :=
  (v ≠ [] ∧ (∀ c ∈ v, isdigit c = true) ∧ value 10 v = n.toNat) ∨
    ∃ x digits, v = 48 :: x :: digits ∧ (x = 120 ∨ x = 88) ∧ digits ≠ [] ∧
      (∀ c ∈ digits, isxdigit c = true) ∧ value 16 digits = n.toNat

def WellFormed (ls : List Text) : Prop :=
  ∀ line ∈ ls, Skipped line ∨ ∃ key v n, Sets line key v ∧ key ≠ [] ∧ Numeral v n

def LastSet (ls : List Text) (key v : Text) : Prop :=
  ∃ before line after, ls = before ++ line :: after ∧ Sets line key v ∧
    ∀ later ∈ after, ∀ other, ¬ Sets later key other

def Unset (ls : List Text) (key : Text) : Prop := ∀ line ∈ ls, ∀ v, ¬ Sets line key v

/-- What the file format promises of a load: all of a well-formed text, nothing of any other. -/
structure Meets (c : LayoutConfig) (path content : Text) : Prop where
  succeeds : WellFormed (lines content) → (loadFile c path (some content)).2 = .ok ()
  sets : WellFormed (lines content) → ∀ key v n, LastSet (lines content) key v → Numeral v n →
    (loadFile c path (some content)).1.get key = .ok n
  keeps : WellFormed (lines content) → ∀ key, Unset (lines content) key →
    (loadFile c path (some content)).1.get key = c.get key
  refuses : ¬ WellFormed (lines content) →
    ∃ what, (loadFile c path (some content)).2 = .error what
  restores : ¬ WellFormed (lines content) →
    ∀ key, (loadFile c path (some content)).1.get key = c.get key

/-- What the automatic base makes of an unsigned numeral: a leading zero chooses base 8. -/
def Magnitude (v : Text) (m : Nat) : Prop :=
  (∃ x digits, v = 48 :: x :: digits ∧ (x = 120 ∨ x = 88) ∧ digits ≠ [] ∧
      (∀ c ∈ digits, isxdigit c = true) ∧ m = value 16 digits) ∨
    (v.head? = some 48 ∧ (∀ c ∈ v, inBase 8 c = true) ∧ m = value 8 v) ∨
    v ≠ [] ∧ v.head? ≠ some 48 ∧ (∀ c ∈ v, isdigit c = true) ∧ m = value 10 v

/-- The numerals of the standard library's conversion, which may have a sign. -/
def CNumeral (v : Text) (n : UInt64) : Prop :=
  ∃ m, m < 2 ^ 64 ∧ Magnitude (splitSign v).2 m ∧
    n = if (splitSign v).1 then 0 - m.toUInt64 else m.toUInt64

def Passes (line : Text) : Prop :=
  Skipped line ∨ ∃ key v n, Sets line key v ∧ key ≠ [] ∧ CNumeral v n

def LeadingZero (v : Text) : Prop := v.head? = some 48 ∧ ∀ c ∈ v, isdigit c = true

/-- In a well-formed text no numeral with a leading zero has an 8 or a 9, and none that is
   the last of its key is 8 or more. Otherwise some line is refused, and the lines before
   the first such line set no key to another value than it had. -/
def Condition (c : LayoutConfig) (ls : List Text) : Prop :=
  (WellFormed ls →
    (∀ line ∈ ls, ∀ key v, Sets line key v → LeadingZero v → ∀ d ∈ v, d < 56) ∧
    ∀ key v, LastSet ls key v → LeadingZero v → value 10 v < 8) ∧
  (¬ WellFormed ls →
    ∃ before refused after, ls = before ++ refused :: after ∧ (∀ line ∈ before, Passes line) ∧
      ¬ Passes refused ∧
      ∀ key v n, LastSet before key v → CNumeral v n → c.values key = some n)

theorem inBase_eight {c : UInt8} : inBase 8 c = true ↔ isdigit c = true ∧ c < 56 := by
  simp only [inBase, isxdigit, digitValue, tolower, isupper, isdigit, Bool.and_eq_true,
    decide_eq_true_eq, UInt8.le_iff_toNat_le, UInt8.lt_iff_toNat_lt, UInt8.toNat_ofNat]
  split
  · omega
  · split
    · rw [UInt8.toNat_add, show (32 : UInt8).toNat = 32 from rfl]
      omega
    · omega

theorem inBase_ten {c : UInt8} : inBase 10 c = true ↔ isdigit c = true := by
  simp only [inBase, isxdigit, digitValue, tolower, isupper, isdigit, Bool.and_eq_true,
    decide_eq_true_eq, UInt8.le_iff_toNat_le, UInt8.toNat_ofNat]
  split
  · omega
  · split
    · rw [UInt8.toNat_add, show (32 : UInt8).toNat = 32 from rfl]
      omega
    · omega

theorem inBase_sixteen {c : UInt8} : inBase 16 c = true ↔ isxdigit c = true := by
  rw [inBase, Bool.and_eq_true, decide_eq_true_eq]
  exact and_iff_left_of_imp digitValue_lt

theorem prefix_no_digit {x : UInt8} (marks : x = 120 ∨ x = 88) : isdigit x = false := by
  rcases marks with rfl | rfl
  · decide
  · decide

theorem splitBase_plain {v : Text}
    (plain : ∀ x d s, v = 48 :: x :: d :: s → ¬ ((x = 120 ∨ x = 88) ∧ isxdigit d = true)) :
    splitBase v = (if v.head? = some 48 then 8 else 10, v) := by
  match v with
  | [] => rfl
  | [z] => rfl
  | [z, x] => rfl
  | z :: x :: d :: s =>
    have none_ : ¬ (z = 48 ∧ (x = 120 ∨ x = 88) ∧ isxdigit d = true) := by
      rintro ⟨rfl, both⟩
      exact plain x d s rfl both
    simp only [splitBase, if_neg none_, List.head?_cons, Option.some.injEq]

theorem magnitude_iff (v : Text) (m : Nat) :
    Magnitude v m ↔ (splitBase v).2 ≠ [] ∧
      (∀ c ∈ (splitBase v).2, inBase (splitBase v).1 c = true) ∧
      m = value (splitBase v).1 (splitBase v).2 := by
  by_cases hex : ∃ x d s, v = 48 :: x :: d :: s ∧ (x = 120 ∨ x = 88) ∧ isxdigit d = true
  · obtain ⟨x, d, s, rfl, marks, first⟩ := hex
    have base : splitBase (48 :: x :: d :: s) = (16, d :: s) := if_pos ⟨rfl, marks, first⟩
    rw [base]
    simp only [inBase_sixteen]
    constructor
    · rintro (⟨y, digits, same, -, some_, all, is⟩ | ⟨-, all, -⟩ | ⟨-, head, -⟩)
      · cases same
        exact ⟨some_, all, is⟩
      · have decimal := (inBase_eight.mp (all x (by simp))).1
        rw [prefix_no_digit marks] at decimal
        cases decimal
      · exact absurd rfl head
    · rintro ⟨some_, all, is⟩
      exact Or.inl ⟨x, d :: s, rfl, marks, some_, all, is⟩
  · have plain : splitBase v = (if v.head? = some 48 then 8 else 10, v) :=
      splitBase_plain fun x d s same both => hex ⟨x, d, s, same, both⟩
    rw [plain]
    have noHex : ¬ ∃ x digits, v = 48 :: x :: digits ∧ (x = 120 ∨ x = 88) ∧ digits ≠ [] ∧
        (∀ c ∈ digits, isxdigit c = true) ∧ m = value 16 digits := by
      rintro ⟨x, digits, rfl, marks, some_, all, -⟩
      obtain ⟨d, s, rfl⟩ := List.exists_cons_of_ne_nil some_
      exact hex ⟨x, d, s, rfl, marks, all d List.mem_cons_self⟩
    rw [Magnitude, or_iff_right noHex]
    by_cases zero : v.head? = some 48
    · have some_ : v ≠ [] := by
        rintro rfl
        cases zero
      simp [zero, some_]
    · simp [zero, inBase_ten]

theorem magnitude_unique {v : Text} {m m' : Nat} (one : Magnitude v m) (other : Magnitude v m') :
    m = m' := by
  rw [magnitude_iff] at one other
  exact one.2.2.trans other.2.2.symm

theorem cNumeral_unique {v : Text} {n n' : UInt64} (one : CNumeral v n) (other : CNumeral v n') :
    n = n' := by
  obtain ⟨m, -, magnitude, rfl⟩ := one
  obtain ⟨m', -, magnitude', rfl⟩ := other
  rw [magnitude_unique magnitude magnitude']

theorem stoull_iff {s : Text} (solid : s.dropWhile isspace = s) (n : UInt64) :
    stoull s = .ok (n, []) ↔ CNumeral s n := by
  rw [stoull, solid, CNumeral]
  obtain ⟨negative, digits⟩ := splitSign s
  simp only [magnitude_iff]
  obtain ⟨base, run⟩ := splitBase digits
  simp only
  by_cases all : ∀ c ∈ run, inBase base c = true
  · have taken : run.takeWhile (inBase base) = run := List.takeWhile_eq_self_iff.mpr all
    have left_ : run.dropWhile (inBase base) = [] := List.dropWhile_eq_nil_iff.mpr all
    rw [taken, left_]
    by_cases empty : run = []
    · rw [if_pos empty]
      refine iff_of_false nofun ?_
      rintro ⟨m, -, ⟨some_, -⟩, -⟩
      exact some_ empty
    · rw [if_neg empty]
      by_cases large : 2 ^ 64 ≤ value base run
      · rw [if_pos large]
        refine iff_of_false nofun ?_
        rintro ⟨m, small, ⟨-, -, rfl⟩, -⟩
        omega
      · rw [if_neg large]
        constructor
        · intro read
          cases read
          exact ⟨_, by omega, ⟨empty, all, rfl⟩, rfl⟩
        · rintro ⟨m, -, ⟨-, -, rfl⟩, rfl⟩
          rfl
  · refine iff_of_false ?_ fun ⟨m, _, magnitude, _⟩ => all magnitude.2.1
    have left_ : run.dropWhile (inBase base) ≠ [] := fun none_ =>
      all (List.dropWhile_eq_nil_iff.mp none_)
    split
    · exact nofun
    · split
      · exact nofun
      · intro read
        simp only [Except.ok.injEq, Prod.mk.injEq] at read
        exact left_ read.2

theorem parseInteger_iff (s : Text) (n : UInt64) :
    parseInteger s = .ok n ↔ CNumeral (trim s) n := by
  unfold parseInteger
  by_cases empty : trim s = []
  · rw [if_pos empty, empty]
    refine iff_of_false nofun ?_
    rintro ⟨m, -, magnitude, -⟩
    exact ((magnitude_iff [] m).mp magnitude).1 rfl
  · rw [if_neg empty, ← stoull_iff (trim_solid s)]
    cases stoull (trim s) with
    | error what => exact iff_of_false nofun nofun
    | ok read =>
      obtain ⟨value, rest⟩ := read
      rw [ok_bind]
      by_cases left_ : rest = []
      · subst left_
        simp
      · simp [left_]

section Lines

variable {line key v : Text}

theorem trim_separated (a b : Text) :
    trim (a ++ 61 :: b) = a.dropWhile isspace ++ 61 :: b.rdropWhile isspace := by
  rw [trim, dropWhile_stop (by decide), rdropWhile_stop (by decide)]

theorem takeWhile_separated {a : Text} (first : 61 ∉ a) (b : Text) :
    (a ++ 61 :: b).takeWhile (· ≠ 61) = a ∧ (a ++ 61 :: b).dropWhile (· ≠ 61) = 61 :: b := by
  have others : ∀ c ∈ a, decide (c ≠ 61) = true := by
    intro c member
    exact decide_eq_true fun same => first (same ▸ member)
  constructor
  · rw [List.takeWhile_append_of_pos others, List.takeWhile_cons_of_neg (by decide),
      List.append_nil]
  · rw [List.dropWhile_append_of_pos others, List.dropWhile_cons_of_neg (by decide)]

theorem sets_unique {key' v' : Text} (one : Sets line key v) (other : Sets line key' v') :
    key = key' ∧ v = v' := by
  obtain ⟨-, a, b, rfl, first, rfl, rfl⟩ := one
  obtain ⟨-, a', b', same, first', rfl, rfl⟩ := other
  obtain ⟨before, after⟩ := takeWhile_separated first b
  obtain ⟨before', after'⟩ := takeWhile_separated first' b'
  rw [same] at before after
  cases before.symm.trans before'
  cases after.symm.trans after'
  exact ⟨rfl, rfl⟩

theorem readLine_skipped (skipped : Skipped line) (lineNo : Nat) :
    readLine lineNo line = .ok none := if_pos skipped

theorem readLine_sets (sets : Sets line key v) (lineNo : Nat) :
    readLine lineNo line =
      if key = [] then .error (text "empty layout key on line " ++ numeral 10 lineNo)
      else parseInteger v >>= fun n => .ok (some (key, n)) := by
  obtain ⟨solid, a, b, rfl, first, rfl, rfl⟩ := sets
  have first' : 61 ∉ a.dropWhile isspace := fun member => first (List.dropWhile_subset _ member)
  obtain ⟨before, after⟩ := takeWhile_separated first' (b.rdropWhile isspace)
  rw [Skipped, trim_separated] at solid
  rw [readLine]
  simp only [trim_separated, before, after, trim_dropWhile, trim_rdropWhile]
  rw [if_neg solid]

theorem readLine_other (solid : ¬ Skipped line) (none_ : 61 ∉ line) (lineNo : Nat) :
    ∃ what, readLine lineNo line = .error what := by
  have absent : 61 ∉ trim line := by
    intro member
    exact none_ (List.dropWhile_subset _ ((List.rdropWhile_prefix _ _).subset member))
  have ends : (trim line).dropWhile (· ≠ 61) = [] := by
    rw [List.dropWhile_eq_nil_iff]
    intro c member
    exact decide_eq_true fun same => absent (same ▸ member)
  rw [readLine]
  simp only [ends]
  rw [if_neg (show ¬ (trim line = [] ∨ (trim line).head? = some 35) from solid)]
  exact ⟨_, rfl⟩

theorem line_cases (line : Text) :
    Skipped line ∨ (∃ key v, Sets line key v) ∨ ¬ Skipped line ∧ 61 ∉ line := by
  by_cases skipped : Skipped line
  · exact Or.inl skipped
  · by_cases separated : 61 ∈ line
    · obtain ⟨a, b, rfl, first⟩ := List.eq_append_cons_of_mem separated
      exact Or.inr (Or.inl ⟨trim a, trim b, skipped, a, b, rfl, first, rfl, rfl⟩)
    · exact Or.inr (Or.inr ⟨skipped, separated⟩)

theorem readLine_entry (sets : Sets line key v) {n : UInt64} (named : key ≠ [])
    (read : CNumeral v n) (lineNo : Nat) : readLine lineNo line = .ok (some (key, n)) := by
  have trimmed : trim v = v := by
    obtain ⟨-, a, b, -, -, -, rfl⟩ := sets
    exact trim_trim b
  rw [readLine_sets sets, if_neg named, (parseInteger_iff v n).mpr (trimmed.symm ▸ read)]
  rfl

theorem readLine_refused (refused : ¬ Passes line) (lineNo : Nat) :
    ∃ what, readLine lineNo line = .error what := by
  rcases line_cases line with skipped | ⟨key, v, sets⟩ | ⟨solid, none_⟩
  · exact absurd (Or.inl skipped) refused
  · have trimmed : trim v = v := by
      obtain ⟨-, a, b, -, -, -, rfl⟩ := sets
      exact trim_trim b
    rw [readLine_sets sets]
    by_cases named : key = []
    · rw [if_pos named]
      exact ⟨_, rfl⟩
    · rw [if_neg named]
      cases read : parseInteger v with
      | error what => exact ⟨what, rfl⟩
      | ok n =>
        rw [parseInteger_iff, trimmed] at read
        exact absurd (Or.inr ⟨key, v, n, sets, named, read⟩) refused
  · exact readLine_other solid none_ lineNo

end Lines

theorem unset_or_last (ls : List Text) (key : Text) : Unset ls key ∨ ∃ v, LastSet ls key v := by
  induction ls with
  | nil => exact Or.inl fun line member => absurd member List.not_mem_nil
  | cons line rest ih =>
    rcases ih with unset | ⟨v, before, last, after, rfl, sets, later⟩
    · by_cases sets : ∃ v, Sets line key v
      · obtain ⟨v, sets⟩ := sets
        exact Or.inr ⟨v, [], line, rest, rfl, sets, unset⟩
      · refine Or.inl fun other member v => ?_
        rcases List.mem_cons.mp member with rfl | inside
        · exact fun is => sets ⟨v, is⟩
        · exact unset other inside v
    · exact Or.inr ⟨v, line :: before, last, after, rfl, sets, later⟩

theorem lastSet_cons {line : Text} {rest : List Text} {key v : Text} :
    LastSet (line :: rest) key v ↔ LastSet rest key v ∨ Sets line key v ∧ Unset rest key := by
  constructor
  · rintro ⟨before, last, after, same, sets, later⟩
    cases before with
    | nil =>
      cases same
      exact Or.inr ⟨sets, later⟩
    | cons first before =>
      cases same
      exact Or.inl ⟨before, last, after, rfl, sets, later⟩
  · rintro (⟨before, last, after, rfl, sets, later⟩ | ⟨sets, unset⟩)
    · exact ⟨line :: before, last, after, rfl, sets, later⟩
    · exact ⟨[], line, rest, rfl, sets, unset⟩

section Loop

variable {c : LayoutConfig} {ls : List Text}

structure Applied (c : LayoutConfig) (ls : List Text) (result : LayoutConfig × Except Text Unit) :
    Prop where
  succeeds : result.2 = .ok ()
  keeps : ∀ key, Unset ls key → result.1.values key = c.values key
  sets : ∀ key v n, LastSet ls key v → CNumeral v n → result.1.values key = some n

theorem loadLines_applied (passes : ∀ line ∈ ls, Passes line) (lineNo : Nat) :
    Applied c ls (loadLines c lineNo ls) := by
  induction ls generalizing c lineNo with
  | nil =>
    refine ⟨rfl, fun _ _ => rfl, ?_⟩
    rintro key v n ⟨before, line, after, same, -⟩
    cases before <;> cases same
  | cons line rest ih =>
    have others : ∀ later ∈ rest, Passes later :=
      fun later member => passes later (List.mem_cons_of_mem line member)
    rcases passes line List.mem_cons_self with skipped | ⟨key, v, n, sets, named, read⟩
    · obtain ⟨succeeds, keeps, last⟩ := ih (c := c) others (lineNo + 1)
      rw [loadLines, readLine_skipped skipped]
      refine ⟨succeeds, fun key unset => keeps key fun later member =>
        unset later (List.mem_cons_of_mem line member), fun key v n set => last key v n ?_⟩
      rcases lastSet_cons.mp set with inside | ⟨sets, -⟩
      · exact inside
      · exact absurd skipped sets.1
    · obtain ⟨succeeds, keeps, last⟩ := ih (c := LayoutConfig.set c key n) others (lineNo + 1)
      rw [loadLines, readLine_entry sets named read]
      refine ⟨succeeds, fun other unset => ?_, fun other w m set number => ?_⟩
      · have differs : other ≠ key := fun same =>
          unset line List.mem_cons_self v (same ▸ sets)
        rw [keeps other fun later member => unset later (List.mem_cons_of_mem line member)]
        exact if_neg differs
      · rcases lastSet_cons.mp set with inside | ⟨sets', unset⟩
        · exact last other w m inside number
        · obtain ⟨rfl, rfl⟩ := sets_unique sets' sets
          rw [keeps other unset, cNumeral_unique number read]
          exact if_pos rfl

theorem loadLines_refused {before after : List Text} {refused : Text}
    (passes : ∀ line ∈ before, Passes line) (stops : ¬ Passes refused) (lineNo : Nat) :
    ∃ what, loadLines c lineNo (before ++ refused :: after) =
      ((loadLines c lineNo before).1, .error what) := by
  induction before generalizing c lineNo with
  | nil =>
    obtain ⟨what, read⟩ := readLine_refused stops (lineNo + 1)
    refine ⟨what, ?_⟩
    change loadLines c lineNo (refused :: after) = (c, .error what)
    rw [loadLines, read]
  | cons line before ih =>
    have others : ∀ later ∈ before, Passes later :=
      fun later member => passes later (List.mem_cons_of_mem line member)
    rw [List.cons_append, loadLines, loadLines]
    rcases passes line List.mem_cons_self with skipped | ⟨key, v, n, sets, named, read⟩
    · rw [readLine_skipped skipped]
      exact ih others (lineNo + 1)
    · rw [readLine_entry sets named read]
      exact ih others (lineNo + 1)

theorem first_refused (stops : ¬ ∀ line ∈ ls, Passes line) :
    ∃ before refused after, ls = before ++ refused :: after ∧ (∀ line ∈ before, Passes line) ∧
      ¬ Passes refused := by
  induction ls with
  | nil => exact absurd (fun line member => absurd member List.not_mem_nil) stops
  | cons line rest ih =>
    by_cases passes : Passes line
    · obtain ⟨before, refused, after, rfl, earlier, stop⟩ :=
        ih fun others => stops (List.forall_mem_cons.mpr ⟨passes, others⟩)
      exact ⟨line :: before, refused, after, rfl, List.forall_mem_cons.mpr ⟨passes, earlier⟩, stop⟩
    · exact ⟨[], line, rest, rfl, fun other member => absurd member List.not_mem_nil, passes⟩

end Loop

section Numerals

variable {v : Text} {n : UInt64}

theorem splitSign_digit {z : UInt8} (decimal : isdigit z = true) (s : Text) :
    splitSign (z :: s) = (false, z :: s) := by
  have minus : z ≠ 45 := by
    rintro rfl
    revert decimal
    decide
  have plus : z ≠ 43 := by
    rintro rfl
    revert decimal
    decide
  rw [splitSign, if_neg minus, if_neg plus]

/-- In base 8 digits are worth less, and the same only where there is one digit. -/
theorem value_eight (v : Text) :
    value 8 v ≤ value 10 v ∧ ((∀ c ∈ v, c < 56) → (∀ c ∈ v, isdigit c = true) →
      (value 8 v = value 10 v ↔ value 10 v < 8)) := by
  induction v using List.reverseRecOn with
  | nil => exact ⟨Nat.le_refl 0, fun _ _ => iff_of_true rfl (by decide)⟩
  | append_singleton v c ih =>
    obtain ⟨less, same⟩ := ih
    have eight : value 8 (v ++ [c]) = value 8 v * 8 + digitValue c := value_append 8 v [c]
    have ten : value 10 (v ++ [c]) = value 10 v * 10 + digitValue c := value_append 10 v [c]
    rw [eight, ten]
    refine ⟨by omega, fun low decimal => ?_⟩
    have small := low c (by simp)
    have digit := decimal c (by simp)
    have octal : digitValue c < 8 := by
      have both := inBase_eight.mpr ⟨digit, small⟩
      rw [inBase, Bool.and_eq_true, decide_eq_true_eq] at both
      exact both.2
    omega

theorem cNumeral_unsigned (plain : splitSign v = (false, v)) :
    CNumeral v n ↔ Magnitude v n.toNat := by
  rw [CNumeral, plain]
  constructor
  · rintro ⟨m, small, magnitude, rfl⟩
    have kept : m.toUInt64.toNat = m := Nat.mod_eq_of_lt small
    rw [if_neg (show ¬ (false, v).1 = true from Bool.false_ne_true), kept]
    exact magnitude
  · intro magnitude
    exact ⟨n.toNat, n.toNat_lt, magnitude, by simp⟩

/-- A documented numeral is converted unless its leading zero is followed by an 8 or a 9, and
   to its own value unless the zero leads a number of 8 or more. -/
theorem numeral_reading (number : Numeral v n) :
    ((∃ n', CNumeral v n') ↔ (LeadingZero v → ∀ d ∈ v, d < 56)) ∧
      ∀ n', CNumeral v n' → (n' = n ↔ (LeadingZero v → value 10 v < 8)) := by
  rcases number with ⟨some_, all, is⟩ | ⟨x, digits, rfl, marks, some_, all, is⟩
  · obtain ⟨z, s, rfl⟩ := List.exists_cons_of_ne_nil some_
    have plain := splitSign_digit (all z List.mem_cons_self) s
    obtain ⟨less, same⟩ := value_eight (z :: s)
    have noHex : ∀ m, ¬ ∃ x digits, z :: s = 48 :: x :: digits ∧ (x = 120 ∨ x = 88) ∧
        digits ≠ [] ∧ (∀ c ∈ digits, isxdigit c = true) ∧ m = value 16 digits := by
      rintro m ⟨x, digits, spelled, marks, -⟩
      have decimal := all x (by rw [spelled]; simp)
      rw [prefix_no_digit marks] at decimal
      cases decimal
    by_cases zero : z = 48
    · have leading : LeadingZero (z :: s) := ⟨congrArg some zero, all⟩
      have reads : ∀ n' : UInt64, CNumeral (z :: s) n' ↔
          (∀ d ∈ z :: s, d < 56) ∧ n'.toNat = value 8 (z :: s) := by
        intro n'
        rw [cNumeral_unsigned plain, Magnitude, or_iff_right (noHex _)]
        simp only [inBase_eight]
        constructor
        · rintro (⟨-, low, value_⟩ | ⟨-, head, -⟩)
          · exact ⟨fun d member => (low d member).2, value_⟩
          · exact absurd leading.1 head
        · rintro ⟨low, value_⟩
          exact Or.inl ⟨leading.1, fun d member => ⟨all d member, low d member⟩, value_⟩
      constructor
      · constructor
        · rintro ⟨n', read⟩ -
          exact ((reads n').mp read).1
        · intro low
          have small : value 8 (z :: s) < 2 ^ 64 := by
            have bound := n.toNat_lt
            omega
          exact ⟨(value 8 (z :: s)).toUInt64, (reads _).mpr ⟨low leading, Nat.mod_eq_of_lt small⟩⟩
      · intro n' read
        obtain ⟨low, value_⟩ := (reads n').mp read
        rw [← UInt64.toNat_inj, value_, ← is, same low all]
        exact ⟨fun small _ => small, fun small => small leading⟩
    · have decimal : ¬ LeadingZero (z :: s) := fun leading => zero (Option.some.inj leading.1)
      have head : (z :: s).head? ≠ some 48 := fun same => zero (Option.some.inj same)
      have reads : ∀ n', CNumeral (z :: s) n' ↔ n' = n := by
        intro n'
        rw [cNumeral_unsigned plain, Magnitude, or_iff_right (noHex _),
          or_iff_right fun octal => head octal.1, ← UInt64.toNat_inj, ← is]
        exact ⟨fun magnitude => magnitude.2.2.2, fun value_ => ⟨some_, head, all, value_⟩⟩
      refine ⟨iff_of_true ⟨n, (reads n).mpr rfl⟩ fun leading => absurd leading decimal, ?_⟩
      intro n' read
      exact iff_of_true ((reads n').mp read) fun leading => absurd leading decimal
  · have hex : ¬ LeadingZero (48 :: x :: digits) := by
      rintro ⟨-, decimals⟩
      have decimal := decimals x (by simp)
      rw [prefix_no_digit marks] at decimal
      cases decimal
    have magnitude : Magnitude (48 :: x :: digits) n.toNat :=
      Or.inl ⟨x, digits, rfl, marks, some_, all, is.symm⟩
    have read := (cNumeral_unsigned (splitSign_digit (by decide) _)).mpr magnitude
    refine ⟨iff_of_true ⟨n, read⟩ fun leading => absurd leading hex, fun n' other => ?_⟩
    exact iff_of_true (cNumeral_unique other read) fun leading => absurd leading hex

end Numerals

section Load

variable {c : LayoutConfig} {ls : List Text} {path content : Text}

theorem get_eq_iff {c c' : LayoutConfig} {key : Text} :
    c'.get key = c.get key ↔ c'.values key = c.values key := by
  unfold LayoutConfig.get
  constructor
  · intro same
    cases one : c'.values key with
    | none =>
      cases other : c.values key with
      | none => rfl
      | some n =>
        rw [one, other] at same
        cases same
    | some n =>
      cases other : c.values key with
      | none =>
        rw [one, other] at same
        cases same
      | some n' =>
        rw [one, other] at same
        cases same
        rfl
  · intro same
    rw [same]

theorem get_ok_iff {key : Text} {n : UInt64} : c.get key = .ok n ↔ c.values key = some n := by
  unfold LayoutConfig.get
  cases c.values key with
  | none => exact iff_of_false nofun nofun
  | some n' => simp

theorem WellFormed.numeral (formed : WellFormed ls) {line key v : Text} (member : line ∈ ls)
    (sets : Sets line key v) : key ≠ [] ∧ ∃ n, Numeral v n := by
  rcases formed line member with skipped | ⟨key', v', n, sets', named, number⟩
  · exact absurd skipped sets.1
  · obtain ⟨rfl, rfl⟩ := sets_unique sets sets'
    exact ⟨named, n, number⟩

theorem LastSet.line {key v : Text} (set : LastSet ls key v) : ∃ line ∈ ls, Sets line key v := by
  obtain ⟨before, line, after, rfl, sets, -⟩ := set
  exact ⟨line, by simp, sets⟩

theorem passes_iff (formed : WellFormed ls) :
    (∀ line ∈ ls, Passes line) ↔
      ∀ line ∈ ls, ∀ key v, Sets line key v → LeadingZero v → ∀ d ∈ v, d < 56 := by
  constructor
  · intro passes line member key v sets
    obtain ⟨-, n, number⟩ := formed.numeral member sets
    rcases passes line member with skipped | ⟨key', v', n', sets', -, read⟩
    · exact absurd skipped sets.1
    · obtain ⟨rfl, rfl⟩ := sets_unique sets sets'
      exact (numeral_reading number).1.mp ⟨n', read⟩
  · intro low line member
    rcases formed line member with skipped | ⟨key, v, n, sets, named, number⟩
    · exact Or.inl skipped
    · obtain ⟨n', read⟩ := (numeral_reading number).1.mpr (low line member key v sets)
      exact Or.inr ⟨key, v, n', sets, named, read⟩

theorem meets_formed (formed : WellFormed (lines content)) :
    Meets c path content ↔
      (∀ line ∈ lines content, ∀ key v, Sets line key v → LeadingZero v → ∀ d ∈ v, d < 56) ∧
        ∀ key v, LastSet (lines content) key v → LeadingZero v → value 10 v < 8 := by
  constructor
  · intro meets
    have passes : ∀ line ∈ lines content, Passes line := by
      by_contra stops
      obtain ⟨before, refused, after, same, earlier, stop⟩ := first_refused stops
      obtain ⟨what, failed⟩ := loadLines_refused (c := c) earlier stop 0
      have succeeds := meets.succeeds formed
      rw [loadFile, same, failed] at succeeds
      cases succeeds
    refine ⟨(passes_iff formed).mp passes, fun key v set => ?_⟩
    obtain ⟨line, member, sets⟩ := set.line
    obtain ⟨-, n, number⟩ := formed.numeral member sets
    obtain ⟨n', read⟩ := (numeral_reading number).1.mpr
      ((passes_iff formed).mp passes line member key v sets)
    have applied : Applied c (lines content) (loadFile c path (some content)) :=
      loadLines_applied passes 0
    have got := get_ok_iff.mp (meets.sets formed key v n set number)
    rw [applied.sets key v n' set read] at got
    exact ((numeral_reading number).2 n' read).mp (Option.some.inj got)
  · rintro ⟨low, small⟩
    have passes := (passes_iff formed).mpr low
    have applied : Applied c (lines content) (loadFile c path (some content)) :=
      loadLines_applied passes 0
    refine ⟨fun _ => applied.succeeds, fun _ key v n set number => ?_,
      fun _ key unset => get_eq_iff.mpr (applied.keeps key unset),
      fun malformed => absurd formed malformed, fun malformed => absurd formed malformed⟩
    obtain ⟨line, member, sets⟩ := set.line
    obtain ⟨n', read⟩ := (numeral_reading number).1.mpr (low line member key v sets)
    have same := ((numeral_reading number).2 n' read).mpr (small key v set)
    exact get_ok_iff.mpr (same ▸ applied.sets key v n' set read)

theorem meets_malformed (malformed : ¬ WellFormed (lines content)) :
    Meets c path content ↔
      ∃ before refused after, lines content = before ++ refused :: after ∧
        (∀ line ∈ before, Passes line) ∧ ¬ Passes refused ∧
        ∀ key v n, LastSet before key v → CNumeral v n → c.values key = some n := by
  constructor
  · intro meets
    have stops : ¬ ∀ line ∈ lines content, Passes line := by
      intro passes
      obtain ⟨what, failed⟩ := meets.refuses malformed
      have applied : Applied c (lines content) (loadFile c path (some content)) :=
        loadLines_applied passes 0
      rw [applied.succeeds] at failed
      cases failed
    obtain ⟨before, refused, after, same, earlier, stop⟩ := first_refused stops
    obtain ⟨what, failed⟩ := loadLines_refused (c := c) earlier stop 0
    refine ⟨before, refused, after, same, earlier, stop, fun key v n set read => ?_⟩
    have kept := get_eq_iff.mp (meets.restores malformed key)
    rw [loadFile, same, failed] at kept
    rw [← kept]
    exact (loadLines_applied earlier 0).sets key v n set read
  · rintro ⟨before, refused, after, same, earlier, stop, old⟩
    obtain ⟨what, failed⟩ := loadLines_refused (c := c) earlier stop 0
    have ran : loadFile c path (some content) = ((loadLines c 0 before).1, .error what) := by
      rw [loadFile, same, failed]
    refine ⟨fun formed => absurd formed malformed, fun formed => absurd formed malformed,
      fun formed => absurd formed malformed, fun _ => ⟨what, by rw [ran]⟩, fun _ key => ?_⟩
    rw [get_eq_iff, ran]
    have applied : Applied c before (loadLines c 0 before) := loadLines_applied earlier 0
    rcases unset_or_last before key with unset | ⟨v, set⟩
    · exact applied.keeps key unset
    · obtain ⟨line, member, sets⟩ := set.line
      rcases earlier line member with skipped | ⟨key', v', n, sets', -, read⟩
      · exact absurd skipped sets.1
      · obtain ⟨rfl, rfl⟩ := sets_unique sets sets'
        exact (applied.sets key v n set read).trans (old key v n set read).symm

theorem load_file_iff (c : LayoutConfig) (path content : Text) :
    Meets c path content ↔ Condition c (lines content) := by
  by_cases formed : WellFormed (lines content)
  · rw [meets_formed formed]
    exact ⟨fun both => ⟨fun _ => both, fun malformed => absurd formed malformed⟩,
      fun condition => condition.1 formed⟩
  · rw [meets_malformed formed]
    exact ⟨fun stop => ⟨fun is => absurd is formed, fun _ => stop⟩,
      fun condition => condition.2 formed⟩

set_option maxRecDepth 1500

theorem load_file_octal : ¬ Meets .defaults [] (text "class.fields=010") := by
  intro meets
  have sets : Sets (text "class.fields=010") (text "class.fields") (text "010") := by
    refine ⟨by decide, text "class.fields", text "010", rfl, by decide, rfl, rfl⟩
  have number : Numeral (text "010") 10 := Or.inl ⟨List.cons_ne_nil _ _, by decide, by decide⟩
  have one : lines (text "class.fields=010") = [text "class.fields=010"] := by decide
  have formed : WellFormed (lines (text "class.fields=010")) := by
    rw [one]
    intro line member
    cases List.mem_singleton.mp member
    exact Or.inr ⟨_, _, _, sets, List.cons_ne_nil _ _, number⟩
  have last : LastSet (lines (text "class.fields=010")) (text "class.fields") (text "010") :=
    ⟨[], _, [], one, sets, fun later member => absurd member List.not_mem_nil⟩
  have got := meets.sets formed _ _ _ last number
  have octal : (loadFile .defaults [] (some (text "class.fields=010"))).1.get
      (text "class.fields") = .ok 8 := by decide +kernel
  rw [octal] at got
  cases got

end Load

end LayoutFile
