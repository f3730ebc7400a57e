import Mathlib.Data.List.Find
import Mathlib.Data.List.TakeWhile
import GameSecurity.AsciiText

/- The first phases of C++ translation over bytes: the ends of lines, the splices of lines, and
   the tokens between white space and comments. A splice inside a raw string is not undone, and
   the name of an included file is cut like other text. -/
namespace CppTokens
open AsciiText

-- A text is looked through, and not all bytes for those that are in it.
instance (priority := high) allBytes {P : UInt8 → Prop} [DecidablePred P] (s : Text) :
    Decidable (∀ c ∈ s, P c) := List.decidableBAll P s

/-- A carriage return ends a line, alone or with the newline behind it. -/
def lineEnds : Text → Text
  | [] => []
  | [c] => [if c = 13 then 10 else c]
  | c :: d :: rest =>
    if c = 13 then 10 :: (if d = 10 then lineEnds rest else lineEnds (d :: rest))
    else c :: lineEnds (d :: rest)

def isBlank (c : UInt8) : Bool := c = 32 ∨ c = 9 ∨ c = 11 ∨ c = 12

/-- Without the newlines that follow a backslash, or blanks behind one. What is held back is the
    last backslash and the blanks. -/
def spliceFrom : Text → Text → Text
  | held, [] => held
  | held, c :: rest =>
    if c = 92 then held ++ spliceFrom [c] rest
    else if held ≠ [] ∧ isBlank c then spliceFrom (held ++ [c]) rest
    else if held ≠ [] ∧ c = 10 then spliceFrom [] rest
    else held ++ c :: spliceFrom [] rest

def logical (source : Text) : Text := spliceFrom [] (lineEnds source)

def isWord (c : UInt8) : Bool := isalnum c ∨ c = 95 ∨ 128 ≤ c

def rawPrefixes : List Text := ["R", "LR", "uR", "UR", "u8R"].map text

def prefixes : List Text := ["L", "u", "U", "u8"].map text

def literalLength (quote : UInt8) : Text → Nat
  | [] => 0
  | [_] => 1
  | c :: d :: rest =>
    if c = quote then 1
    else if c = 10 then 0
    else if c = 92 then 2 + literalLength quote rest
    else 1 + literalLength quote (d :: rest)

def closeLength (close : Text) : Text → Nat
  | [] => 0
  | c :: rest => if close.isPrefixOf (c :: rest) then close.length else 1 + closeLength close rest

def rawLength (s : Text) : Nat :=
  let delimiter := s.takeWhile fun c => c ≠ 40
  delimiter.length + 1 + closeLength (41 :: (delimiter ++ [34])) (s.drop (delimiter.length + 1))

def numberLength : Text → Nat
  | [] => 0
  | [c] => if isWord c ∨ c = 46 then 1 else 0
  | c :: d :: rest =>
    if (c = 101 ∨ c = 69 ∨ c = 112 ∨ c = 80) ∧ (d = 43 ∨ d = 45) then 2 + numberLength rest
    else if c = 39 ∧ isWord d then 2 + numberLength rest
    else if isWord c ∨ c = 46 then 1 + numberLength (d :: rest)
    else 0

def punctuators : List Text :=
  ["%:%:", "...", "->*", "<<=", ">>=", "<=>", "##", "<:", ":>", "<%", "%>", "%:", "::", "->", ".*",
    "+=", "-=", "*=", "/=", "%=", "^=", "&=", "|=", "==", "!=", "<=", ">=", "&&", "||", "<<", ">>",
    "++", "--"].map text

def wordLength (s : Text) : Nat :=
  let word := s.takeWhile isWord
  let behind := s.drop word.length
  if behind.head? = some 34 ∧ word ∈ rawPrefixes then word.length + 1 + rawLength behind.tail
  else if behind.head? = some 34 ∧ word ∈ prefixes then
    word.length + 1 + literalLength 34 behind.tail
  else if behind.head? = some 39 ∧ word ∈ prefixes then
    word.length + 1 + literalLength 39 behind.tail
  else word.length

def punctuatorLength (s : Text) : Nat :=
  -- In front of a name from the outermost scope, a bracket is not the start of a digraph.
  if (text "<::").isPrefixOf s ∧ (s.drop 3).head? ≠ some 58 ∧ (s.drop 3).head? ≠ some 62 then 1
  else ((punctuators.find? fun p => p.isPrefixOf s).map List.length).getD 1

/-- How much of a text is its first token. -/
def tokenLength (c : UInt8) (rest : Text) : Nat :=
  if isdigit c ∨ (c = 46 ∧ rest.head?.any isdigit) then 1 + numberLength rest
  else if isWord c then wordLength (c :: rest)
  else if c = 34 ∨ c = 39 then 1 + literalLength c rest
  else punctuatorLength (c :: rest)

def afterBlock : Text → Text
  | [] => []
  | [_] => []
  | c :: d :: rest => if c = 42 ∧ d = 47 then rest else afterBlock (d :: rest)

/-- White space or a comment goes, and a token is taken; what is behind it. -/
def scan (c : UInt8) (rest : Text) : Option Text × Text :=
  if isspace c then (none, rest)
  else if c = 47 ∧ rest.head? = some 47 then (none, rest.dropWhile fun c => c ≠ 10)
  else if c = 47 ∧ rest.head? = some 42 then (none, afterBlock rest.tail)
  else (some ((c :: rest).take (tokenLength c rest)), (c :: rest).drop (tokenLength c rest))

/-- No more tokens than there are characters. -/
def lexFrom : Nat → Text → List Text
  | 0, _ => []
  | _, [] => []
  | more + 1, c :: rest => (scan c rest).1.toList ++ lexFrom more (scan c rest).2

def lex (s : Text) : List Text := lexFrom s.length s

def tokens (source : Text) : List Text := lex (logical source)

theorem afterBlock_length (s : Text) : (afterBlock s).length ≤ s.length := by
  induction s using afterBlock.induct with
  | case1 => exact Nat.le_refl _
  | case2 c => exact Nat.zero_le _
  | case3 c d rest both =>
    rw [afterBlock, if_pos both]
    exact Nat.le_add_right _ 2
  | case4 c d rest other ih =>
    rw [afterBlock, if_neg other]
    exact ih.trans (Nat.le_succ _)

theorem afterBlock_cons {c : UInt8} (other : c ≠ 42) (s : Text) :
    afterBlock (c :: s) = afterBlock s := by
  cases s with
  | nil => rfl
  | cons d s => rw [afterBlock, if_neg fun both => other both.1]

theorem punctuators_some : ∀ p ∈ punctuators, p ≠ [] := by decide

theorem wordLength_pos {c : UInt8} {rest : Text} (word : isWord c = true) :
    0 < wordLength (c :: rest) := by
  have some_ : 0 < ((c :: rest).takeWhile isWord).length := by
    rw [List.takeWhile_cons_of_pos word]
    exact Nat.succ_pos _
  unfold wordLength
  dsimp only
  repeat' split
  all_goals omega

theorem punctuatorLength_pos (s : Text) : 0 < punctuatorLength s := by
  unfold punctuatorLength
  split
  · exact Nat.one_pos
  · cases found : punctuators.find? fun p => p.isPrefixOf s with
    | none => exact Nat.one_pos
    | some p =>
      exact List.length_pos_iff.mpr (punctuators_some p (List.mem_of_find?_eq_some found))

theorem tokenLength_pos (c : UInt8) (rest : Text) : 0 < tokenLength c rest := by
  unfold tokenLength
  split
  · exact Nat.add_pos_left Nat.one_pos _
  · split
    · rename_i word
      exact wordLength_pos word
    · split
      · exact Nat.add_pos_left Nat.one_pos _
      · exact punctuatorLength_pos _

theorem scan_length (c : UInt8) (rest : Text) : (scan c rest).2.length ≤ rest.length := by
  unfold scan
  split
  · exact Nat.le_refl _
  · split
    · exact (List.dropWhile_suffix _).length_le
    · split
      · refine (afterBlock_length _).trans ?_
        rw [List.length_tail]
        exact Nat.sub_le _ _
      · have pos := tokenLength_pos c rest
        rw [List.length_drop, List.length_cons]
        omega

theorem lexFrom_enough {n : Nat} {s : Text} (enough : s.length ≤ n) : lexFrom n s = lex s := by
  induction n using Nat.strong_induction_on generalizing s with
  | _ n ih =>
    cases s with
    | nil => cases n <;> rfl
    | cons c rest =>
      cases n with
      | zero => cases enough
      | succ n =>
        have few : rest.length ≤ n := Nat.le_of_succ_le_succ enough
        have shorter := scan_length c rest
        rw [lex, List.length_cons, lexFrom, lexFrom, ih n (Nat.lt_succ_self n) (shorter.trans few)]
        rcases Nat.lt_or_eq_of_le few with less | same
        · rw [ih rest.length (less.trans (Nat.lt_succ_self n)) shorter]
        · rw [same, ih n (Nat.lt_succ_self n) (shorter.trans few)]

theorem lex_cons (c : UInt8) (rest : Text) :
    lex (c :: rest) = (scan c rest).1.toList ++ lex (scan c rest).2 := by
  rw [lex, List.length_cons, lexFrom, lexFrom_enough (scan_length c rest)]

theorem lex_space {c : UInt8} (space : isspace c = true) (rest : Text) :
    lex (c :: rest) = lex rest := by
  rw [lex_cons, scan, if_pos space]
  rfl

theorem lex_line (rest : Text) :
    lex (47 :: 47 :: rest) = lex (rest.dropWhile fun c => c ≠ 10) := by
  rw [lex_cons]
  rfl

theorem lex_block (rest : Text) : lex (47 :: 42 :: rest) = lex (afterBlock rest) := by
  rw [lex_cons]
  rfl

theorem lex_token {c : UInt8} {rest : Text} (space : isspace c = false)
    (comment : c = 47 → rest.head? ≠ some 47 ∧ rest.head? ≠ some 42) :
    lex (c :: rest) = (c :: rest).take (tokenLength c rest) ::
      lex ((c :: rest).drop (tokenLength c rest)) := by
  rw [lex_cons, scan, if_neg (by rw [space]; exact Bool.false_ne_true),
    if_neg fun both => (comment both.1).1 both.2, if_neg fun both => (comment both.1).2 both.2]
  rfl

theorem lineEnds_cons {c : UInt8} (other : c ≠ 13) (s : Text) :
    lineEnds (c :: s) = c :: lineEnds s := by
  cases s with
  | nil => simp [lineEnds, other]
  | cons d s => rw [lineEnds, if_neg other]

/-- What stands in front of a newline does not see what comes behind it. -/
theorem lineEnds_newline (s : Text) :
    ∃ lines, ∀ v, lineEnds (s ++ 10 :: v) = lines ++ 10 :: lineEnds v := by
  induction s using lineEnds.induct with
  | case1 => exact ⟨[], fun v => lineEnds_cons (by decide) v⟩
  | case2 c =>
    by_cases return_ : c = 13
    · subst return_
      exact ⟨[], fun v => rfl⟩
    · refine ⟨[c], fun v => ?_⟩
      rw [List.singleton_append, lineEnds_cons return_, lineEnds_cons (by decide)]
      rfl
  | case3 d rest behind next =>
    by_cases newline : d = 10
    · subst newline
      obtain ⟨lines, same⟩ := behind
      exact ⟨10 :: lines, fun v => by simp [lineEnds, same]⟩
    · obtain ⟨lines, same⟩ := next
      refine ⟨10 :: lines, fun v => ?_⟩
      have next : lineEnds (d :: (rest ++ 10 :: v)) = lines ++ 10 :: lineEnds v := same v
      simp [lineEnds, newline, next]
  | case4 c d rest other next =>
    obtain ⟨lines, same⟩ := next
    exact ⟨c :: lines, fun v => by rw [List.cons_append, lineEnds_cons other, same]; rfl⟩

theorem spliceFrom_newline (held s : Text) :
    ∃ lines, ∀ v, spliceFrom held (s ++ 10 :: v) = lines ++ spliceFrom [] v := by
  induction s generalizing held with
  | nil =>
    by_cases free : held = []
    · subst free
      exact ⟨[10], fun v => rfl⟩
    · refine ⟨[], fun v => ?_⟩
      rw [List.nil_append, spliceFrom, if_neg (by decide), if_neg (by simp [isBlank]),
        if_pos ⟨free, rfl⟩]
      rfl
  | cons c s ih =>
    simp only [List.cons_append, spliceFrom]
    split
    · obtain ⟨lines, same⟩ := ih [c]
      exact ⟨held ++ lines, fun v => by rw [same, List.append_assoc]⟩
    · split
      · exact ih (held ++ [c])
      · split
        · exact ih []
        · obtain ⟨lines, same⟩ := ih []
          exact ⟨held ++ c :: lines, fun v => by rw [same, List.append_assoc, List.cons_append]⟩

/-- What ends in a newline is read by itself. -/
theorem logical_append {s : Text} (ends : s.getLast? = some 10) (v : Text) :
    logical (s ++ v) = logical s ++ logical v := by
  obtain ⟨front, rfl⟩ := List.getLast?_eq_some_iff.mp ends
  obtain ⟨lines, same⟩ := lineEnds_newline front
  obtain ⟨spliced, equal⟩ := spliceFrom_newline [] lines
  have whole (v : Text) : logical (front ++ 10 :: v) = spliced ++ logical v := by
    rw [logical, same, equal]
    rfl
  rw [List.append_assoc, List.singleton_append, whole, whole]
  exact congrArg (· ++ logical v) (List.append_nil spliced).symm

section Comments

/-- Where a reader of white space and comments is: between them, behind a slash, in a comment to
    the end of its line, or in one of several lines, maybe behind a star. -/
inductive Place where
  | gap
  | slash
  | line
  | block
  | star
  deriving DecidableEq, Repr

/-- Nothing but white space and comments is taken. -/
def Place.step : Place → UInt8 → Option Place
  | .gap, c => if isspace c then some .gap else if c = 47 then some .slash else none
  | .slash, c => if c = 47 then some .line else if c = 42 then some .block else none
  | .line, c => some (if c = 10 then .gap else .line)
  | .block, c => some (if c = 42 then .star else .block)
  | .star, c => some (if c = 47 then .gap else if c = 42 then .star else .block)

/-- Lines of white space and comments, the last of which ends with them. -/
structure Quiet (s : Text) : Prop where
  ends : s.getLast? = some 10
  comments : (logical s).foldlM Place.step .gap = some .gap

instance (s : Text) : Decidable (Quiet s) :=
  decidable_of_iff (s.getLast? = some 10 ∧ (logical s).foldlM Place.step .gap = some .gap)
    ⟨fun both => ⟨both.1, both.2⟩, fun quiet => ⟨quiet.ends, quiet.comments⟩⟩

/-- What the lexer has in front of it at a place. -/
def Place.ahead : Place → Text → Text
  | .gap, s => s
  | .slash, s => 47 :: s
  | .line, s => s.dropWhile fun c => c ≠ 10
  | .block, s => afterBlock s
  | .star, s => afterBlock (42 :: s)

theorem lex_step {place next : Place} {c : UInt8} (taken : place.step c = some next) (s : Text) :
    lex (place.ahead (c :: s)) = lex (next.ahead s) := by
  cases place with
  | gap =>
    rw [Place.step] at taken
    split at taken
    · rename_i space
      cases taken
      exact lex_space space s
    · split at taken
      · rename_i slash
        cases taken
        rw [slash]
        rfl
      · cases taken
  | slash =>
    rw [Place.step] at taken
    split at taken
    · rename_i slash
      cases taken
      rw [slash]
      exact lex_line s
    · split at taken
      · rename_i star
        cases taken
        rw [star]
        exact lex_block s
      · cases taken
  | line =>
    cases taken
    by_cases newline : c = 10
    · rw [if_pos newline, newline]
      exact lex_space (by decide) s
    · rw [if_neg newline, Place.ahead, List.dropWhile_cons_of_pos (by simpa using newline)]
      rfl
  | block =>
    cases taken
    by_cases star : c = 42
    · rw [if_pos star, star]
      rfl
    · rw [if_neg star, Place.ahead, afterBlock_cons star]
      rfl
  | star =>
    cases taken
    by_cases slash : c = 47
    · rw [if_pos slash, slash]
      rfl
    · rw [if_neg slash, Place.ahead, afterBlock, if_neg fun both => slash both.2]
      by_cases star : c = 42
      · rw [if_pos star, star]
        rfl
      · rw [if_neg star, afterBlock_cons star]
        rfl

theorem lex_run {place next : Place} {s : Text} (run : s.foldlM Place.step place = some next)
    (v : Text) : lex (place.ahead (s ++ v)) = lex (next.ahead v) := by
  induction s generalizing place with
  | nil =>
    cases run
    rfl
  | cons c s ih =>
    rw [List.foldlM_cons, Option.bind_eq_bind, Option.bind_eq_some_iff] at run
    obtain ⟨mid, taken, rest⟩ := run
    exact (lex_step taken (s ++ v)).trans (ih rest)

theorem lex_stuck {place : Place} {s : Text} (stuck : s.foldlM Place.step place = none)
    (v : Text) : lex (place.ahead (s ++ v)) ≠ [] := by
  induction s generalizing place with
  | nil => cases stuck
  | cons c s ih =>
    cases taken : place.step c with
    | some next =>
      rw [List.foldlM_cons, taken] at stuck
      rw [List.cons_append, lex_step taken]
      exact ih stuck
    | none =>
      cases place with
      | gap =>
        rw [Place.step] at taken
        split at taken
        · cases taken
        · rename_i space
          split at taken
          · cases taken
          · rename_i slash
            change lex (c :: (s ++ v)) ≠ []
            rw [lex_token (by simpa using space) fun same => absurd same slash]
            exact List.cons_ne_nil _ _
      | slash =>
        rw [Place.step] at taken
        split at taken
        · cases taken
        · rename_i slash
          split at taken
          · cases taken
          · rename_i star
            change lex (47 :: c :: (s ++ v)) ≠ []
            have token := @lex_token 47 (c :: (s ++ v)) (by decide) fun _ =>
              ⟨fun same => slash (Option.some.inj same), fun same => star (Option.some.inj same)⟩
            rw [token]
            exact List.cons_ne_nil _ _
      | line => cases taken
      | block => cases taken
      | star => cases taken

/-- Quiet text is what no code behind it takes notice of. -/
theorem quiet_iff {s : Text} (ends : s.getLast? = some 10) :
    Quiet s ↔ ∀ v, tokens (s ++ v) = tokens v := by
  constructor
  · intro quiet v
    rw [tokens, logical_append ends]
    exact lex_run quiet.comments (logical v)
  · intro unnoticed
    refine ⟨ends, ?_⟩
    have alone : lex (logical s ++ []) = [] := by
      have none_ := unnoticed []
      rwa [List.append_nil, tokens, ← List.append_nil (logical s)] at none_
    have before (v : Text) : lex (logical s ++ logical v) = lex (logical v) := by
      rw [← logical_append ends]
      exact unnoticed v
    cases run : (logical s).foldlM Place.step .gap with
    | none => exact absurd alone (lex_stuck run [])
    | some place =>
      -- Behind a comment that has not ended, or half a one, a word is not what it is.
      have word : lex (place.ahead (text "x")) = [text "x"] :=
        (lex_run run (text "x")).symm.trans (before (text "x"))
      cases place with
      | gap => rfl
      | slash => exact absurd ((lex_run run []).symm.trans alone) (by decide)
      | line => exact absurd word (by decide)
      | block => exact absurd word (by decide)
      | star => exact absurd word (by decide)

theorem Quiet.append {a b : Text} (first : Quiet a) (second : Quiet b) : Quiet (a ++ b) where
  ends := by rw [List.getLast?_append, second.ends]; rfl
  comments := by
    rw [logical_append first.ends, List.foldlM_append, first.comments]
    exact second.comments

/-- Text of one line that does not reach beyond it. -/
structure Inline (x : Text) : Prop where
  line : 10 ∉ x
  returns : 13 ∉ x
  -- There is no backslash at its end, nor blanks behind one.
  unspliced : x.foldl (fun held c => decide (c = 92) || held && isBlank c) false = false

instance (x : Text) : Decidable (Inline x) :=
  decidable_of_iff (10 ∉ x ∧ 13 ∉ x ∧
      x.foldl (fun held c => decide (c = 92) || held && isBlank c) false = false)
    ⟨fun all => ⟨all.1, all.2.1, all.2.2⟩,
      fun inside => ⟨inside.line, inside.returns, inside.unspliced⟩⟩

theorem spliceFrom_inline {held x : Text} (line : 10 ∉ x) (unspliced : x.foldl
      (fun held c => decide (c = 92) || held && isBlank c) (decide (held ≠ [])) = false)
    (v : Text) : spliceFrom held (x ++ 10 :: v) = held ++ x ++ 10 :: spliceFrom [] v := by
  induction x generalizing held with
  | nil =>
    have free : held = [] := by simpa using unspliced
    subst free
    rfl
  | cons c x ih =>
    have visible : c ≠ 10 := by
      rintro rfl
      exact line List.mem_cons_self
    have later : 10 ∉ x := fun member => line (List.mem_cons_of_mem c member)
    rw [List.foldl_cons] at unspliced
    rw [List.cons_append, spliceFrom]
    split
    · rename_i backslash
      rw [ih later (by simpa [backslash] using unspliced)]
      simp
    · rename_i other
      split
      · rename_i blank
        rw [ih later (by simpa [other, blank] using unspliced)]
        simp
      · rename_i solid
        have free : (decide (held ≠ []) && isBlank c) = false := by simpa using solid
        rw [free, Bool.or_false, decide_eq_false other] at unspliced
        rw [if_neg fun both => visible both.2, @ih [] later unspliced]
        simp

theorem lineEnds_inline {x : Text} (returns : 13 ∉ x) : lineEnds x = x := by
  induction x with
  | nil => rfl
  | cons c x ih =>
    have visible : c ≠ 13 := by
      rintro rfl
      exact returns List.mem_cons_self
    rw [lineEnds_cons visible, ih fun member => returns (List.mem_cons_of_mem c member)]

theorem run_line {x : Text} (line : 10 ∉ x) : x.foldlM Place.step .line = some .line := by
  induction x with
  | nil => rfl
  | cons c x ih =>
    have visible : c ≠ 10 := by
      rintro rfl
      exact line List.mem_cons_self
    rw [List.foldlM_cons, Place.step, if_neg visible]
    exact ih fun member => line (List.mem_cons_of_mem c member)

theorem quiet_line {x : Text} (inside : Inline x) (n : Nat) :
    Quiet (List.replicate n 32 ++ 47 :: 47 :: (x ++ [10])) where
  ends := by
    rw [← List.cons_append, ← List.cons_append, ← List.append_assoc, List.getLast?_concat]
  comments := by
    have spliced : spliceFrom [] (x ++ [10]) = x ++ [10] := by
      rw [@spliceFrom_inline [] x inside.line inside.unspliced]
      rfl
    have read : logical (47 :: 47 :: (x ++ [10])) = 47 :: 47 :: (x ++ [10]) := by
      have returns : 13 ∉ 47 :: 47 :: (x ++ [10]) := by simp [inside.returns]
      rw [logical, lineEnds_inline returns]
      simp [spliceFrom, spliced]
    induction n with
    | zero =>
      rw [List.replicate_zero, List.nil_append, read]
      change (x ++ [10]).foldlM Place.step .line = some .gap
      rw [List.foldlM_append, run_line inside.line]
      rfl
    | succ n ih =>
      have indented (v : Text) : logical (32 :: v) = 32 :: logical v := by
        rw [logical, lineEnds_cons (by decide)]
        rfl
      rw [List.replicate_succ, List.cons_append, indented]
      exact ih

end Comments

section Code

/-- A character that opens no comment and no literal, and neither ends nor splices a line of its
    own. -/
def Plain (c : UInt8) : Prop := c ≠ 13 ∧ c ≠ 34 ∧ c ≠ 39 ∧ c ≠ 47 ∧ c ≠ 92

instance (c : UInt8) : Decidable (Plain c) := inferInstanceAs (Decidable (_ ∧ _))

theorem logical_plain {p : Text} (plain : ∀ c ∈ p, Plain c) (v : Text) :
    logical (p ++ v) = p ++ logical v := by
  induction p with
  | nil => rfl
  | cons c p ih =>
    obtain ⟨noReturn, -, -, -, noBackslash⟩ := plain c List.mem_cons_self
    have rest := ih fun d member => plain d (List.mem_cons_of_mem c member)
    rw [logical] at rest
    rw [List.cons_append, logical, lineEnds_cons noReturn, spliceFrom, if_neg noBackslash,
      if_neg fun both => both.1 rfl, if_neg fun both => both.1 rfl, rest]
    rfl

def Solid (c : UInt8) : Prop := Plain c ∧ isspace c = false

variable {s : UInt8} {u : Text}

theorem space_spelled (space : isspace s = true) :
    isWord s = false ∧ isdigit s = false ∧ s ≠ 46 ∧ s ≠ 43 ∧ s ≠ 45 ∧ s ≠ 34 ∧ s ≠ 39 ∧ s ≠ 58 ∧
      s ≠ 62 := by
  have each : ∀ c : UInt8, isspace c = true → isWord c = false ∧ isdigit c = false ∧ c ≠ 46 ∧
      c ≠ 43 ∧ c ≠ 45 ∧ c ≠ 34 ∧ c ≠ 39 ∧ c ≠ 58 ∧ c ≠ 62 := each_byte (by decide +kernel)
  exact each s space

theorem numberLength_stop (solid : ∀ c ∈ u, Solid c) (space : isspace s = true) (r : Text) :
    numberLength (u ++ s :: r) = numberLength u ∧ numberLength u ≤ u.length := by
  obtain ⟨noWord, -, noDot, noPlus, noMinus, -, noQuote, -⟩ := space_spelled space
  have noNumber : ¬ (isWord s = true ∨ s = 46) := by
    rw [noWord]
    simpa using noDot
  have noExponent : ¬ (s = 101 ∨ s = 69 ∨ s = 112 ∨ s = 80) := by
    rintro (rfl | rfl | rfl | rfl) <;> cases noWord
  have ends : ∀ r, numberLength (s :: r) = 0 := by
    intro r
    cases r with
    | nil => rw [numberLength, if_neg noNumber]
    | cons d r =>
      rw [numberLength, if_neg fun both => noExponent both.1, if_neg fun both => noQuote both.1,
        if_neg noNumber]
  have last {c : UInt8} (solid : Solid c) :
      numberLength (c :: s :: r) = numberLength [c] ∧ numberLength [c] ≤ 1 := by
    have signed : ¬ ((c = 101 ∨ c = 69 ∨ c = 112 ∨ c = 80) ∧ (s = 43 ∨ s = 45)) :=
      fun both => both.2.elim noPlus noMinus
    have quoted : ¬ (c = 39 ∧ isWord s = true) := fun both => solid.1.2.2.1 both.1
    have long : numberLength (c :: s :: r) =
        if isWord c = true ∨ c = 46 then 1 + numberLength (s :: r) else 0 := by
      rw [numberLength, if_neg signed, if_neg quoted]
    rw [long, ends, numberLength]
    split <;> exact ⟨rfl, by omega⟩
  induction u using numberLength.induct with
  | case1 => exact ⟨ends r, Nat.le_refl 0⟩
  | case2 c number => exact last (solid c List.mem_cons_self)
  | case3 c other => exact last (solid c List.mem_cons_self)
  | case4 c d rest exponent ih =>
    obtain ⟨same, few⟩ := ih fun e member =>
      solid e (List.mem_cons_of_mem c (List.mem_cons_of_mem d member))
    rw [List.cons_append, List.cons_append, numberLength, if_pos exponent, numberLength,
      if_pos exponent, same]
    exact ⟨rfl, by simp only [List.length_cons]; omega⟩
  | case5 c d rest plain quoted ih =>
    exact absurd quoted.1 (solid c List.mem_cons_self).1.2.2.1
  | case6 c d rest plain unquoted number ih =>
    obtain ⟨same, few⟩ := ih fun e member => solid e (List.mem_cons_of_mem c member)
    rw [List.cons_append] at same
    rw [List.cons_append, List.cons_append, numberLength, if_neg plain, if_neg unquoted,
      if_pos number, same, numberLength, if_neg plain, if_neg unquoted, if_pos number]
    exact ⟨rfl, by simp only [List.length_cons] at few ⊢; omega⟩
  | case7 c d rest plain unquoted other =>
    rw [List.cons_append, List.cons_append, numberLength, if_neg plain, if_neg unquoted,
      if_neg other, numberLength, if_neg plain, if_neg unquoted, if_neg other]
    exact ⟨rfl, Nat.zero_le _⟩

theorem wordLength_unquoted {t : Text}
    (double : (t.drop (t.takeWhile isWord).length).head? ≠ some 34)
    (single : (t.drop (t.takeWhile isWord).length).head? ≠ some 39) :
    wordLength t = (t.takeWhile isWord).length := by
  unfold wordLength
  dsimp only
  rw [if_neg fun both => double both.1, if_neg fun both => double both.1,
    if_neg fun both => single both.1]

theorem wordLength_stop (solid : ∀ c ∈ u, Solid c) (space : isspace s = true) (r : Text) :
    wordLength (u ++ s :: r) = wordLength u ∧ wordLength u = (u.takeWhile isWord).length := by
  obtain ⟨noWord, -, -, -, -, noDouble, noSingle, -⟩ := space_spelled space
  have word : (u ++ s :: r).takeWhile isWord = u.takeWhile isWord := by
    rw [List.takeWhile_append]
    split
    · rename_i whole
      rw [List.takeWhile_cons_of_neg (by rw [noWord]; exact Bool.false_ne_true), List.append_nil]
      exact ((List.takeWhile_prefix isWord).eq_of_length whole).symm
    · rfl
  have few : (u.takeWhile isWord).length ≤ u.length := (List.takeWhile_prefix isWord).length_le
  have inside {c : UInt8} (head : (u.drop (u.takeWhile isWord).length).head? = some c) :
      c ≠ 34 ∧ c ≠ 39 := by
    have among := solid c (List.mem_of_mem_drop (List.mem_of_mem_head? head))
    exact ⟨among.1.2.1, among.1.2.2.1⟩
  have behind {c : UInt8} (head : ((u ++ s :: r).drop (u.takeWhile isWord).length).head? = some c) :
      c ≠ 34 ∧ c ≠ 39 := by
    rw [List.drop_append_of_le_length few, List.head?_append] at head
    cases first : (u.drop (u.takeWhile isWord).length).head? with
    | none =>
      rw [first] at head
      cases head
      exact ⟨noDouble, noSingle⟩
    | some d =>
      rw [first] at head
      cases head
      exact inside first
  have alone : wordLength u = (u.takeWhile isWord).length :=
    wordLength_unquoted (fun head => (inside head).1 rfl) fun head => (inside head).2 rfl
  refine ⟨?_, alone⟩
  rw [alone, ← word]
  apply wordLength_unquoted
  · rw [word]
    exact fun head => (behind head).1 rfl
  · rw [word]
    exact fun head => (behind head).2 rfl

theorem isPrefixOf_stop {p : Text} (solid : ∀ c ∈ p, isspace c = false)
    (space : isspace s = true) (u r : Text) : p.isPrefixOf (u ++ s :: r) = p.isPrefixOf u := by
  induction p generalizing u with
  | nil => rfl
  | cons c p ih =>
    cases u with
    | nil =>
      have differ : c ≠ s := by
        rintro rfl
        exact Bool.false_ne_true ((solid c List.mem_cons_self).symm.trans space)
      simp [List.isPrefixOf, differ]
    | cons d u =>
      rw [List.cons_append, List.isPrefixOf, List.isPrefixOf,
        ih fun e member => solid e (List.mem_cons_of_mem c member)]

theorem punctuators_solid : ∀ p ∈ punctuators, ∀ c ∈ p, isspace c = false := by decide

theorem punctuatorLength_stop (space : isspace s = true) (u r : Text) :
    punctuatorLength (u ++ s :: r) = punctuatorLength u := by
  obtain ⟨-, -, -, -, -, -, -, noColon, noBracket⟩ := space_spelled space
  have same : (punctuators.find? fun p => p.isPrefixOf (u ++ s :: r)) =
      punctuators.find? fun p => p.isPrefixOf u := by
    refine List.find?_congr fun p member => ?_
    exact isPrefixOf_stop (punctuators_solid p member) space u r
  have bracket : (text "<::").isPrefixOf u = true →
      (((u ++ s :: r).drop 3).head? ≠ some 58 ∧ ((u ++ s :: r).drop 3).head? ≠ some 62 ↔
        (u.drop 3).head? ≠ some 58 ∧ (u.drop 3).head? ≠ some 62) := by
    intro starts
    obtain ⟨rest, rfl⟩ := List.isPrefixOf_iff_prefix.mp starts
    change ((rest ++ s :: r).head? ≠ some 58 ∧ (rest ++ s :: r).head? ≠ some 62 ↔
      rest.head? ≠ some 58 ∧ rest.head? ≠ some 62)
    cases rest with
    | nil => simp [noColon, noBracket]
    | cons d rest => exact Iff.rfl
  unfold punctuatorLength
  rw [same, isPrefixOf_stop (by decide) space]
  exact if_congr (and_congr_right bracket) rfl rfl

theorem punctuatorLength_le {c : UInt8} : punctuatorLength (c :: u) ≤ u.length + 1 := by
  unfold punctuatorLength
  split
  · exact Nat.le_add_left 1 _
  · cases found : punctuators.find? fun p => p.isPrefixOf (c :: u) with
    | none => exact Nat.le_add_left 1 _
    | some p =>
      have holds := List.find?_some found
      have starts : p <+: c :: u := List.isPrefixOf_iff_prefix.mp holds
      exact starts.length_le

theorem tokenLength_stop {c : UInt8} (first : Solid c) (solid : ∀ d ∈ u, Solid d)
    (space : isspace s = true) (r : Text) :
    tokenLength c (u ++ s :: r) = tokenLength c u ∧ tokenLength c u ≤ u.length + 1 := by
  obtain ⟨number, few⟩ := numberLength_stop solid space r
  have all : ∀ d ∈ c :: u, Solid d := by
    intro d member
    rcases List.mem_cons.mp member with rfl | later
    · exact first
    · exact solid d later
  obtain ⟨word, spelled⟩ := wordLength_stop all space r
  have punctuator := punctuatorLength_stop space (c :: u) r
  rw [List.cons_append] at word punctuator
  have digits : (u ++ s :: r).head?.any isdigit = u.head?.any isdigit := by
    cases u with
    | nil => exact (space_spelled space).2.1
    | cons d u => rfl
  have unquoted : ¬ (c = 34 ∨ c = 39) := not_or.mpr ⟨first.1.2.1, first.1.2.2.1⟩
  unfold tokenLength
  rw [digits, number, word, punctuator, if_neg unquoted, if_neg unquoted]
  refine ⟨rfl, ?_⟩
  split
  · omega
  · split
    · rw [spelled]
      exact (List.takeWhile_prefix isWord).length_le
    · exact punctuatorLength_le

theorem tokenLength_plain {c : UInt8} {p : Text} (solid : isspace c = false)
    (plain : ∀ d ∈ c :: p, Plain d) (space : isspace s = true) (w : Text) :
    tokenLength c (p ++ s :: w) = tokenLength c p ∧ tokenLength c p ≤ p.length + 1 := by
  have first : Solid c := ⟨plain c List.mem_cons_self, solid⟩
  have word : ∀ d ∈ p.takeWhile fun d => !isspace d, Solid d := by
    intro d member
    refine ⟨plain d (List.mem_cons_of_mem c ((List.takeWhile_prefix _).subset member)), ?_⟩
    simpa using List.mem_takeWhile_imp member
  have whole := List.takeWhile_append_dropWhile (p := fun d => !isspace d) (l := p)
  cases rest : p.dropWhile fun d => !isspace d with
  | nil =>
    rw [rest, List.append_nil] at whole
    rw [whole] at word
    exact tokenLength_stop first word space w
  | cons d r =>
    have gap : isspace d = true := by
      have stop := List.head?_dropWhile_not (p := fun d => !isspace d) (l := p)
      rw [rest] at stop
      simpa using stop
    rw [rest] at whole
    obtain ⟨long, few⟩ := tokenLength_stop first word gap (r ++ s :: w)
    have short := (tokenLength_stop first word gap r).1
    rw [whole] at short
    have extended : p ++ s :: w = (p.takeWhile fun d => !isspace d) ++ d :: (r ++ s :: w) := by
      conv_lhs => rw [← whole]
      rw [List.append_assoc, List.cons_append]
    rw [extended, long, short]
    exact ⟨rfl, few.trans (Nat.succ_le_succ (List.takeWhile_prefix _).length_le)⟩

/-- Plain code is cut into tokens by itself. -/
theorem lex_plain {p : Text} (plain : ∀ c ∈ p, Plain c) (space : isspace s = true) (w : Text) :
    lex (p ++ s :: w) = lex p ++ lex w := by
  induction long : p.length using Nat.strong_induction_on generalizing p with
  | _ n ih =>
    cases p with
    | nil => exact lex_space space w
    | cons c p =>
      have later : ∀ d ∈ p, Plain d := fun d member => plain d (List.mem_cons_of_mem c member)
      cases gap : isspace c with
      | true =>
        have shorter : p.length < n := by
          rw [← long]
          exact Nat.lt_succ_self _
        rw [List.cons_append, lex_space gap, lex_space gap]
        exact ih p.length shorter later rfl
      | false =>
        obtain ⟨same, few⟩ := tokenLength_plain gap plain space w
        have slash : c ≠ 47 := (plain c List.mem_cons_self).2.2.2.1
        rw [List.cons_append, lex_token gap fun is => absurd is slash,
          lex_token gap fun is => absurd is slash, same, ← List.cons_append,
          List.take_append_of_le_length few, List.drop_append_of_le_length few]
        have pos := tokenLength_pos c p
        have shorter : ((c :: p).drop (tokenLength c p)).length < n := by
          rw [← long, List.length_drop, List.length_cons]
          omega
        rw [ih _ shorter (fun d member => plain d (List.mem_of_mem_drop member)) rfl,
          List.cons_append]

theorem lex_name {c : UInt8} {p : Text} (letter : isdigit c = false)
    (word : ∀ d ∈ c :: p, isWord d = true) : lex (c :: p) = [c :: p] := by
  have first := word c List.mem_cons_self
  have marks : c ≠ 46 ∧ c ≠ 47 ∧ isspace c = false := by
    have each : ∀ d : UInt8, isWord d = true → d ≠ 46 ∧ d ≠ 47 ∧ isspace d = false :=
      each_byte (by decide +kernel)
    exact each c first
  obtain ⟨noDot, noSlash, noSpace⟩ := marks
  have whole : (c :: p).takeWhile isWord = c :: p := List.takeWhile_eq_self_iff.mpr word
  have nothing : (c :: p).drop ((c :: p).takeWhile isWord).length = [] := by
    rw [whole]
    exact List.drop_length
  have long : tokenLength c p = (c :: p).length := by
    have unnumbered : ¬ (isdigit c = true ∨ c = 46 ∧ p.head?.any isdigit = true) := by
      rw [letter]
      simp [noDot]
    rw [tokenLength, if_neg unnumbered, if_pos first,
      wordLength_unquoted (by rw [nothing]; simp) (by rw [nothing]; simp), whole]
  rw [lex_token noSpace fun same => absurd same noSlash, long, List.take_length, List.drop_length]
  rfl

/-- Text that is cut into tokens by itself, whatever comes behind it. -/
def Closed (s : Text) : Prop := ∀ v, tokens (s ++ v) = tokens s ++ tokens v

theorem Quiet.tokens {s : Text} (quiet : Quiet s) : tokens s = [] := by
  have alone := (quiet_iff quiet.ends).mp quiet []
  rwa [List.append_nil] at alone

theorem Quiet.closed {s : Text} (quiet : Quiet s) : Closed s := by
  intro v
  rw [quiet.tokens]
  exact (quiet_iff quiet.ends).mp quiet v

theorem closed_plain {p : Text} (plain : ∀ c ∈ p, Plain c) (space : isspace s = true)
    (solid : Plain s) : Closed (p ++ [s]) ∧ tokens (p ++ [s]) = lex p := by
  have all : ∀ c ∈ p ++ [s], Plain c := by
    intro c member
    rcases List.mem_append.mp member with before | last
    · exact plain c before
    · exact List.mem_singleton.mp last ▸ solid
  have read (v : Text) : tokens (p ++ [s] ++ v) = lex p ++ tokens v := by
    rw [tokens, logical_plain all, List.append_assoc, List.singleton_append]
    exact lex_plain plain space (logical v)
  have alone : tokens (p ++ [s]) = lex p := by
    have none_ := read []
    rwa [List.append_nil, show tokens [] = [] from rfl, List.append_nil] at none_
  refine ⟨fun v => ?_, alone⟩
  rw [alone]
  exact read v

theorem tokens_pieces {pieces : List Text} (closed : ∀ piece ∈ pieces, Closed piece) :
    tokens pieces.flatten = pieces.flatMap tokens := by
  induction pieces with
  | nil => rfl
  | cons piece rest ih =>
    rw [List.flatten_cons, closed piece List.mem_cons_self, List.flatMap_cons,
      ih fun other member => closed other (List.mem_cons_of_mem piece member)]

end Code

end CppTokens
