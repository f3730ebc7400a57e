import GameSecurity.AsciiText
import GameSecurity.PatternScanner

/- The text of a pattern becomes its op tree. -/
namespace PatternParser
open AsciiText
open PatternScanner (Op Width)

/-- How a parse ends without a tree; `unfinished` is a lack of fuel. -/
inductive Stop where
  | thrown (what : Text)
  | unfinished

def raise {α : Type} (what : String) : Except Stop α := .error (.thrown (text what))

def skipSpaces (s : Text) : Text := s.dropWhile isspace

/-- The loop over the digits of a count, in a 32-bit word. -/
def readCount (n : UInt32) (any : Bool) : Text → UInt32 × Bool × Text
  | [] => (n, any, [])
  | c :: s =>
    if isdigit c then readCount (n * 10 + (c - 48).toUInt32) true s else (n, any, c :: s)

def closeCount : UInt32 × Bool × Text → Except Stop (Op × Text)
  | (n, true, c :: s) =>
    if c = 93 then .ok (.skip n, s) else raise "invalid [N] in pattern"
  | _ => raise "invalid [N] in pattern"

def readWidth : Text → Except Stop (Op × Text)
  | c :: s =>
    if c = 49 then .ok (.readU .u1, s)
    else if c = 50 then .ok (.readU .u2, s)
    else if c = 52 then .ok (.readU .u4, s)
    else raise "only u1/u2/u4 are supported in this port"
  | [] => raise "only u1/u2/u4 are supported in this port"

/-- The second digit of a byte. -/
def readByte (hi : UInt8) : Text → Except Stop (Op × Text)
  | lo :: s =>
    if isxdigit lo then .ok (.byte (digitValue hi <<< 4 ||| digitValue lo).toUInt8, s)
    else raise "odd hex digit in pattern"
  | [] => raise "odd hex digit in pattern"

section Nested

variable (parseSub : Text → Except Stop (List Op × Text))

def readSub : Text → Except Stop (Op × Text)
  | [] => .ok (.followRel32 [], [])
  | c :: s =>
    if c = 123 then do
      let (sub, s) ← parseSub s
      .ok (.followRel32 sub, s)
    else .ok (.followRel32 [], c :: s)

/-- One token, after its first character. -/
def parseToken (c : UInt8) (s : Text) : Except Stop (Op × Text) :=
  if c = 63 then .ok (.skip 1, s)          -- ?
  else if c = 39 then .ok (.save, s)       -- the quote
  else if c = 91 then closeCount (readCount 0 false s)
  else if c = 117 then readWidth s
  else if c = 36 then readSub parseSub (skipSpaces s)
  else if isxdigit c then readByte c (skipSpaces s)
  else .error (.thrown (text "unsupported pattern token: " ++ [c]))

end Nested

/-- parse_until; the terminator 0 is the end of the text. -/
def parseUntil : Nat → UInt8 → Text → Except Stop (List Op × Text)
  | 0, _, _ => .error .unfinished
  | fuel + 1, terminator, s =>
    match skipSpaces s with
    | [] =>
      if terminator ≠ 0 then raise "unterminated pattern subexpression" else .ok ([], [])
    | c :: s =>
      if terminator ≠ 0 ∧ c = terminator then .ok ([], s)
      else do
        let (op, s) ← parseToken (parseUntil fuel 125) c s
        let (out, s) ← parseUntil fuel terminator s
        .ok (op :: out, s)

/-- The ops of Pattern's constructor. -/
def parse (s : Text) : Except Stop (List Op) := do
  let (out, _) ← parseUntil (s.length + 1) 0 s
  .ok out

/-- A token as the language means it: a count is any number. -/
inductive Token where
  | byte (value : UInt8)
  | skip (count : Nat)
  | save
  | readU (width : Width)
  | followRel32 (sub : List Token)

def widthDigit : Width → UInt8
  | .u1 => 49
  | .u2 => 50
  | .u4 => 52

/-- The grammar: the text spells the tokens. -/
inductive Spells : List Token → Text → Prop where
  | done {a : Text} (blank : Blank a) : Spells [] a
  | one {a s : Text} {rest : List Token} (blank : Blank a) (later : Spells rest s) :
      Spells (.skip 1 :: rest) (a ++ 63 :: s)
  | save {a s : Text} {rest : List Token} (blank : Blank a) (later : Spells rest s) :
      Spells (.save :: rest) (a ++ 39 :: s)
  | count {a digits s : Text} {rest : List Token} (blank : Blank a) (some_ : digits ≠ [])
      (all : ∀ c ∈ digits, isdigit c = true) (later : Spells rest s) :
      Spells (.skip (value 10 digits) :: rest) (a ++ 91 :: (digits ++ 93 :: s))
  | readU {a s : Text} {rest : List Token} (width : Width) (blank : Blank a)
      (later : Spells rest s) :
      Spells (.readU width :: rest) (a ++ 117 :: widthDigit width :: s)
  | follow {a s : Text} {rest : List Token} (blank : Blank a) (later : Spells rest s) :
      Spells (.followRel32 [] :: rest) (a ++ 36 :: s)
  | followSub {a b inner s : Text} {sub rest : List Token} (blank : Blank a) (between : Blank b)
      (nested : Spells sub inner) (later : Spells rest s) :
      Spells (.followRel32 sub :: rest) (a ++ 36 :: (b ++ 123 :: (inner ++ 125 :: s)))
  | byte {a b s : Text} {rest : List Token} {hi lo : UInt8} (blank : Blank a)
      (between : Blank b) (high : isxdigit hi = true) (low : isxdigit lo = true)
      (later : Spells rest s) :
      Spells (.byte (value 16 [hi, lo]).toUInt8 :: rest) (a ++ hi :: (b ++ lo :: s))

/- What an op tree means as tokens. -/
mutual

def tokenOf : Op → Token
  | .byte value => .byte value
  | .skip count => .skip count.toNat
  | .save => .save
  | .readU width => .readU width
  | .followRel32 sub => .followRel32 (tokensOf sub)

def tokensOf : List Op → List Token
  | [] => []
  | op :: rest => tokenOf op :: tokensOf rest

end

/- What the tokens become when counts are 32-bit words. -/
mutual

def opOf : Token → Op
  | .byte value => .byte value
  | .skip count => .skip count.toUInt32
  | .save => .save
  | .readU width => .readU width
  | .followRel32 sub => .followRel32 (opsOf sub)

def opsOf : List Token → List Op
  | [] => []
  | token :: rest => opOf token :: opsOf rest

end

/- No count is beyond a 32-bit word. -/
mutual

def FitsOne : Token → Prop
  | .skip count => count < 2 ^ 32
  | .followRel32 sub => Fits sub
  | .byte _ | .save | .readU _ => True

def Fits : List Token → Prop
  | [] => True
  | token :: rest => FitsOne token ∧ Fits rest

end

/-- The ops are exactly what the text spells, and all other text is refused by an exception. -/
def Exact (s : Text) : Prop :=
  (∀ ops, parse s = .ok ops ↔ Spells (tokensOf ops) s) ∧
    ((∀ ops, ¬ Spells (tokensOf ops) s) → ∃ what, parse s = .error (.thrown what))

/- The text of an op tree, as the dumper's own patterns are written. -/
mutual

def canonicalOp : Op → Text
  | .byte value => [digit (value.toNat / 16), digit (value.toNat % 16)]
  | .skip count => if count = 1 then [63] else 91 :: (numeral 10 count.toNat ++ [93])
  | .save => [39]
  | .readU width => [117, widthDigit width]
  | .followRel32 sub => 36 :: 123 :: (canonical sub ++ [125])

def canonical : List Op → Text
  | [] => []
  | op :: rest => canonicalOp op ++ canonical rest

end

theorem skipSpaces_blank {a : Text} (blank : Blank a) (s : Text) :
    skipSpaces (a ++ s) = skipSpaces s := List.dropWhile_append_of_pos blank

theorem skipSpaces_solid {c : UInt8} (solid : isspace c = false) (s : Text) :
    skipSpaces (c :: s) = c :: s := List.dropWhile_cons_of_neg (by rw [solid]; exact Bool.false_ne_true)

theorem skipSpaces_token {a : Text} {c : UInt8} (blank : Blank a) (solid : isspace c = false)
    (s : Text) : skipSpaces (a ++ c :: s) = c :: s :=
  (skipSpaces_blank blank _).trans (skipSpaces_solid solid s)

theorem skipSpaces_split (s : Text) :
    ∃ a, Blank a ∧ s = a ++ skipSpaces s ∧ ∀ c r, skipSpaces s = c :: r → isspace c = false := by
  refine ⟨s.takeWhile isspace, fun c => List.mem_takeWhile_imp, ?_, ?_⟩
  · exact (List.takeWhile_append_dropWhile).symm
  · intro c r found
    exact dropWhile_head found

theorem isxdigit_solid {c : UInt8} (hex : isxdigit c = true) : isspace c = false := by
  simp only [isxdigit, isdigit, isspace, decide_eq_true_eq, decide_eq_false_iff_not,
    UInt8.le_iff_toNat_le, UInt8.toNat_ofNat, ← UInt8.toNat_inj] at hex ⊢
  omega

/-- The shifted digit and the one under it. -/
theorem byte_value {hi lo : UInt8} (high : isxdigit hi = true) (low : isxdigit lo = true) :
    digitValue hi <<< 4 ||| digitValue lo = value 16 [hi, lo] := by
  have each : ∀ x < 16, ∀ y < 16, x <<< 4 ||| y = (0 * 16 + x) * 16 + y := by decide
  exact each _ (digitValue_lt high) _ (digitValue_lt low)

theorem digit_word {c : UInt8} (decimal : isdigit c = true) (n : Nat) :
    n.toUInt32 * 10 + (c - 48).toUInt32 = (n * 10 + digitValue c).toUInt32 := by
  have low : 48 ≤ c := by
    simp only [isdigit, decide_eq_true_eq] at decimal
    exact decimal.1
  apply UInt32.toNat_inj.mp
  rw [digitValue, if_pos decimal, UInt32.toNat_add, UInt32.toNat_mul, UInt8.toNat_toUInt32,
    UInt8.toNat_sub_of_le _ _ low]
  simp only [Nat.toUInt32, UInt32.toNat_ofNat', UInt32.toNat_ofNat, UInt8.toNat_ofNat]
  omega

/-- The word holds the value of the digits, modulo its size. -/
theorem readCount_digits {digits : Text} (all : ∀ c ∈ digits, isdigit c = true) {c : UInt8}
    (stop : isdigit c = false) (s : Text) (n : Nat) (any : Bool) :
    readCount n.toUInt32 any (digits ++ c :: s) =
      ((valueFrom 10 n digits).toUInt32, any || !digits.isEmpty, c :: s) := by
  induction digits generalizing n any with
  | nil => simp [readCount, stop, valueFrom]
  | cons d digits ih =>
    have first := all d List.mem_cons_self
    rw [List.cons_append, readCount, if_pos first, digit_word first,
      ih fun c member => all c (List.mem_cons_of_mem d member)]
    simp [valueFrom]

theorem readCount_split (s : Text) (n : Nat) (any : Bool) :
    ∃ digits r, s = digits ++ r ∧ (∀ c ∈ digits, isdigit c = true) ∧
      readCount n.toUInt32 any s =
        ((valueFrom 10 n digits).toUInt32, any || !digits.isEmpty, r) := by
  induction s generalizing n any with
  | nil => exact ⟨[], [], rfl, by simp, by simp [readCount, valueFrom]⟩
  | cons c s ih =>
    cases decimal : isdigit c with
    | false => exact ⟨[], c :: s, rfl, by simp, by simp [readCount, decimal, valueFrom]⟩
    | true =>
      obtain ⟨digits, r, rfl, all, read⟩ := ih (n * 10 + digitValue c) true
      refine ⟨c :: digits, r, rfl, ?_, ?_⟩
      · intro d member
        rcases List.mem_cons.mp member with rfl | later
        · exact decimal
        · exact all d later
      · rw [readCount, if_pos decimal, digit_word decimal, read]
        simp [valueFrom]

/-- How a row of tokens may end: with the text, or at the brace that closes it. -/
def Ends (terminator : UInt8) (tail rest : Text) : Prop :=
  terminator = 0 ∧ tail = [] ∧ rest = [] ∨ terminator = 125 ∧ tail = 125 :: rest

theorem Ends.known {terminator : UInt8} {tail rest : Text} (ends : Ends terminator tail rest) :
    terminator = 0 ∨ terminator = 125 := by
  rcases ends with ⟨same, -⟩ | ⟨same, -⟩
  · exact Or.inl same
  · exact Or.inr same

theorem Ends.skip {terminator : UInt8} {tail rest : Text} (ends : Ends terminator tail rest) :
    skipSpaces tail = tail := by
  rcases ends with ⟨-, rfl, -⟩ | ⟨-, rfl⟩
  · rfl
  · exact skipSpaces_solid (by decide) rest

theorem Ends.closed {tail rest : Text} (ends : Ends 125 tail rest) : tail = 125 :: rest := by
  rcases ends with ⟨zero, -⟩ | ⟨-, same⟩
  · cases zero
  · exact same

section Tokens

variable {fuel : Nat} {terminator : UInt8}

theorem parseUntil_skipSpaces (s : Text) :
    parseUntil fuel terminator (skipSpaces s) = parseUntil fuel terminator s := by
  cases fuel with
  | zero => rfl
  | succ fuel =>
    have again : skipSpaces (skipSpaces s) = skipSpaces s := List.dropWhile_idempotent isspace s
    rw [parseUntil, parseUntil, again]

theorem parseUntil_end {a tail rest : Text} (blank : Blank a) (ends : Ends terminator tail rest) :
    parseUntil (fuel + 1) terminator (a ++ tail) = .ok ([], rest) := by
  rw [parseUntil, skipSpaces_blank blank, ends.skip]
  rcases ends with ⟨rfl, rfl, rfl⟩ | ⟨rfl, rfl⟩
  · rfl
  · rfl

theorem parseUntil_token {a : Text} {c : UInt8} (blank : Blank a) (solid : isspace c = false)
    (known : terminator = 0 ∨ terminator = 125) (goesOn : c ≠ 125) (s : Text) :
    parseUntil (fuel + 1) terminator (a ++ c :: s) = (do
      let (op, s) ← parseToken (parseUntil fuel 125) c s
      let (out, s) ← parseUntil fuel terminator s
      .ok (op :: out, s)) := by
  have proceeds : ¬ (terminator ≠ 0 ∧ c = terminator) := by
    rintro ⟨closes, rfl⟩
    rcases known with same | same
    · exact closes same
    · exact goesOn same
  rw [parseUntil, skipSpaces_token blank solid]
  simp only [if_neg proceeds]

theorem parseUntil_cons {a s s' r : Text} {c : UInt8} {op : Op} {out : List Op}
    (blank : Blank a) (solid : isspace c = false)
    (known : terminator = 0 ∨ terminator = 125) (goesOn : c ≠ 125)
    (token : parseToken (parseUntil fuel 125) c s = .ok (op, s'))
    (later : parseUntil fuel terminator s' = .ok (out, r)) :
    parseUntil (fuel + 1) terminator (a ++ c :: s) = .ok (op :: out, r) := by
  rw [parseUntil_token blank solid known goesOn, token, ok_bind]
  simp only [later, ok_bind]

end Tokens

theorem isxdigit_known {c : UInt8} (hex : isxdigit c = true) :
    c ≠ 63 ∧ c ≠ 39 ∧ c ≠ 91 ∧ c ≠ 117 ∧ c ≠ 36 ∧ c ≠ 123 ∧ c ≠ 125 := by
  refine ⟨?_, ?_, ?_, ?_, ?_, ?_, ?_⟩ <;>
  · rintro rfl
    revert hex
    decide

theorem Spells.first {tokens : List Token} {s : Text} (spelled : Spells tokens s) :
    Blank s ∨
      ∃ a c r, Blank a ∧ s = a ++ c :: r ∧ isspace c = false ∧ c ≠ 123 ∧ c ≠ 125 := by
  cases spelled with
  | done blank => exact Or.inl blank
  | byte blank between high low later =>
    obtain ⟨-, -, -, -, -, opens, closes⟩ := isxdigit_known high
    exact Or.inr ⟨_, _, _, blank, rfl, isxdigit_solid high, opens, closes⟩
  | one blank later | save blank later | readU width blank later | follow blank later
  | count blank some_ all later | followSub blank between nested later =>
    exact Or.inr ⟨_, _, _, blank, rfl, by decide, by decide, by decide⟩

/-- No token begins with an opening brace. -/
theorem Spells.no_brace {tokens : List Token} {s tail rest : Text} {terminator : UInt8}
    (spelled : Spells tokens s) (ends : Ends terminator tail rest) (y : Text) :
    skipSpaces (s ++ tail) ≠ 123 :: y := by
  intro brace
  rcases spelled.first with blank | ⟨a, c, r, blank, rfl, solid, opens, -⟩
  · rw [skipSpaces_blank blank, ends.skip] at brace
    rcases ends with ⟨-, rfl, -⟩ | ⟨-, rfl⟩
    · cases brace
    · cases brace
  · rw [List.append_assoc, List.cons_append, skipSpaces_token blank solid] at brace
    exact opens (List.cons.inj brace).1

theorem readSub_plain (parseSub : Text → Except Stop (List Op × Text)) {s : Text}
    (plain : ∀ y, s ≠ 123 :: y) : readSub parseSub s = .ok (.followRel32 [], s) := by
  cases s with
  | nil => rfl
  | cons c s => rw [readSub, if_neg fun opens => plain s (by rw [opens])]

theorem parseToken_byte (parseSub : Text → Except Stop (List Op × Text)) {hi : UInt8}
    (high : isxdigit hi = true) (s : Text) :
    parseToken parseSub hi s = readByte hi (skipSpaces s) := by
  obtain ⟨skip, save, count, read, follow, -, -⟩ := isxdigit_known high
  rw [parseToken, if_neg skip, if_neg save, if_neg count, if_neg read, if_neg follow, if_pos high]

theorem parseToken_count (parseSub : Text → Except Stop (List Op × Text)) {digits : Text}
    (some_ : digits ≠ []) (all : ∀ c ∈ digits, isdigit c = true) (s : Text) :
    parseToken parseSub 91 (digits ++ 93 :: s) =
      .ok (.skip (value 10 digits).toUInt32, s) := by
  have read := readCount_digits all (show isdigit 93 = false by decide) s 0 false
  have any : (false || !digits.isEmpty) = true := by simpa using some_
  rw [any] at read
  change closeCount (readCount (Nat.toUInt32 0) false (digits ++ 93 :: s)) = _
  rw [read]
  rfl

theorem parseToken_width (parseSub : Text → Except Stop (List Op × Text)) (width : Width)
    (s : Text) :
    parseToken parseSub 117 (widthDigit width :: s) = .ok (.readU width, s) := by
  cases width <;> rfl

/-- What the grammar spells is parsed, with the counts in 32-bit words. -/
theorem parseUntil_spells {tokens : List Token} {s : Text} (spelled : Spells tokens s) :
    ∀ {fuel : Nat} {terminator : UInt8} {tail rest : Text}, Ends terminator tail rest →
      s.length < fuel → parseUntil fuel terminator (s ++ tail) = .ok (opsOf tokens, rest) := by
  induction spelled with
  | done blank =>
    intro fuel terminator tail rest ends enough
    obtain ⟨fuel, rfl⟩ := Nat.exists_eq_succ_of_ne_zero (Nat.ne_of_gt (Nat.zero_lt_of_lt enough))
    exact parseUntil_end blank ends
  | one blank later ih | save blank later ih =>
    intro fuel terminator tail rest ends enough
    obtain ⟨fuel, rfl⟩ := Nat.exists_eq_succ_of_ne_zero (Nat.ne_of_gt (Nat.zero_lt_of_lt enough))
    simp only [List.length_append, List.length_cons] at enough
    rw [List.append_assoc, List.cons_append]
    exact parseUntil_cons blank (by decide) ends.known (by decide) rfl (ih ends (by omega))
  | count blank some_ all later ih =>
    intro fuel terminator tail rest ends enough
    obtain ⟨fuel, rfl⟩ := Nat.exists_eq_succ_of_ne_zero (Nat.ne_of_gt (Nat.zero_lt_of_lt enough))
    simp only [List.length_append, List.length_cons] at enough
    rw [List.append_assoc, List.cons_append, List.append_assoc, List.cons_append]
    exact parseUntil_cons blank (by decide) ends.known (by decide)
      (parseToken_count _ some_ all _) (ih ends (by omega))
  | readU width blank later ih =>
    intro fuel terminator tail rest ends enough
    obtain ⟨fuel, rfl⟩ := Nat.exists_eq_succ_of_ne_zero (Nat.ne_of_gt (Nat.zero_lt_of_lt enough))
    simp only [List.length_append, List.length_cons] at enough
    rw [List.append_assoc, List.cons_append, List.cons_append]
    exact parseUntil_cons blank (by decide) ends.known (by decide)
      (parseToken_width _ width _) (ih ends (by omega))
  | follow blank later ih =>
    intro fuel terminator tail rest ends enough
    obtain ⟨fuel, rfl⟩ := Nat.exists_eq_succ_of_ne_zero (Nat.ne_of_gt (Nat.zero_lt_of_lt enough))
    simp only [List.length_append, List.length_cons] at enough
    rw [List.append_assoc, List.cons_append]
    have plain := readSub_plain (parseUntil fuel 125) (later.no_brace ends)
    exact parseUntil_cons blank (by decide) ends.known (by decide) plain
      ((parseUntil_skipSpaces _).trans (ih ends (by omega)))
  | @followSub a b inner s sub rest_ blank between nested later inside ih =>
    intro fuel terminator tail rest ends enough
    obtain ⟨fuel, rfl⟩ := Nat.exists_eq_succ_of_ne_zero (Nat.ne_of_gt (Nat.zero_lt_of_lt enough))
    simp only [List.length_append, List.length_cons] at enough
    have closed : Ends 125 (125 :: (s ++ tail)) (s ++ tail) := Or.inr ⟨rfl, rfl⟩
    have read : parseUntil fuel 125 (inner ++ 125 :: (s ++ tail)) = .ok (opsOf sub, s ++ tail) :=
      inside closed (by omega)
    have token : parseToken (parseUntil fuel 125) 36 (b ++ 123 :: (inner ++ 125 :: (s ++ tail))) =
        .ok (.followRel32 (opsOf sub), s ++ tail) := by
      change readSub (parseUntil fuel 125) (skipSpaces (b ++ 123 :: _)) = _
      rw [skipSpaces_token between (by decide), readSub, if_pos rfl, read, ok_bind]
    simp only [List.append_assoc, List.cons_append]
    exact parseUntil_cons blank (by decide) ends.known (by decide) token (ih ends (by omega))
  | @byte a b s rest_ hi lo blank between high low later ih =>
    intro fuel terminator tail rest ends enough
    obtain ⟨fuel, rfl⟩ := Nat.exists_eq_succ_of_ne_zero (Nat.ne_of_gt (Nat.zero_lt_of_lt enough))
    simp only [List.length_append, List.length_cons] at enough
    have token : parseToken (parseUntil fuel 125) hi (b ++ lo :: (s ++ tail)) =
        .ok (.byte (value 16 [hi, lo]).toUInt8, s ++ tail) := by
      rw [parseToken_byte _ high, skipSpaces_token between (isxdigit_solid low), readByte,
        if_pos low, byte_value high low]
    simp only [List.append_assoc, List.cons_append]
    exact parseUntil_cons blank (isxdigit_solid high) ends.known
      (isxdigit_known high).2.2.2.2.2.2 token (ih ends (by omega))

theorem Spells.after_blank {tokens : List Token} {b s : Text} (blank : Blank b)
    (spelled : Spells tokens s) : Spells tokens (b ++ s) := by
  cases spelled with
  | done more => exact .done (blank.append more)
  | one more later => simpa using Spells.one (blank.append more) later
  | save more later => simpa using Spells.save (blank.append more) later
  | count more some_ all later => simpa using Spells.count (blank.append more) some_ all later
  | readU width more later => simpa using Spells.readU width (blank.append more) later
  | follow more later => simpa using Spells.follow (blank.append more) later
  | followSub more between nested later =>
    simpa using Spells.followSub (blank.append more) between nested later
  | byte more between high low later => simpa using Spells.byte (blank.append more) between high low later

/-- The character and the text behind it spell the token, whatever follows. -/
def Leads (c : UInt8) (lead : Text) (token : Token) : Prop :=
  ∀ a later rest, Blank a → Spells rest later → Spells (token :: rest) (a ++ c :: (lead ++ later))

/-- What was taken off a text spells the op. -/
def Taken (c : UInt8) (s : Text) (op : Op) (s' : Text) : Prop :=
  ∃ token lead, s = lead ++ s' ∧ Leads c lead token ∧ opOf token = op

theorem closeCount_sound {s s' : Text} {op : Op}
    (parsed : closeCount (readCount 0 false s) = .ok (op, s')) : Taken 91 s op s' := by
  obtain ⟨digits, r, rfl, all, read⟩ := readCount_split s 0 false
  rw [show (0 : UInt32) = Nat.toUInt32 0 from rfl, read] at parsed
  cases digits with
  | nil => cases parsed
  | cons d digits =>
    cases r with
    | nil => cases parsed
    | cons c r =>
      change (if c = 93 then _ else _) = _ at parsed
      by_cases closes : c = 93
      · rw [if_pos closes] at parsed
        cases parsed
        subst closes
        refine ⟨.skip (value 10 (d :: digits)), d :: digits ++ [93], by simp, ?_, rfl⟩
        intro a later rest blank spelled
        simpa using Spells.count blank (List.cons_ne_nil d digits) all spelled
      · rw [if_neg closes] at parsed
        cases parsed

theorem readWidth_sound {s s' : Text} {op : Op} (parsed : readWidth s = .ok (op, s')) :
    Taken 117 s op s' := by
  have named : ∀ width, s = widthDigit width :: s' → op = .readU width → Taken 117 s op s' := by
    rintro width rfl rfl
    refine ⟨.readU width, [widthDigit width], rfl, ?_, rfl⟩
    intro a later rest blank spelled
    exact .readU width blank spelled
  cases s with
  | nil => cases parsed
  | cons c s =>
    rw [readWidth] at parsed
    split at parsed
    · next one =>
      cases parsed
      exact named .u1 (by rw [one]; rfl) rfl
    · split at parsed
      · next two =>
        cases parsed
        exact named .u2 (by rw [two]; rfl) rfl
      · split at parsed
        · next four =>
          cases parsed
          exact named .u4 (by rw [four]; rfl) rfl
        · cases parsed

theorem readByte_sound {hi : UInt8} {s s' : Text} {op : Op} (high : isxdigit hi = true)
    (parsed : readByte hi (skipSpaces s) = .ok (op, s')) : Taken hi s op s' := by
  obtain ⟨b, between, split_, -⟩ := skipSpaces_split s
  rw [split_]
  cases found : skipSpaces s with
  | nil =>
    rw [found] at parsed
    cases parsed
  | cons lo r =>
    rw [found, readByte] at parsed
    split at parsed
    · next low =>
      cases parsed
      refine ⟨.byte (value 16 [hi, lo]).toUInt8, b ++ [lo], by simp, ?_, ?_⟩
      · intro a later rest blank spelled
        simpa using Spells.byte blank between high low spelled
      · rw [opOf, byte_value high low]
    · cases parsed

def SubSound (parseSub : Text → Except Stop (List Op × Text)) : Prop :=
  ∀ s ops rest, parseSub s = .ok (ops, rest) →
    ∃ tokens inner, s = inner ++ 125 :: rest ∧ Spells tokens inner ∧ opsOf tokens = ops

section Sound

variable {parseSub : Text → Except Stop (List Op × Text)}

theorem readSub_sound (sound : SubSound parseSub) {s s' : Text} {op : Op}
    (parsed : readSub parseSub (skipSpaces s) = .ok (op, s')) : Taken 36 s op s' := by
  obtain ⟨b, between, split_, -⟩ := skipSpaces_split s
  have plain : ∀ r, s = b ++ r → Taken 36 s (.followRel32 []) r := by
    intro r rest_
    refine ⟨.followRel32 [], b, rest_, ?_, rfl⟩
    intro a later rest blank spelled
    exact .follow blank (spelled.after_blank between)
  cases found : skipSpaces s with
  | nil =>
    rw [found] at parsed split_
    cases parsed
    exact plain [] split_
  | cons c r =>
    rw [found] at parsed split_
    rw [readSub] at parsed
    split at parsed
    · next opens =>
      cases nested : parseSub r with
      | error stop =>
        rw [nested] at parsed
        cases parsed
      | ok pair =>
        obtain ⟨sub, after⟩ := pair
        rw [nested] at parsed
        cases parsed
        obtain ⟨tokens, inner, rfl, spelledSub, same⟩ := sound r sub s' nested
        refine ⟨.followRel32 tokens, b ++ 123 :: (inner ++ [125]), ?_, ?_, ?_⟩
        · simp [split_, opens]
        · intro a later rest blank spelled
          simpa using Spells.followSub blank between spelledSub spelled
        · rw [opOf, same]
    · cases parsed
      exact plain _ split_

theorem parseToken_sound (sound : SubSound parseSub) {c : UInt8} {s s' : Text} {op : Op}
    (parsed : parseToken parseSub c s = .ok (op, s')) : Taken c s op s' := by
  rw [parseToken] at parsed
  split at parsed
  · next one =>
    cases parsed
    subst one
    exact ⟨.skip 1, [], rfl, fun a later rest => .one, rfl⟩
  · split at parsed
    · next save =>
      cases parsed
      subst save
      exact ⟨.save, [], rfl, fun a later rest => .save, rfl⟩
    · split at parsed
      · next count =>
        subst count
        exact closeCount_sound parsed
      · split at parsed
        · next read =>
          subst read
          exact readWidth_sound parsed
        · split at parsed
          · next follow =>
            subst follow
            exact readSub_sound sound parsed
          · split at parsed
            · next high => exact readByte_sound high parsed
            · cases parsed

end Sound

/-- What is parsed is spelled by the text up to its end. -/
theorem parseUntil_sound {fuel : Nat} {terminator : UInt8} {s rest : Text} {ops : List Op}
    (known : terminator = 0 ∨ terminator = 125)
    (parsed : parseUntil fuel terminator s = .ok (ops, rest)) :
    ∃ tokens a tail, s = a ++ tail ∧ Spells tokens a ∧ Ends terminator tail rest ∧
      opsOf tokens = ops := by
  induction fuel generalizing terminator s ops rest with
  | zero => cases parsed
  | succ fuel ih =>
    obtain ⟨a, blank, split_, solid⟩ := skipSpaces_split s
    have nested : SubSound (parseUntil fuel 125) := by
      intro s ops rest parsed
      obtain ⟨tokens, inner, tail, rfl, spelled, ends, same⟩ := ih (Or.inr rfl) parsed
      exact ⟨tokens, inner, by rw [ends.closed], spelled, same⟩
    rw [parseUntil] at parsed
    cases found : skipSpaces s with
    | nil =>
      rw [found] at parsed split_
      simp only at parsed
      split at parsed
      · cases parsed
      · next open_ =>
        cases parsed
        exact ⟨[], a, [], split_, .done blank, Or.inl ⟨not_not.mp open_, rfl, rfl⟩, rfl⟩
    | cons c r =>
      rw [found] at parsed split_
      simp only at parsed
      split at parsed
      · next closes =>
        cases parsed
        have brace : terminator = 125 := known.resolve_left closes.1
        exact ⟨[], a, c :: rest, split_, .done blank, Or.inr ⟨brace, by rw [closes.2, brace]⟩, rfl⟩
      · cases token : parseToken (parseUntil fuel 125) c r with
        | error stop =>
          rw [token] at parsed
          cases parsed
        | ok pair =>
          obtain ⟨op, r'⟩ := pair
          rw [token, ok_bind] at parsed
          cases later : parseUntil fuel terminator r' with
          | error stop =>
            simp only [later] at parsed
            cases parsed
          | ok pair =>
            obtain ⟨out, last⟩ := pair
            simp only [later, ok_bind] at parsed
            cases parsed
            obtain ⟨first, lead, rfl, leads, same⟩ := parseToken_sound nested token
            obtain ⟨tokens, a', tail, rfl, spelled, ends, others⟩ := ih known later
            refine ⟨first :: tokens, a ++ c :: (lead ++ a'), tail, by simp [split_],
              leads a a' tokens blank spelled, ends, ?_⟩
            rw [opsOf, same, others]

theorem nested_sound (fuel : Nat) : SubSound (parseUntil fuel 125) := by
  intro s ops rest parsed
  obtain ⟨tokens, inner, tail, rfl, spelled, ends, same⟩ := parseUntil_sound (Or.inr rfl) parsed
  exact ⟨tokens, inner, by rw [ends.closed], spelled, same⟩

theorem closeCount_finishes (read : UInt32 × Bool × Text) :
    closeCount read ≠ .error .unfinished := by
  unfold closeCount
  split
  · split <;> simp [raise]
  · simp [raise]

theorem readWidth_finishes (s : Text) : readWidth s ≠ .error .unfinished := by
  unfold readWidth
  repeat' split
  all_goals simp [raise]

theorem readByte_finishes (hi : UInt8) (s : Text) : readByte hi s ≠ .error .unfinished := by
  unfold readByte
  split
  · split <;> simp [raise]
  · simp [raise]

theorem parseToken_finishes {parseSub : Text → Except Stop (List Op × Text)} {s : Text}
    (finishes : ∀ y, y.length < s.length → parseSub y ≠ .error .unfinished) (c : UInt8) :
    parseToken parseSub c s ≠ .error .unfinished := by
  have sub : readSub parseSub (skipSpaces s) ≠ .error .unfinished := by
    have shorter : (skipSpaces s).length ≤ s.length := List.length_dropWhile_le isspace s
    cases found : skipSpaces s with
    | nil => exact nofun
    | cons c r =>
      rw [found, List.length_cons] at shorter
      rw [readSub]
      split
      · cases nested : parseSub r with
        | error stop =>
          rintro ⟨rfl⟩
          exact finishes r (by omega) nested
        | ok pair => exact nofun
      · exact nofun
  unfold parseToken
  repeat' split
  · exact nofun
  · exact nofun
  · exact closeCount_finishes _
  · exact readWidth_finishes s
  · exact sub
  · exact readByte_finishes c _
  · simp

/-- Every token takes a character, so the fuel lasts. -/
theorem parseUntil_finishes {fuel : Nat} {terminator : UInt8} {s : Text}
    (enough : s.length < fuel) : parseUntil fuel terminator s ≠ .error .unfinished := by
  induction fuel generalizing terminator s with
  | zero => exact absurd enough (Nat.not_lt_zero _)
  | succ fuel ih =>
    obtain ⟨a, -, split_, -⟩ := skipSpaces_split s
    rw [parseUntil]
    cases found : skipSpaces s with
    | nil =>
      simp only
      split <;> simp [raise]
    | cons c r =>
      rw [found] at split_
      rw [split_, List.length_append, List.length_cons] at enough
      simp only
      split
      · exact nofun
      · cases token : parseToken (parseUntil fuel 125) c r with
        | error stop =>
          rintro ⟨rfl⟩
          exact parseToken_finishes (fun y shorter => ih (by omega)) c token
        | ok pair =>
          obtain ⟨op, r'⟩ := pair
          obtain ⟨-, lead, rfl, -⟩ := parseToken_sound (nested_sound fuel) token
          rw [List.length_append] at enough
          cases later : parseUntil fuel terminator r' with
          | error stop =>
            simp only [ok_bind, later]
            rintro ⟨rfl⟩
            exact ih (by omega) later
          | ok pair =>
            simp only [ok_bind, later]
            exact nofun

theorem parse_eq_iff (s : Text) (ops : List Op) :
    parse s = .ok ops ↔ ∃ tokens, Spells tokens s ∧ opsOf tokens = ops := by
  constructor
  · intro parsed
    cases found : parseUntil (s.length + 1) 0 s with
    | error stop =>
      rw [parse, found] at parsed
      cases parsed
    | ok pair =>
      obtain ⟨out, rest⟩ := pair
      rw [parse, found] at parsed
      cases parsed
      obtain ⟨tokens, a, tail, rfl, spelled, ends, same⟩ := parseUntil_sound (Or.inl rfl) found
      rcases ends with ⟨-, rfl, -⟩ | ⟨closes, -⟩
      · exact ⟨tokens, by simpa using spelled, same⟩
      · cases closes
  · rintro ⟨tokens, spelled, rfl⟩
    have found : parseUntil (s.length + 1) 0 (s ++ []) = .ok (opsOf tokens, []) :=
      parseUntil_spells spelled (Or.inl ⟨rfl, rfl, rfl⟩) (Nat.lt_succ_self _)
    rw [List.append_nil] at found
    rw [parse, found]
    rfl

theorem parse_ends (s : Text) :
    (∃ ops, parse s = .ok ops) ∨ ∃ what, parse s = .error (.thrown what) := by
  have finishes : parseUntil (s.length + 1) 0 s ≠ .error .unfinished :=
    parseUntil_finishes (Nat.lt_succ_self s.length)
  rw [parse]
  cases found : parseUntil (s.length + 1) 0 s with
  | ok pair => exact Or.inl ⟨pair.1, rfl⟩
  | error stop =>
    cases stop with
    | thrown what => exact Or.inr ⟨what, rfl⟩
    | unfinished => exact absurd found finishes

/- All counts of the tokens together. -/
mutual

def skipOne : Token → Nat
  | .skip count => count
  | .followRel32 sub => skips sub
  | .byte _ | .save | .readU _ => 0

def skips : List Token → Nat
  | [] => 0
  | token :: rest => skipOne token + skips rest

end

/-- All counts that a text spells, together. -/
def skipped : Text → Nat
  | [] => 0
  | c :: s =>
    (if c = 63 then 1 else if c = 91 then value 10 (s.takeWhile isdigit) else 0) + skipped s

theorem skipped_cons {c : UInt8} (other : c ≠ 63 ∧ c ≠ 91) (s : Text) :
    skipped (c :: s) = skipped s := by
  rw [skipped, if_neg other.1, if_neg other.2, Nat.zero_add]

theorem skipped_append {a : Text} (others : ∀ c ∈ a, c ≠ 63 ∧ c ≠ 91) (s : Text) :
    skipped (a ++ s) = skipped s := by
  induction a with
  | nil => rfl
  | cons c a ih =>
    rw [List.cons_append, skipped_cons (others c List.mem_cons_self)]
    exact ih fun d member => others d (List.mem_cons_of_mem c member)

theorem isspace_other {c : UInt8} (space : isspace c = true) : c ≠ 63 ∧ c ≠ 91 := by
  constructor <;>
  · rintro rfl
    revert space
    decide

theorem isdigit_other {c : UInt8} (decimal : isdigit c = true) : c ≠ 63 ∧ c ≠ 91 := by
  constructor <;>
  · rintro rfl
    revert decimal
    decide

theorem isxdigit_other {c : UInt8} (hex : isxdigit c = true) : c ≠ 63 ∧ c ≠ 91 :=
  ⟨(isxdigit_known hex).1, (isxdigit_known hex).2.2.1⟩

theorem skipped_blank {a : Text} (blank : Blank a) (s : Text) : skipped (a ++ s) = skipped s :=
  skipped_append (fun c member => isspace_other (blank c member)) s

/-- The counts of a text do not depend on how it is read. -/
theorem Spells.skipped {tokens : List Token} {s : Text} (spelled : Spells tokens s)
    (tail : Text) : skipped (s ++ tail) = skips tokens + skipped tail := by
  induction spelled generalizing tail with
  | done blank => rw [skipped_blank blank, skips, Nat.zero_add]
  | one blank later ih =>
    rw [List.append_assoc, List.cons_append, skipped_blank blank, PatternParser.skipped, if_pos rfl, ih,
      skips, skipOne, Nat.add_assoc]
  | save blank later ih | follow blank later ih =>
    rw [List.append_assoc, List.cons_append, skipped_blank blank, skipped_cons (by decide), ih, skips,
      skipOne]
    simp only [skips, Nat.zero_add]
  | @count a digits s rest blank some_ all later ih =>
    have value_ : (digits ++ 93 :: (s ++ tail)).takeWhile isdigit = digits := by
      rw [List.takeWhile_append_of_pos all, List.takeWhile_cons_of_neg (by decide),
        List.append_nil]
    simp only [List.append_assoc, List.cons_append]
    rw [skipped_blank blank, PatternParser.skipped, if_neg (by decide), if_pos rfl, value_,
      skipped_append fun c member => isdigit_other (all c member), skipped_cons (by decide), ih,
      skips, skipOne, Nat.add_assoc]
  | readU width blank later ih =>
    have plain : widthDigit width ≠ 63 ∧ widthDigit width ≠ 91 := by cases width <;> decide
    rw [List.append_assoc, List.cons_append, List.cons_append, skipped_blank blank,
      skipped_cons (by decide), skipped_cons plain, ih, skips, skipOne, Nat.zero_add]
  | followSub blank between nested later inside ih =>
    simp only [List.append_assoc, List.cons_append]
    rw [skipped_blank blank, skipped_cons (by decide), skipped_blank between, skipped_cons (by decide), inside,
      skipped_cons (by decide), ih, skips, skipOne, Nat.add_assoc]
  | byte blank between high low later ih =>
    simp only [List.append_assoc, List.cons_append]
    rw [skipped_blank blank, skipped_cons (isxdigit_other high), skipped_blank between,
      skipped_cons (isxdigit_other low), ih, skips, skipOne, Nat.zero_add]

/- Ops are tokens whose counts are words. -/
mutual

theorem opOf_tokenOf (op : Op) : opOf (tokenOf op) = op := by
  cases op with
  | byte value | save | readU width => rfl
  | skip count => simp [tokenOf, opOf]
  | followRel32 sub => rw [tokenOf, opOf, opsOf_tokensOf sub]

theorem opsOf_tokensOf (ops : List Op) : opsOf (tokensOf ops) = ops := by
  cases ops with
  | nil => rfl
  | cons op rest => rw [tokensOf, opsOf, opOf_tokenOf op, opsOf_tokensOf rest]

end

/- Tokens whose counts fit are kept. -/
mutual

theorem tokenOf_opOf (token : Token) (fits : FitsOne token) : tokenOf (opOf token) = token := by
  cases token with
  | byte value | save | readU width => rfl
  | skip count =>
    rw [opOf, tokenOf]
    exact congrArg Token.skip (Nat.mod_eq_of_lt fits)
  | followRel32 sub => rw [opOf, tokenOf, tokensOf_opsOf sub fits]

theorem tokensOf_opsOf (tokens : List Token) (fits : Fits tokens) :
    tokensOf (opsOf tokens) = tokens := by
  cases tokens with
  | nil => rfl
  | cons token rest =>
    rw [opsOf, tokensOf, tokenOf_opOf token fits.1, tokensOf_opsOf rest fits.2]

end

/- A word is no more than the count it is made of, and as much only where the count fits. -/
mutual

theorem skipOne_word (token : Token) :
    skipOne (tokenOf (opOf token)) ≤ skipOne token ∧
      (skipOne token ≤ skipOne (tokenOf (opOf token)) → FitsOne token) := by
  cases token with
  | byte value | save | readU width => exact ⟨Nat.le_refl 0, fun _ => trivial⟩
  | skip count =>
    change count % 2 ^ 32 ≤ count ∧ (count ≤ count % 2 ^ 32 → count < 2 ^ 32)
    omega
  | followRel32 sub => exact skips_word sub

theorem skips_word (tokens : List Token) :
    skips (tokensOf (opsOf tokens)) ≤ skips tokens ∧
      (skips tokens ≤ skips (tokensOf (opsOf tokens)) → Fits tokens) := by
  cases tokens with
  | nil => exact ⟨Nat.le_refl 0, fun _ => trivial⟩
  | cons token rest =>
    obtain ⟨first, fitsFirst⟩ := skipOne_word token
    obtain ⟨others, fitsOthers⟩ := skips_word rest
    simp only [opsOf, tokensOf, skips, Fits]
    refine ⟨Nat.add_le_add first others, fun kept => ⟨fitsFirst ?_, fitsOthers ?_⟩⟩
    · omega
    · omega

end

theorem exact_iff (s : Text) : Exact s ↔ ∀ tokens, Spells tokens s → Fits tokens := by
  constructor
  · rintro ⟨agrees, -⟩ tokens spelled
    have parsed : parse s = .ok (opsOf tokens) := (parse_eq_iff s _).mpr ⟨tokens, spelled, rfl⟩
    have meant := ((agrees _).mp parsed).skipped []
    rw [spelled.skipped []] at meant
    exact (skips_word tokens).2 (by omega)
  · intro fits
    have agrees : ∀ ops, parse s = .ok ops ↔ Spells (tokensOf ops) s := by
      intro ops
      rw [parse_eq_iff]
      constructor
      · rintro ⟨tokens, spelled, rfl⟩
        rwa [tokensOf_opsOf tokens (fits tokens spelled)]
      · intro spelled
        exact ⟨tokensOf ops, spelled, opsOf_tokensOf ops⟩
    refine ⟨agrees, fun foreign => (parse_ends s).resolve_left ?_⟩
    rintro ⟨ops, parsed⟩
    exact foreign ops ((agrees ops).mp parsed)

theorem digits_byte (value_ : UInt8) :
    (value 16 [digit (value_.toNat / 16), digit (value_.toNat % 16)]).toUInt8 = value_ := by
  have low := value_.toNat_lt
  apply UInt8.toNat_inj.mp
  change ((0 * 16 + digitValue _) * 16 + digitValue _) % 2 ^ 8 = _
  rw [digitValue_digit (by omega), digitValue_digit (by omega)]
  omega

/- The canonical text is in the grammar. -/
mutual

theorem canonicalOp_leads (op : Op) (later : Text) (rest : List Token)
    (spelled : Spells rest later) : Spells (tokenOf op :: rest) (canonicalOp op ++ later) := by
  have none_ : Blank [] := fun c member => absurd member List.not_mem_nil
  cases op with
  | byte value_ =>
    have low := value_.toNat_lt
    have spells := Spells.byte none_ none_ (isxdigit_digit (show value_.toNat / 16 < 16 by omega))
      (isxdigit_digit (show value_.toNat % 16 < 16 by omega)) spelled
    rwa [digits_byte] at spells
  | skip count =>
    rw [canonicalOp, tokenOf]
    split
    · next one =>
      subst one
      exact .one none_ spelled
    · have all : ∀ c ∈ numeral 10 count.toNat, isdigit c = true :=
        numeral_all (by decide) _ (fun n low => isdigit_digit low) _
      have spells := Spells.count none_ (numeral_ne_nil 10 count.toNat) all spelled
      rw [value_numeral (by decide) (by decide)] at spells
      simpa using spells
  | save => exact .save none_ spelled
  | readU width => exact .readU width none_ spelled
  | followRel32 sub =>
    have spells := Spells.followSub none_ none_ (canonical_spells sub) spelled
    simpa [canonicalOp, tokenOf] using spells

theorem canonical_spells (ops : List Op) : Spells (tokensOf ops) (canonical ops) := by
  cases ops with
  | nil => exact .done fun c member => absurd member List.not_mem_nil
  | cons op rest =>
    rw [tokensOf, canonical]
    exact canonicalOp_leads op _ _ (canonical_spells rest)

end

/-- The canonical text of a tree is read back, and a text is read exactly unless it spells
   a count beyond 32 bits. -/
theorem pattern_exact_iff (ops : List Op) (s : Text) :
    parse (canonical ops) = .ok ops ∧ (Exact s ↔ ∀ tokens, Spells tokens s → Fits tokens) := by
  refine ⟨?_, exact_iff s⟩
  exact (parse_eq_iff _ _).mpr ⟨tokensOf ops, canonical_spells ops, opsOf_tokensOf ops⟩

set_option maxRecDepth 1500

/-- A count of 2^32 is accepted as one that skips nothing. -/
theorem pattern_count_wraps :
    parse (text "[4294967296]") = .ok [.skip 0] ∧ ¬ Exact (text "[4294967296]") := by
  refine ⟨rfl, fun exact_ => ?_⟩
  have spells : Spells [.skip 4294967296] (text "[4294967296]") :=
    @Spells.count [] (text "4294967296") [] [] (fun c member => absurd member List.not_mem_nil)
      (List.cons_ne_nil _ _) (by decide) (.done fun c member => absurd member List.not_mem_nil)
  have fits : 4294967296 < 2 ^ 32 := ((exact_iff _).mp exact_ _ spells).1
  exact absurd fits (by decide)

end PatternParser
