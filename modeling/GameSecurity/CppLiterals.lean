import GameSecurity.AsciiText

/- Adjacent narrow string literals of C++ as the bytes they stand for. A literal's escapes are read
   before literals are joined, and a hexadecimal escape takes all the digits that follow. Universal
   character names and the braced escapes are refused. -/
namespace CppLiterals
open AsciiText

inductive Mode where
  | start
  | between
  | inside
  | escape
  | octal (value digits : Nat)
  | hex (value : Option Nat)
  deriving DecidableEq, Repr

def isodigit (c : UInt8) : Bool := 48 ≤ c ∧ c ≤ 55

def simpleEscape (c : UInt8) : Option UInt8 :=
  if c = 39 ∨ c = 34 ∨ c = 63 ∨ c = 92 then some c
  else if c = 97 then some 7
  else if c = 98 then some 8
  else if c = 102 then some 12
  else if c = 110 then some 10
  else if c = 114 then some 13
  else if c = 116 then some 9
  else if c = 118 then some 11
  else none

/-- A character of a literal behind the bytes of an escape that ends before it. -/
def next (before : Text) (c : UInt8) : Option (Text × Mode) :=
  if c = 34 then some (before, .between)
  else if c = 92 then some (before, .escape)
  else if c = 10 then none
  else some (before ++ [c], .inside)

def fits (value : Nat) : Option Text := if value < 256 then some [value.toUInt8] else none

/-- What a character adds, and the mode behind it. -/
def step : Mode → UInt8 → Option (Text × Mode)
  | .start, c => if c = 34 then some ([], .inside) else if isspace c then some ([], .start) else none
  | .between, c =>
    if c = 34 then some ([], .inside) else if isspace c then some ([], .between) else none
  | .inside, c => next [] c
  | .escape, c =>
    if c = 120 then some ([], .hex none)
    else if isodigit c then some ([], .octal (digitValue c) 1)
    else (simpleEscape c).map fun value => ([value], .inside)
  | .octal value digits, c =>
    if digits < 3 ∧ isodigit c then some ([], .octal (value * 8 + digitValue c) (digits + 1))
    else (fits value).bind fun before => next before c
  | .hex value, c =>
    if isxdigit c then some ([], .hex (some (value.getD 0 * 16 + digitValue c)))
    else (value.bind fits).bind fun before => next before c

def run : Mode → Text → Option (Text × Mode)
  | mode, [] => some ([], mode)
  | mode, c :: rest =>
    (step mode c).bind fun here =>
      (run here.2 rest).map fun later => (here.1 ++ later.1, later.2)

def lex (source : Text) : Option Text :=
  (run .start source).bind fun result => if result.2 = .between then some result.1 else none

theorem run_append {mode middle last : Mode} {a b bytes bytes' : Text}
    (first : run mode a = some (bytes, middle)) (second : run middle b = some (bytes', last)) :
    run mode (a ++ b) = some (bytes ++ bytes', last) := by
  induction a generalizing mode bytes with
  | nil =>
    cases first
    exact second
  | cons c rest ih =>
    obtain ⟨here, stepped, remaining⟩ := Option.bind_eq_some_iff.mp first
    obtain ⟨later, ran, whole⟩ := Option.map_eq_some_iff.mp remaining
    cases whole
    rw [List.cons_append, run, stepped, Option.bind_some, ih ran, Option.map_some,
      List.append_assoc]

/-- Characters of a literal that end no escape and leave none open. -/
def Open (source bytes : Text) : Prop := run .inside source = some (bytes, .inside)

/-- A row of whole literals. -/
def Closed (source bytes : Text) : Prop :=
  ∀ mode, mode = .start ∨ mode = .between → run mode source = some (bytes, .between)

theorem Open.nil : Open [] [] := rfl

theorem Open.append {a b bytes bytes' : Text} (first : Open a bytes) (second : Open b bytes') :
    Open (a ++ b) (bytes ++ bytes') := run_append first second

theorem Open.quoted {source bytes : Text} (contents : Open source bytes) :
    Closed (34 :: (source ++ [34])) bytes := by
  intro mode outside
  have opens : run mode [34] = some ([], .inside) := by rcases outside with rfl | rfl <;> rfl
  have closes : run .inside [34] = some ([], .between) := rfl
  have inner := run_append contents closes
  rw [List.append_nil] at inner
  exact run_append opens inner

theorem Closed.append {a b bytes bytes' : Text} (first : Closed a bytes)
    (second : Closed b bytes') : Closed (a ++ b) (bytes ++ bytes') := by
  intro mode outside
  exact run_append (first mode outside) (second .between (Or.inr rfl))

theorem Closed.lex {source bytes : Text} (closed : Closed source bytes) :
    lex source = some bytes := by
  rw [CppLiterals.lex, closed .start (Or.inl rfl)]
  rfl

theorem Open.self {c : UInt8} (quote : c ≠ 34) (backslash : c ≠ 92) (newline : c ≠ 10) :
    Open [c] [c] := by
  have stays : next [] c = some ([c], .inside) := by
    rw [next, if_neg quote, if_neg backslash, if_neg newline]
    rfl
  rw [Open, run, step, stays]
  rfl

theorem Open.simple {c value : UInt8} (letter : c ≠ 120) (digit : isodigit c = false)
    (means : simpleEscape c = some value) : Open [92, c] [value] := by
  have escape : step .inside 92 = some ([], .escape) := rfl
  have stands : step .escape c = some ([value], .inside) := by
    rw [step, if_neg letter, if_neg (by rw [digit]; exact Bool.false_ne_true), means]
    rfl
  rw [Open, run, escape, Option.bind_some, run, stands]
  rfl

/-- A hexadecimal escape of two digits that is closed before anything can follow it. -/
theorem Closed.hex {high low c : UInt8} (first : isxdigit high = true) (second : isxdigit low = true)
    (value : digitValue high * 16 + digitValue low = c.toNat) :
    Closed [34, 92, 120, high, low, 34] [c] := by
  intro mode outside
  have opens : run mode [34, 92, 120] = some ([], .hex none) := by
    rcases outside with rfl | rfl <;> rfl
  have digits : run (.hex none) [high, low] = some ([], .hex (some c.toNat)) := by
    rw [← value]
    simp only [run, step, if_pos first, if_pos second, Option.bind_some, Option.map_some,
      Option.getD_none, Option.getD_some, Nat.zero_mul, Nat.zero_add, List.append_nil]
  have closes : run (.hex (some c.toNat)) [34] = some ([c], .between) := by
    have small : fits c.toNat = some [c] := by
      rw [fits, if_pos c.toNat_lt, Nat.toUInt8_eq, UInt8.ofNat_toNat]
    have quote : isxdigit 34 = false := rfl
    rw [run, step, if_neg (by rw [quote]; exact Bool.false_ne_true), Option.bind_some, small]
    rfl
  exact run_append (run_append opens digits) closes

end CppLiterals
