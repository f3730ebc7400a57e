import Mathlib.Data.Nat.Digits.Defs
import Mathlib.Algebra.Group.Nat.Defs
import Mathlib.Algebra.Group.Int.Defs

/- Memory as bytes at addresses, of which any may be missing: blocks of bytes, numbers with
   their low byte first, and texts that a null byte ends. -/
namespace ByteMemory

variable {A : Type} [Add A] [OfNat A 1]

def block (m : A → Option UInt8) : Nat → A → Option (List UInt8)
  | 0, _ => some []
  | n + 1, a => do
    let byte ← m a
    let rest ← block m n (a + 1)
    return byte :: rest

def Holds (m : A → Option UInt8) : A → List UInt8 → Prop
  | _, [] => True
  | a, byte :: rest => m a = some byte ∧ Holds m (a + 1) rest

instance holdsDecidable (m : A → Option UInt8) :
    (a : A) → (bytes : List UInt8) → Decidable (Holds m a bytes)
  | _, [] => .isTrue trivial
  | a, byte :: rest =>
    have := holdsDecidable m (a + 1) rest
    inferInstanceAs (Decidable (m a = some byte ∧ Holds m (a + 1) rest))

/-- The number whose digits to the base 256 are these, the lowest first. -/
def ofBytes (bytes : List UInt8) : Nat := Nat.ofDigits 256 (bytes.map UInt8.toNat)

def toBytes : Nat → Nat → List UInt8
  | 0, _ => []
  | n + 1, value => (value % 256).toUInt8 :: toBytes n (value / 256)

def number (m : A → Option UInt8) (n : Nat) (a : A) : Option Nat := (block m n a).map ofBytes

/-- The bytes before the first that is null or missing, at most so many. -/
def cString (m : A → Option UInt8) : Nat → A → List UInt8
  | 0, _ => []
  | n + 1, a =>
    match m a with
    | none => []
    | some byte => if byte = 0 then [] else byte :: cString m n (a + 1)

variable {m : A → Option UInt8} {a : A} {n : Nat} {bytes : List UInt8}

theorem block_iff : block m n a = some bytes ↔ bytes.length = n ∧ Holds m a bytes := by
  induction n generalizing a bytes with
  | zero =>
    rw [block, Option.some.injEq, List.length_eq_zero_iff]
    constructor
    · rintro rfl
      exact ⟨rfl, trivial⟩
    · exact fun here => here.1.symm
  | succ n ih =>
    simp only [block, Option.bind_eq_bind, Option.bind_eq_some_iff]
    constructor
    · rintro ⟨byte, first, rest, later, same⟩
      cases same
      obtain ⟨long, holds⟩ := ih.mp later
      exact ⟨congrArg (· + 1) long, first, holds⟩
    · rintro ⟨long, holds⟩
      cases bytes with
      | nil => cases long
      | cons byte rest =>
        exact ⟨byte, holds.1, rest, ih.mpr ⟨Nat.succ.inj long, holds.2⟩, rfl⟩

@[simp] theorem toBytes_length (n value : Nat) : (toBytes n value).length = n := by
  induction n generalizing value with
  | zero => rfl
  | succ n ih => rw [toBytes, List.length_cons, ih]

theorem ofBytes_toBytes {value : Nat} (fits : value < 256 ^ n) :
    ofBytes (toBytes n value) = value := by
  induction n generalizing value with
  | zero => exact (Nat.lt_one_iff.mp fits).symm
  | succ n ih =>
    rw [Nat.pow_succ] at fits
    have rest : value / 256 < 256 ^ n := Nat.div_lt_of_lt_mul (by omega)
    have low : (value % 256).toUInt8.toNat = value % 256 :=
      UInt8.toNat_ofNat_of_lt' (Nat.mod_lt _ (by decide))
    rw [toBytes, ofBytes, List.map_cons, Nat.ofDigits_cons, low]
    change value % 256 + 256 * ofBytes (toBytes n (value / 256)) = value
    rw [ih rest]
    omega

theorem number_of_holds {value : Nat} (fits : value < 256 ^ n)
    (holds : Holds m a (toBytes n value)) : number m n a = some value := by
  rw [number, block_iff.mpr ⟨toBytes_length n value, holds⟩, Option.map_some, ofBytes_toBytes fits]

/-- Reading a block at once and cutting it at its first null byte gives the same text as
   reading byte by byte. -/
theorem block_cString (whole : block m n a = some bytes) :
    bytes.takeWhile (· ≠ 0) = cString m n a := by
  induction n generalizing a bytes with
  | zero =>
    cases whole
    rfl
  | succ n ih =>
    simp only [block, Option.bind_eq_bind, Option.bind_eq_some_iff] at whole
    obtain ⟨byte, first, rest, later, same⟩ := whole
    cases same
    rw [cString, first, List.takeWhile_cons]
    by_cases null : byte = 0
    · simp [null]
    · simp only [null, ne_eq, not_false_eq_true, decide_true, if_true, if_false]
      rw [ih later]

theorem cString_of_holds (plain : 0 ∉ bytes) (short : bytes.length < n)
    (holds : Holds m a (bytes ++ [0])) : cString m n a = bytes := by
  induction bytes generalizing a n with
  | nil =>
    cases n with
    | zero => cases short
    | succ n => simp [cString, holds.1]
  | cons byte rest ih =>
    cases n with
    | zero => cases short
    | succ n =>
      rw [List.mem_cons, not_or] at plain
      rw [cString, holds.1]
      simp only [Ne.symm plain.1, if_false]
      rw [ih plain.2 (Nat.succ_lt_succ_iff.mp short) holds.2]

end ByteMemory
