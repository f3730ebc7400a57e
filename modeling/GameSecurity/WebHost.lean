import Mathlib.Algebra.Group.Int.Defs
import Mathlib.Algebra.Group.Nat.Defs
import GameSecurity.AsciiText

/- Hosts of web addresses over bytes: the four-part and eight-part addresses, how they are written
   and how they are read. A name that is not ASCII, or has a label in the ASCII coding of such a
   name, is mapped by tables that are a parameter. -/
namespace WebHost
open AsciiText

def inRadix (base : Nat) (c : UInt8) : Bool := isxdigit c && decide (digitValue c < base)

def digits (base : Nat) (s : Text) : Option Nat :=
  if s = [] then some 0 else if s.all (inRadix base) then some (value base s) else none

def number (s : Text) : Option Nat :=
  match s with
  | [] => none
  | [48] => some 0
  | 48 :: x :: rest => if x = 120 ∨ x = 88 then digits 16 rest else digits 8 (x :: rest)
  | s => digits 10 s

/-- The parts between dots; a dot at the end counts for nothing. -/
def parts (s : Text) : List Text :=
  let all := s.splitOn 46
  if all.getLast? = some [] ∧ 1 < all.length then all.dropLast else all

def endsInNumber (s : Text) : Bool :=
  match (parts s).getLast? with
  | none => false
  | some last => (decide (last ≠ []) && last.all isdigit) || (number last).isSome

def weigh : Nat → List Nat → Nat
  | _, [] => 0
  | k, n :: rest => n * 256 ^ k + weigh (k - 1) rest

/-- The last of up to four numbers stands for the bytes that are left. -/
def parse4 (s : Text) : Option UInt32 := do
  let numbers ← (parts s).mapM number
  let last ← numbers.getLast?
  let first := numbers.dropLast
  if 4 < numbers.length ∨ first.any (fun n => decide (255 < n)) ∨ 256 ^ (5 - numbers.length) ≤ last
  then none
  else some (last + weigh 3 first).toUInt32

def octet (a : UInt32) (k : Nat) : Text := numeral 10 (a.toNat / 256 ^ k % 256)

def dotted (a : UInt32) : Text := [46].intercalate [octet a 3, octet a 2, octet a 1, octet a 0]

structure IPv6 where
  pieces : List UInt16
  eight : pieces.length = 8

/-- The place and the length of the first longest run of zeros. -/
def longestRun : Nat → List UInt16 → Nat × Nat
  | i, [] => (i, 0)
  | i, p :: rest =>
    let here := ((p :: rest).takeWhile fun q => decide (q = 0)).length
    let later := longestRun (i + 1) rest
    if later.2 ≤ here then (i, here) else later

def hexes (pieces : List UInt16) : Text := [58].intercalate (pieces.map fun p => numeral 16 p.toNat)

/-- The first longest run of two zeros or more is left out. -/
def serialize6 (a : IPv6) : Text :=
  let run := longestRun 0 a.pieces
  if run.2 ≤ 1 then hexes a.pieces
  else hexes (a.pieces.take run.1) ++ text "::" ++ hexes (a.pieces.drop (run.1 + run.2))

def decimalOctet (s : Text) : Option UInt16 :=
  if s = [] ∨ s.all isdigit = false ∨ (s.head? = some 48 ∧ 1 < s.length) ∨ 255 < value 10 s then none
  else some (value 10 s).toUInt16

/-- The last two pieces, as a four-part address. -/
def embedded (s : Text) : Option (List UInt16) :=
  match (s.splitOn 46).mapM decimalOctet with
  | some [a, b, c, d] => some [a * 256 + b, c * 256 + d]
  | _ => none

/-- The zeros go where the run was left out. -/
def finish (pieces : List UInt16) : Option Nat → Option IPv6
  | none => if h : pieces.length = 8 then some ⟨pieces, h⟩ else none
  | some compress =>
    let all := pieces.take compress ++ List.replicate (8 - pieces.length) 0 ++ pieces.drop compress
    if h : all.length = 8 then some ⟨all, h⟩ else none

def hexRun (s : Text) : Text := (s.take 4).takeWhile isxdigit

/-- The pieces behind those that have been read; no more than there are characters. -/
def parsePieces : Nat → Text → List UInt16 → Option Nat → Option IPv6
  | 0, _, _, _ => none
  | _, [], pieces, compress => finish pieces compress
  | more + 1, c :: rest, pieces, compress =>
    if pieces.length = 8 then none
    else if c = 58 then
      if compress.isSome then none
      else parsePieces more rest (pieces ++ [0]) (some (pieces.length + 1))
    else
      let run := hexRun (c :: rest)
      let piece := (value 16 run).toUInt16
      match (c :: rest).drop run.length with
      | [] => finish (pieces ++ [piece]) compress
      | d :: next =>
        if d = 46 then
          if run = [] ∨ 6 < pieces.length then none
          else (embedded (c :: rest)).bind fun last => finish (pieces ++ last) compress
        else if d = 58 ∧ next ≠ [] then parsePieces more next (pieces ++ [piece]) compress
        else none

def parse6 (s : Text) : Option IPv6 :=
  match s with
  | 58 :: 58 :: rest => parsePieces (s.length + 1) rest [0] (some 1)
  | 58 :: _ => none
  | s => parsePieces (s.length + 1) s [] none

inductive Host where
  | domain (name : Text)
  | ipv4 (address : UInt32)
  | ipv6 (address : IPv6)

def Host.serialize : Host → Text
  | .domain name => name
  | .ipv4 address => dotted address
  | .ipv6 address => 91 :: (serialize6 address ++ [93])

def percentDecode : Text → Text
  | 37 :: a :: b :: rest =>
    if isxdigit a ∧ isxdigit b then (value 16 [a, b]).toUInt8 :: percentDecode rest
    else 37 :: percentDecode (a :: b :: rest)
  | c :: rest => c :: percentDecode rest
  | [] => []

/-- Characters that no name may have. -/
def forbidden (c : UInt8) : Bool := c ≤ 32 ∨ c = 127 ∨ c ∈ text "#/:<>?@[\\]^|%"

/-- `toASCII` gives the name in ASCII, where the tables have one. -/
def parseHost (toASCII : Text → Option Text) (s : Text) : Option Host :=
  match s with
  | 91 :: inner => if inner.getLast? = some 93 then (parse6 inner.dropLast).map .ipv6 else none
  | s => do
    let name ← toASCII (percentDecode s)
    if name = [] ∨ name.any forbidden then none
    else if endsInNumber name then (parse4 name).map .ipv4
    else some (.domain name)

/-- Whether a label is in the ASCII coding of what is not ASCII. -/
def codedLabel (label : Text) : Bool := (label.take 4).map tolower = text "xn--"

def coded (name : Text) : Bool := (name.splitOn 46).any codedLabel

/-- The tables only lower the case of the other names that are ASCII. -/
def LowersPlain (toASCII : Text → Option Text) : Prop :=
  ∀ name : Text, (∀ c ∈ name, c < 128) → coded name = false → toASCII name = some (name.map tolower)

def nameChar (c : UInt8) : Bool := islower c ∨ isdigit c ∨ c = 45 ∨ c = 46

def Kept (toASCII : Text → Option Text) (name : Text) : Prop :=
  (endsInNumber name = true → ∃ a, name = dotted a) ∧ (coded name = true → toASCII name = some name)

theorem numeral_isdigit (n : Nat) : ∀ c ∈ numeral 10 n, isdigit c = true := by
  have ten : 1 < 10 := by decide
  exact numeral_all ten (fun c => isdigit c = true) (fun n low => isdigit_digit low) n

theorem isdigit_radix {c : UInt8} (digit : isdigit c = true) : inRadix 10 c = true := by
  have hex : isxdigit c = true := by simp [isxdigit, digit]
  have low : digitValue c < 10 := by
    rw [digitValue, if_pos digit]
    simp only [isdigit, decide_eq_true_eq, UInt8.le_iff_toNat_le, UInt8.toNat_ofNat] at digit
    omega
  simp [inRadix, hex, low]

theorem number_numeral (n : Nat) : number (numeral 10 n) = some n := by
  rcases Nat.eq_zero_or_pos n with rfl | positive
  · rfl
  · have ten : 1 < 10 := by decide
    obtain ⟨d, s, starts, first, few⟩ := numeral_lead ten positive
    have lead : digit d ≠ 48 := by
      have each : ∀ d < 10, 0 < d → digit d ≠ 48 := by decide
      exact each d few first
    have all : (numeral 10 n).all (inRadix 10) = true :=
      List.all_eq_true.mpr fun c member => isdigit_radix (numeral_isdigit n c member)
    have plain : number (numeral 10 n) = digits 10 (numeral 10 n) := by
      rw [starts, number]
      · exact List.cons_ne_nil _ _
      · intro same
        exact lead (List.cons.inj same).1
      · intro x rest same
        exact lead (List.cons.inj same).1
    rw [plain, digits, if_neg (numeral_ne_nil 10 n), if_pos all]
    exact congrArg some (value_numeral ten (by decide) n)

theorem dot_octet (a : UInt32) (k : Nat) : 46 ∉ octet a k := by
  intro member
  exact absurd (numeral_isdigit _ 46 member) (by decide)

theorem splitOn_dotted (a : UInt32) :
    (dotted a).splitOn 46 = [octet a 3, octet a 2, octet a 1, octet a 0] := by
  refine List.splitOn_intercalate 46 ?_ (List.cons_ne_nil _ _)
  intro s member
  simp only [List.mem_cons, List.not_mem_nil, or_false] at member
  rcases member with rfl | rfl | rfl | rfl <;> exact dot_octet a _

theorem parts_dotted (a : UInt32) : parts (dotted a) = [octet a 3, octet a 2, octet a 1, octet a 0] := by
  have ends : ([octet a 3, octet a 2, octet a 1, octet a 0] : List Text).getLast? ≠ some [] := by
    intro empty
    exact numeral_ne_nil 10 _ (Option.some.inj empty)
  rw [parts, splitOn_dotted]
  exact if_neg fun both => ends both.1

theorem parse4_four {s : Text} {a b c d : Nat} (numbers : (parts s).mapM number = some [a, b, c, d])
    (low : a < 256 ∧ b < 256 ∧ c < 256 ∧ d < 256) :
    parse4 s = some (d + weigh 3 [a, b, c]).toUInt32 := by
  have inside : ¬ (4 < 4 ∨ ([a, b, c].any fun n => decide (255 < n)) = true ∨ 256 ^ 1 ≤ d) := by
    simp only [List.any_cons, List.any_nil, Bool.or_eq_true, decide_eq_true_eq, Bool.false_eq_true,
      or_false]
    omega
  rw [parse4, numbers]
  exact if_neg inside

/-- An address of four parts is read back. -/
theorem parse4_dotted (a : UInt32) : parse4 (dotted a) = some a := by
  have high := a.toNat_lt
  have numbers : (parts (dotted a)).mapM number = some [a.toNat / 256 ^ 3 % 256,
      a.toNat / 256 ^ 2 % 256, a.toNat / 256 ^ 1 % 256, a.toNat / 256 ^ 0 % 256] := by
    rw [parts_dotted]
    simp only [List.mapM_cons, List.mapM_nil, octet, number_numeral, pure, bind, Option.bind_some]
  have sum : a.toNat / 256 ^ 0 % 256 + weigh 3 [a.toNat / 256 ^ 3 % 256, a.toNat / 256 ^ 2 % 256,
      a.toNat / 256 ^ 1 % 256] = a.toNat := by
    simp only [weigh]
    omega
  have low : ∀ k, a.toNat / 256 ^ k % 256 < 256 := fun k => Nat.mod_lt _ (by decide)
  rw [parse4_four numbers ⟨low 3, low 2, low 1, low 0⟩, sum]
  exact congrArg some a.ofNat_toNat

theorem numeral_hex (n : Nat) : ∀ c ∈ numeral 16 n, isxdigit c = true :=
  numeral_all (by decide) (fun c => isxdigit c = true) (fun _ low => isxdigit_digit low) n

theorem numeral_short {n : Nat} (low : n < 65536) : (numeral 16 n).length ≤ 4 := by
  rw [numeral, List.length_map]
  exact (Nat.length_toDigits_le_iff (by decide) (by decide)).mpr low

theorem piece_value (p : UInt16) : (value 16 (numeral 16 p.toNat)).toUInt16 = p := by
  rw [value_numeral (by decide) (by decide)]
  exact p.ofNat_toNat

theorem isxdigit_colon : isxdigit 58 = false := by decide

theorem hexRun_stop {a : Text} (hex : ∀ c ∈ a, isxdigit c = true) (short : a.length ≤ 4)
    (r : Text) : hexRun (a ++ 58 :: r) = a := by
  have stop : ((58 :: r).take (4 - a.length)).takeWhile isxdigit = [] := by
    cases 4 - a.length with
    | zero => rfl
    | succ k => exact List.takeWhile_cons_of_neg (by rw [isxdigit_colon]; exact Bool.false_ne_true)
  rw [hexRun, List.take_append, List.take_of_length_le short, List.takeWhile_append_of_pos hex, stop,
    List.append_nil]

theorem hexRun_all {a : Text} (hex : ∀ c ∈ a, isxdigit c = true) (short : a.length ≤ 4) :
    hexRun a = a := by
  rw [hexRun, List.take_of_length_le short, List.takeWhile_eq_self_iff]
  exact hex

theorem hexes_cons (p q : UInt16) (rest : List UInt16) :
    hexes (p :: q :: rest) = numeral 16 p.toNat ++ 58 :: hexes (q :: rest) := by
  rw [hexes, List.map_cons, List.map_cons, List.intercalate_cons_cons, List.append_assoc]
  rfl

theorem hexes_one (p : UInt16) : hexes [p] = numeral 16 p.toNat := by
  rw [hexes, List.map_singleton, List.intercalate_singleton]

theorem hexes_length (ps : List UInt16) : ps.length ≤ (hexes ps).length := by
  induction ps with
  | nil => exact Nat.zero_le _
  | cons p rest ih =>
    have some_ := List.length_pos_iff.mpr (numeral_ne_nil 16 p.toNat)
    cases rest with
    | nil => rw [hexes_one]; exact some_
    | cons q rest =>
      rw [hexes_cons, List.length_append, List.length_cons, List.length_cons (a := 58)]
      omega

theorem hexes_front (p : UInt16) (rest : List UInt16) :
    ∃ c s, hexes (p :: rest) = c :: s ∧ isxdigit c = true := by
  obtain ⟨c, s, starts⟩ := List.exists_cons_of_ne_nil (numeral_ne_nil 16 p.toNat)
  have hex := numeral_hex p.toNat c (by rw [starts]; exact List.mem_cons_self)
  cases rest with
  | nil => exact ⟨c, s, by rw [hexes_one, starts], hex⟩
  | cons q rest => exact ⟨c, s ++ 58 :: hexes (q :: rest), by rw [hexes_cons, starts]; rfl, hex⟩

theorem parsePieces_piece (more : Nat) (p : UInt16) {next : Text} (some_ : next ≠ [])
    {acc : List UInt16} (room : acc.length < 8) (compress : Option Nat) :
    parsePieces (more + 1) (numeral 16 p.toNat ++ 58 :: next) acc compress =
      parsePieces more next (acc ++ [p]) compress := by
  have hex := numeral_hex p.toNat
  have run := hexRun_stop hex (numeral_short p.toNat_lt) next
  obtain ⟨c, s, starts⟩ := List.exists_cons_of_ne_nil (numeral_ne_nil 16 p.toNat)
  have digit_ : c ≠ 58 := by
    rintro rfl
    exact absurd (hex 58 (by rw [starts]; exact List.mem_cons_self)) (by decide)
  have behind : (numeral 16 p.toNat ++ 58 :: next).drop (numeral 16 p.toNat).length = 58 :: next :=
    List.drop_left
  have value_ := piece_value p
  rw [starts, List.cons_append] at run behind ⊢
  rw [starts] at value_
  rw [parsePieces, if_neg (by omega), if_neg digit_]
  simp only [run, behind]
  rw [if_neg (by decide), if_pos ⟨trivial, some_⟩, value_]

theorem parsePieces_last (more : Nat) (p : UInt16) {acc : List UInt16} (room : acc.length < 8)
    (compress : Option Nat) :
    parsePieces (more + 1) (numeral 16 p.toNat) acc compress = finish (acc ++ [p]) compress := by
  have hex := numeral_hex p.toNat
  have run := hexRun_all hex (numeral_short p.toNat_lt)
  obtain ⟨c, s, starts⟩ := List.exists_cons_of_ne_nil (numeral_ne_nil 16 p.toNat)
  have digit_ : c ≠ 58 := by
    rintro rfl
    exact absurd (hex 58 (by rw [starts]; exact List.mem_cons_self)) (by decide)
  have value_ := piece_value p
  rw [starts] at run value_ ⊢
  rw [parsePieces, if_neg (by omega), if_neg digit_]
  simp only [run, List.drop_length, value_]

theorem parsePieces_row (ps : List UInt16) : ∀ (fuel : Nat) (acc : List UInt16)
    (compress : Option Nat), ps.length < fuel → acc.length + ps.length ≤ 8 →
    parsePieces fuel (hexes ps) acc compress = finish (acc ++ ps) compress := by
  induction ps with
  | nil =>
    intro fuel acc compress enough _
    obtain ⟨more, rfl⟩ := Nat.exists_eq_add_of_lt enough
    rw [List.append_nil]
    rfl
  | cons p rest ih =>
    intro fuel acc compress enough room
    rw [List.length_cons] at enough room
    obtain ⟨more, rfl⟩ : ∃ more, fuel = more + 1 := ⟨fuel - 1, by omega⟩
    cases rest with
    | nil => rw [hexes_one, parsePieces_last more p (by omega)]
    | cons q rest =>
      obtain ⟨c, s, starts, -⟩ := hexes_front q rest
      have some_ : hexes (q :: rest) ≠ [] := by rw [starts]; exact List.cons_ne_nil c s
      have fits : (acc ++ [p]).length + (q :: rest).length ≤ 8 := by
        rw [List.length_append, List.length_singleton]
        omega
      rw [hexes_cons, parsePieces_piece more p some_ (by omega),
        ih more (acc ++ [p]) compress (by omega) fits, List.append_assoc, List.singleton_append]

/-- Pieces in front of the run that was left out. -/
theorem parsePieces_front (p : UInt16) (ps : List UInt16) (next : Text) :
    ∀ (more : Nat) (acc : List UInt16), acc.length + ps.length < 7 →
    parsePieces (more + ps.length + 2) (hexes (p :: ps) ++ 58 :: 58 :: next) acc none =
      parsePieces more next (acc ++ p :: ps ++ [0]) (some (acc.length + ps.length + 2)) := by
  induction ps generalizing p with
  | nil =>
    intro more acc room
    rw [List.length_nil] at room
    have fits : (acc ++ [p]).length ≠ 8 := by
      rw [List.length_append, List.length_singleton]
      omega
    have colon : parsePieces (more + 1) (58 :: next) (acc ++ [p]) none =
        parsePieces more next (acc ++ [p] ++ [0]) (some ((acc ++ [p]).length + 1)) := by
      rw [parsePieces, if_neg fits, if_pos rfl]
      rfl
    rw [List.length_append, List.length_singleton] at colon
    rw [hexes_one]
    exact (parsePieces_piece (more + 1) p (List.cons_ne_nil 58 next) (by omega) none).trans colon
  | cons q ps ih =>
    intro more acc room
    rw [List.length_cons] at room
    obtain ⟨c, s, starts, -⟩ := hexes_front q ps
    have some_ : hexes (q :: ps) ++ 58 :: 58 :: next ≠ [] := by
      rw [starts]
      exact List.cons_ne_nil c _
    have fits : (acc ++ [p]).length + ps.length < 7 := by
      rw [List.length_append, List.length_singleton]
      omega
    rw [hexes_cons, List.append_assoc, List.cons_append,
      show more + (q :: ps).length + 2 = (more + ps.length + 2) + 1 by rw [List.length_cons]; omega,
      parsePieces_piece _ p some_ (by omega), ih q more (acc ++ [p]) fits, List.append_assoc acc,
      List.singleton_append, List.length_append, List.length_singleton, List.length_cons,
      show acc.length + 1 + ps.length + 2 = acc.length + (ps.length + 1) + 2 by omega]

theorem longestRun_spec (ps : List UInt16) : ∀ i, ∃ k n, longestRun i ps = (i + k, n) ∧
    k + n ≤ ps.length ∧ ps = ps.take k ++ List.replicate n 0 ++ ps.drop (k + n) := by
  induction ps with
  | nil => exact fun i => ⟨0, 0, rfl, Nat.le_refl _, rfl⟩
  | cons p rest ih =>
    intro i
    obtain ⟨k, n, found, inside, shape⟩ := ih (i + 1)
    rw [longestRun, found]
    split
    · have starts := List.takeWhile_prefix (fun q => decide (q = 0)) (l := p :: rest)
      have zeros : (p :: rest).takeWhile (fun q => decide (q = 0)) = List.replicate
          ((p :: rest).takeWhile fun q => decide (q = 0)).length 0 := by
        refine List.eq_replicate_of_mem fun q member => ?_
        have zero := List.mem_takeWhile_imp member
        exact of_decide_eq_true zero
      refine ⟨0, _, rfl, ?_, ?_⟩
      · rw [Nat.zero_add]
        exact starts.length_le
      · rw [← zeros, List.take_zero, List.nil_append, Nat.zero_add]
        exact (List.prefix_iff_eq_append.mp starts).symm
    · refine ⟨k + 1, n, ?_, ?_, ?_⟩
      · rw [Nat.add_assoc, Nat.add_comm 1 k]
      · rw [List.length_cons]
        omega
      · rw [List.take_succ_cons, show k + 1 + n = (k + n) + 1 by omega, List.drop_succ_cons,
          List.cons_append, List.cons_append, ← shape]

theorem parse6_plain {c : UInt8} {s : Text} (other : c ≠ 58) :
    parse6 (c :: s) = parsePieces ((c :: s).length + 1) (c :: s) [] none := by
  rw [parse6]
  · intro rest same
    exact other (List.cons.inj same).1
  · intro tail same
    exact other (List.cons.inj same).1

theorem finish_zeros {front tail : List UInt16} {n : Nat} (all : front.length + n + tail.length = 8)
    (some_ : 0 < n) (a : IPv6) (shape : a.pieces = front ++ List.replicate n 0 ++ tail) :
    finish (front ++ [0] ++ tail) (some (front.length + 1)) = some a := by
  have filled : (front ++ [0] ++ tail).take (front.length + 1) ++
      List.replicate (8 - (front ++ [0] ++ tail).length) 0 ++
      (front ++ [0] ++ tail).drop (front.length + 1) = a.pieces := by
    have place : front.length + 1 = (front ++ [0]).length := by simp
    have left : 8 - (front ++ [0] ++ tail).length = n - 1 := by
      simp only [List.length_append, List.length_singleton]
      omega
    rw [left, place, List.take_left, List.drop_left, shape, List.append_assoc front,
      List.singleton_append, ← List.replicate_succ, Nat.sub_add_cancel some_]
  rw [finish]
  simp only [filled]
  exact dif_pos a.eight

/-- Every address of eight parts is read back. -/
theorem parse6_serialize6 (a : IPv6) : parse6 (serialize6 a) = some a := by
  obtain ⟨k, n, found, inside, shape⟩ := longestRun_spec a.pieces 0
  have eight := a.eight
  rw [Nat.zero_add] at found
  rw [serialize6, found]
  by_cases short : n ≤ 1
  · obtain ⟨p, rest, starts⟩ := List.exists_cons_of_length_pos (l := a.pieces) (by omega)
    obtain ⟨c, s, front, hex⟩ := hexes_front p rest
    have other : c ≠ 58 := by rintro rfl; rw [isxdigit_colon] at hex; exact Bool.false_ne_true hex
    have enough := hexes_length a.pieces
    have row := parsePieces_row a.pieces ((hexes a.pieces).length + 1) [] none (by omega) (by simp [eight])
    rw [if_pos short]
    rw [← starts] at front
    rw [front] at row ⊢
    rw [parse6_plain other, row, List.nil_append]
    exact dif_pos eight
  · rw [if_neg short]
    have sizes : (a.pieces.take k).length + n + (a.pieces.drop (k + n)).length = 8 := by
      rw [List.length_take, List.length_drop]
      omega
    have read := finish_zeros sizes (by omega) a shape
    generalize a.pieces.take k = front at read sizes ⊢
    generalize a.pieces.drop (k + n) = tail at read sizes ⊢
    have enough := hexes_length tail
    have colons : text "::" = [58, 58] := rfl
    rw [colons]
    cases front with
    | nil =>
      have fits : ([0] : List UInt16).length + tail.length ≤ 8 := by
        rw [List.length_nil] at sizes
        rw [List.length_singleton]
        omega
      have row := parsePieces_row tail ((58 :: 58 :: hexes tail).length + 1) [0] (some 1)
        (by rw [List.length_cons, List.length_cons]; omega) fits
      exact row.trans read
    | cons p ps =>
      obtain ⟨c, s, starts, hex⟩ := hexes_front p ps
      have other : c ≠ 58 := by rintro rfl; rw [isxdigit_colon] at hex; exact Bool.false_ne_true hex
      have before := hexes_length (p :: ps)
      rw [List.length_cons] at before sizes
      obtain ⟨more, fuel, behind⟩ : ∃ more, (hexes (p :: ps) ++ 58 :: 58 :: hexes tail).length + 1 =
          more + ps.length + 2 ∧ tail.length < more := by
        refine ⟨(hexes (p :: ps) ++ 58 :: 58 :: hexes tail).length - ps.length - 1, ?_, ?_⟩ <;>
          rw [List.length_append, List.length_cons, List.length_cons] <;> omega
      have few : ([] : List UInt16).length + ps.length < 7 := by
        rw [List.length_nil]
        omega
      have fits : ([] ++ p :: ps ++ [0]).length + tail.length ≤ 8 := by
        simp only [List.nil_append, List.length_append, List.length_cons, List.length_nil]
        omega
      have plain : parse6 (hexes (p :: ps) ++ 58 :: 58 :: hexes tail) =
          parsePieces ((hexes (p :: ps) ++ 58 :: 58 :: hexes tail).length + 1)
            (hexes (p :: ps) ++ 58 :: 58 :: hexes tail) [] none := by
        rw [starts, List.cons_append]
        exact parse6_plain other
      rw [List.append_assoc, List.cons_append, List.cons_append, List.nil_append, plain, fuel,
        parsePieces_front p ps _ more [] few, parsePieces_row tail more _ _ behind fits,
        show ([] : List UInt16).length + ps.length + 2 = (p :: ps).length + 1 by
          rw [List.length_nil, List.length_cons]; omega]
      exact read

theorem mem_hexes {c : UInt8} (ps : List UInt16) (member : c ∈ hexes ps) :
    isxdigit c = true ∨ c = 58 := by
  induction ps with
  | nil => exact absurd member List.not_mem_nil
  | cons p rest ih =>
    cases rest with
    | nil =>
      rw [hexes_one] at member
      exact .inl (numeral_hex p.toNat c member)
    | cons q rest =>
      rw [hexes_cons, List.mem_append, List.mem_cons] at member
      rcases member with within | colon | behind
      · exact .inl (numeral_hex p.toNat c within)
      · exact .inr colon
      · exact ih behind

theorem mem_serialize6 {a : IPv6} {c : UInt8} (member : c ∈ serialize6 a) :
    isxdigit c = true ∨ c = 58 := by
  rw [serialize6] at member
  split at member
  · exact mem_hexes _ member
  · rw [List.mem_append, List.mem_append] at member
    rcases member with (front | colons) | behind
    · exact mem_hexes _ front
    · exact .inr (List.eq_of_mem_replicate (n := 2) colons)
    · exact mem_hexes _ behind

theorem colon_serialize6 (a : IPv6) : 58 ∈ serialize6 a := by
  rw [serialize6]
  split
  · obtain ⟨p, q, rest, starts⟩ : ∃ p q rest, a.pieces = p :: q :: rest := by
      have eight := a.eight
      match a.pieces, eight with
      | p :: q :: rest, _ => exact ⟨p, q, rest, rfl⟩
    rw [starts, hexes_cons]
    exact List.mem_append_right _ List.mem_cons_self
  · exact List.mem_append_left _ (List.mem_append_right _ List.mem_cons_self)

theorem nameChar_facts {c : UInt8} (plain : nameChar c = true) :
    c < 128 ∧ c ≠ 37 ∧ c ≠ 91 ∧ tolower c = c ∧ forbidden c = false := by
  have each : ∀ c, nameChar c = true → c < 128 ∧ c ≠ 37 ∧ c ≠ 91 ∧ tolower c = c ∧
      forbidden c = false := each_byte (by decide +kernel)
  exact each c plain

theorem octet_nameChar (a : UInt32) (k : Nat) : ∀ c ∈ octet a k, nameChar c = true := by
  intro c member
  simp [nameChar, numeral_isdigit _ c member]

theorem mem_dotted {a : UInt32} {c : UInt8} (member : c ∈ dotted a) :
    c = 46 ∨ ∃ k, c ∈ octet a k := by
  simp only [dotted, List.intercalate_cons_cons, List.intercalate_singleton, List.mem_append,
    List.mem_singleton] at member
  rcases member with ((within | dot) | (within | dot) | (within | dot) | within)
  all_goals first | exact .inl dot | exact .inr ⟨_, within⟩

theorem dotted_nameChar (a : UInt32) : ∀ c ∈ dotted a, nameChar c = true := by
  intro c member
  rcases mem_dotted member with rfl | ⟨k, within⟩
  · decide
  · exact octet_nameChar a k c within

theorem dotted_uncoded (a : UInt32) : coded (dotted a) = false := by
  have plain : ∀ k, codedLabel (octet a k) = false := by
    intro k
    obtain ⟨c, s, starts⟩ := List.exists_cons_of_ne_nil (numeral_ne_nil 10 (a.toNat / 256 ^ k % 256))
    have member : c ∈ octet a k := by rw [octet, starts]; exact List.mem_cons_self
    rw [octet, starts, codedLabel, decide_eq_false_iff_not]
    intro same
    have first : tolower c = 120 := (List.cons.inj same).1
    rw [(nameChar_facts (octet_nameChar a k c member)).2.2.2.1] at first
    rw [first] at member
    exact absurd (numeral_isdigit _ 120 member) (by decide)
  rw [coded, splitOn_dotted]
  simp [plain]

theorem percentDecode_plain {s : Text} (plain : 37 ∉ s) : percentDecode s = s := by
  induction s with
  | nil => rfl
  | cons c s ih =>
    rw [List.mem_cons, not_or] at plain
    have other : c ≠ 37 := fun same => plain.1 same.symm
    rw [percentDecode, ih plain.2]
    intro a b rest same
    exact absurd same other

theorem parseHost_same {toASCII : Text → Option Text} (lowers : LowersPlain toASCII) {name : Text}
    (some_ : name ≠ []) (plain : ∀ c ∈ name, nameChar c = true) :
    (∃ host, parseHost toASCII name = some host ∧ host.serialize = name) ↔ Kept toASCII name := by
  have open_ : ∀ inner, name ≠ 91 :: inner := by
    rintro inner rfl
    exact (nameChar_facts (plain 91 List.mem_cons_self)).2.2.1 rfl
  have decoded : percentDecode name = name :=
    percentDecode_plain fun member => (nameChar_facts (plain 37 member)).2.1 rfl
  have allowed : name.any forbidden = false :=
    List.any_eq_false.mpr fun c member => by rw [(nameChar_facts (plain c member)).2.2.2.2]; simp
  have ascii : ∀ c ∈ name, c < 128 := fun c member => (nameChar_facts (plain c member)).1
  have low : name.map tolower = name :=
    (List.map_congr_left fun c member => (nameChar_facts (plain c member)).2.2.2.1).trans
      (List.map_id' name)
  rw [parseHost, decoded]
  case x => exact open_
  constructor
  · rintro ⟨host, read, same⟩
    obtain ⟨found, table, accepted⟩ := Option.bind_eq_some_iff.mp read
    split at accepted
    · exact nomatch accepted
    · split at accepted
      · obtain ⟨a, -, rfl⟩ := Option.map_eq_some_iff.mp accepted
        have four : name = dotted a := same.symm
        have uncoded : coded name ≠ true := by rw [four, dotted_uncoded]; exact Bool.false_ne_true
        exact ⟨fun _ => ⟨a, four⟩, fun known => absurd known uncoded⟩
      · rename_i ends
        obtain rfl := Option.some.inj accepted
        have kept : found = name := same
        rw [kept] at ends table
        exact ⟨fun known => absurd known ends, fun _ => table⟩
  · rintro ⟨four, tables⟩
    have table : toASCII name = some name := by
      cases known : coded name with
      | true => exact tables known
      | false => rw [lowers name ascii known, low]
    have good : ¬ (name = [] ∨ name.any forbidden = true) := by simp [some_, allowed]
    by_cases ends : endsInNumber name = true
    · obtain ⟨a, rfl⟩ := four ends
      refine ⟨.ipv4 a, ?_, rfl⟩
      rw [table]
      exact (if_neg good).trans ((if_pos ends).trans (by rw [parse4_dotted]; rfl))
    · refine ⟨.domain name, ?_, rfl⟩
      rw [table]
      exact (if_neg good).trans (if_neg ends)

end WebHost
