import GameSecurity.AsciiText
import GameSecurity.IntervalScan
import GameSecurity.PortableExecutable

/- PatternScanner: a pattern's op tree is run at every address of a module's code. -/
namespace PatternScanner
open IntervalScan PortableExecutable
open AsciiText (ok_bind)

inductive Width where
  | u1
  | u2
  | u4
  deriving DecidableEq, Repr

def Width.bytes : Width → Nat
  | .u1 => 1
  | .u2 => 2
  | .u4 => 4

inductive Op where
  | byte (value : UInt8)
  | skip (count : UInt32)
  | save
  | readU (width : Width)
  | followRel32 (sub : List Op)
  deriving Repr

/-- What the scanner must never do: look outside the image, or let a cursor wrap. -/
inductive Fault where
  | access
  | wrap
  deriving DecidableEq, Repr

def byteAt (image : Span) (cursor : Nat) : Except Fault UInt8 :=
  if cursor < image.size then .ok (image.data cursor) else .error .access

def copy (image : Span) (cursor count : Nat) : Except Fault Nat :=
  if cursor + count ≤ image.size then .ok (image.littleEndian cursor count) else .error .access

def toRva (value : Int) : Except Fault Rva :=
  if 0 ≤ value ∧ value < 2 ^ 32 then .ok value.toNat else .error .wrap

def advance (cursor count : Nat) : Except Fault Rva := toRva (cursor + count)

/-- The bits of a 32-bit word as a displacement. -/
def int32 (value : Nat) : Int := if value < 2 ^ 31 then value else value - 2 ^ 32

def target64 (cursor displacement : Nat) : Int := cursor + 4 + int32 displacement

/- The cursor and the saves after an op or a row of ops; none: they do not match. -/
mutual

def executeOp (image : Span) (op : Op) (cursor : Rva) (saves : List Rva) :
    Except Fault (Option (Rva × List Rva)) :=
  match op with
  | .byte value =>
    if cursor ≥ image.size then .ok none
    else do
      let byte ← byteAt image cursor
      if byte ≠ value then .ok none
      else do
        let cursor ← advance cursor 1
        .ok (some (cursor, saves))
  | .skip count =>
    if cursor + count.toNat > image.size then .ok none
    else do
      let cursor ← advance cursor count.toNat
      .ok (some (cursor, saves))
  | .save => .ok (some (cursor, saves ++ [cursor]))
  | .readU width =>
    if cursor + width.bytes > image.size then .ok none
    else do
      let value ← copy image cursor width.bytes
      let cursor ← advance cursor width.bytes
      .ok (some (cursor, saves ++ [value]))
  | .followRel32 sub =>
    if cursor + 4 > image.size then .ok none
    else do
      let disp ← copy image cursor 4
      if target64 cursor disp < 0 ∨ target64 cursor disp ≥ image.size then .ok none
      else do
        let target ← toRva (target64 cursor disp)
        match ← execute image sub target saves with
        | none => .ok none
        | some (_, saves) => do
          let cursor ← advance cursor 4
          .ok (some (cursor, saves))

def execute (image : Span) (ops : List Op) (cursor : Rva) (saves : List Rva) :
    Except Fault (Option (Rva × List Rva)) :=
  match ops with
  | [] => .ok (some (cursor, saves))
  | op :: rest => do
    match ← executeOp image op cursor saves with
    | none => .ok none
    | some (cursor, saves) => execute image rest cursor saves

end

def firstLiteral : List Op → Option UInt8
  | [] => none
  | .byte value :: _ => some value
  | .save :: rest => firstLiteral rest
  | .skip _ :: _ | .readU _ :: _ | .followRel32 _ :: _ => none

/-- The first byte is known and is not the one at the address. -/
def skips (image : Span) (literal : Option UInt8) (start : Rva) : Except Fault Bool :=
  match literal with
  | none => .ok false
  | some literal => do
    let byte ← byteAt image start
    .ok (decide (byte ≠ literal))

/-- The loop over the start addresses; `remaining` of them are left. -/
def findFrom (image : Span) (ops : List Op) (literal : Option UInt8) :
    Nat → Rva → Option (List Rva) → Except Fault (Option (List Rva))
  | 0, _, found => .ok found
  | remaining + 1, start, found => do
    if ← skips image literal start then
      let next ← advance start 1
      findFrom image ops literal remaining next found
    else
      match ← execute image ops start [start] with
      | none =>
        let next ← advance start 1
        findFrom image ops literal remaining next found
      | some (_, saves) =>
        if found.isSome then .ok none
        else do
          let next ← advance start 1
          findFrom image ops literal remaining next (some saves)

def findUniqueCode (pe : PeImage) (ops : List Op) : Except Fault (Option (List Rva)) :=
  if pe.codeRange.1 ≥ pe.codeRange.2 ∨ pe.codeRange.2 > pe.image.size then .ok none
  else
    findFrom pe.image ops (firstLiteral ops) (pe.codeRange.2 - pe.codeRange.1) pe.codeRange.1 none

/- The plain meaning of an op and of a row of ops: they lead from one address to another and
   save these values. -/
mutual

inductive OpMatches (image : Span) : Op → Nat → Nat → List Nat → Prop
  | byte {value cursor} (inside : cursor < image.size) (same : image.data cursor = value) :
      OpMatches image (.byte value) cursor (cursor + 1) []
  | skip {count cursor} (inside : cursor + count.toNat ≤ image.size) :
      OpMatches image (.skip count) cursor (cursor + count.toNat) []
  | save {cursor} : OpMatches image .save cursor cursor [cursor]
  | readU {width cursor} (inside : cursor + width.bytes ≤ image.size) :
      OpMatches image (.readU width) cursor (cursor + width.bytes)
        [image.littleEndian cursor width.bytes]
  | followRel32 {sub saves} {cursor target after : Nat} (inside : cursor + 4 ≤ image.size)
      (leads : (target : Int) = cursor + 4 + int32 (image.littleEndian cursor 4))
      (within : target < image.size) (there : Matches image sub target after saves) :
      OpMatches image (.followRel32 sub) cursor (cursor + 4) saves

inductive Matches (image : Span) : List Op → Nat → Nat → List Nat → Prop
  | nil {cursor} : Matches image [] cursor cursor []
  | cons {op rest cursor next after first others}
      (head : OpMatches image op cursor next first)
      (tail : Matches image rest next after others) :
      Matches image (op :: rest) cursor after (first ++ others)

end

variable {image : Span}

theorem byteAt_inside {cursor : Nat} (inside : cursor < image.size) :
    byteAt image cursor = .ok (image.data cursor) := if_pos inside

theorem copy_inside {cursor count : Nat} (inside : cursor + count ≤ image.size) :
    copy image cursor count = .ok (image.littleEndian cursor count) := if_pos inside

theorem toRva_inside {value : Nat} (small : image.size < 2 ^ 32) (inside : value ≤ image.size) :
    toRva value = .ok value := by
  unfold toRva
  rw [if_pos (by omega), Int.toNat_natCast]

theorem advance_inside {cursor count : Nat} (small : image.size < 2 ^ 32)
    (inside : cursor + count ≤ image.size) : advance cursor count = .ok (cursor + count) :=
  toRva_inside small inside

/-- A run has no fault and gives what the meaning gives, behind the saves it began with. -/
def Agrees (run : Except Fault (Option (Rva × List Rva))) (saves : List Rva)
    (meaning : Nat → List Nat → Prop) : Prop :=
  ∃ result, run = .ok result ∧ ∀ cursor out,
    result = some (cursor, out) ↔ ∃ more, out = saves ++ more ∧ meaning cursor more

theorem agrees_none {saves : List Rva} {meaning : Nat → List Nat → Prop}
    (never : ∀ cursor more, ¬ meaning cursor more) : Agrees (.ok none) saves meaning := by
  refine ⟨none, rfl, fun cursor out => ?_⟩
  constructor
  · intro impossible
    cases impossible
  · rintro ⟨more, -, holds⟩
    exact absurd holds (never cursor more)

theorem agrees_some {saves more out : List Rva} {cursor : Nat} {meaning : Nat → List Nat → Prop}
    (behind : out = saves ++ more) (holds : meaning cursor more)
    (only : ∀ other others, meaning other others → other = cursor ∧ others = more) :
    Agrees (.ok (some (cursor, out))) saves meaning := by
  subst behind
  refine ⟨_, rfl, fun other out => ?_⟩
  constructor
  · intro same
    cases same
    exact ⟨more, rfl, holds⟩
  · rintro ⟨others, rfl, meant⟩
    obtain ⟨rfl, rfl⟩ := only other others meant
    rfl

theorem opMatches_le {op : Op} {cursor next : Nat} {saves : List Nat}
    (matched : OpMatches image op cursor next saves) (inside : cursor ≤ image.size) :
    next ≤ image.size := by
  cases matched with
  | byte inside' same => omega
  | skip inside' => exact inside'
  | save => exact inside
  | readU inside' => exact inside'
  | followRel32 inside' leads within there => exact inside'

theorem byte_agrees (small : image.size < 2 ^ 32) (value : UInt8) (cursor : Nat)
    (saves : List Rva) :
    Agrees (executeOp image (.byte value) cursor saves) saves
      (OpMatches image (.byte value) cursor) := by
  rw [executeOp]
  by_cases outside : cursor ≥ image.size
  · rw [if_pos outside]
    apply agrees_none
    intro next more matched
    cases matched
    omega
  · rw [if_neg outside, byteAt_inside (by omega), ok_bind]
    by_cases other : image.data cursor ≠ value
    · rw [if_pos other]
      apply agrees_none
      intro next more matched
      cases matched with
      | byte inside same => exact other same
    · rw [if_neg other, advance_inside small (by omega), ok_bind]
      apply agrees_some (List.append_nil saves).symm
      · exact .byte (by omega) (not_not.mp other)
      · intro next more matched
        cases matched
        exact ⟨rfl, rfl⟩

theorem skip_agrees (small : image.size < 2 ^ 32) (count : UInt32) (cursor : Nat)
    (saves : List Rva) :
    Agrees (executeOp image (.skip count) cursor saves) saves
      (OpMatches image (.skip count) cursor) := by
  rw [executeOp]
  by_cases outside : cursor + count.toNat > image.size
  · rw [if_pos outside]
    apply agrees_none
    intro next more matched
    cases matched
    omega
  · rw [if_neg outside, advance_inside small (by omega), ok_bind]
    apply agrees_some (List.append_nil saves).symm
    · exact .skip (by omega)
    · intro next more matched
      cases matched
      exact ⟨rfl, rfl⟩

theorem readU_agrees (small : image.size < 2 ^ 32) (width : Width) (cursor : Nat)
    (saves : List Rva) :
    Agrees (executeOp image (.readU width) cursor saves) saves
      (OpMatches image (.readU width) cursor) := by
  rw [executeOp]
  by_cases outside : cursor + width.bytes > image.size
  · rw [if_pos outside]
    apply agrees_none
    intro next more matched
    cases matched
    omega
  · rw [if_neg outside, copy_inside (by omega), ok_bind, advance_inside small (by omega), ok_bind]
    apply agrees_some rfl
    · exact .readU (by omega)
    · intro next more matched
      cases matched
      exact ⟨rfl, rfl⟩

theorem followRel32_agrees (small : image.size < 2 ^ 32) {sub : List Op} (cursor : Nat)
    (saves : List Rva) (there : ∀ target, target ≤ image.size →
      Agrees (execute image sub target saves) saves (Matches image sub target)) :
    Agrees (executeOp image (.followRel32 sub) cursor saves) saves
      (OpMatches image (.followRel32 sub) cursor) := by
  rw [executeOp]
  by_cases outside : cursor + 4 > image.size
  · rw [if_pos outside]
    apply agrees_none
    intro next more matched
    cases matched
    omega
  · rw [if_neg outside, copy_inside (by omega), ok_bind]
    by_cases away : target64 cursor (image.littleEndian cursor 4) < 0 ∨
        target64 cursor (image.littleEndian cursor 4) ≥ image.size
    · rw [if_pos away]
      apply agrees_none
      intro next more matched
      cases matched with
      | followRel32 inside leads within there =>
        unfold target64 at away
        omega
    · rw [if_neg away]
      obtain ⟨target, leads⟩ := Int.eq_ofNat_of_zero_le (show
        0 ≤ target64 cursor (image.littleEndian cursor 4) by omega)
      rw [leads] at away ⊢
      have within : target < image.size := by omega
      rw [toRva_inside small (Nat.le_of_lt within), ok_bind]
      have same {other : Nat} (elsewhere : (other : Int) =
          cursor + 4 + int32 (image.littleEndian cursor 4)) : other = target := by
        unfold target64 at leads
        omega
      obtain ⟨result, ran, agrees⟩ := there target (Nat.le_of_lt within)
      rw [ran, ok_bind]
      cases result with
      | none =>
        apply agrees_none
        intro next more matched
        cases matched with
        | followRel32 inside elsewhere within' subMatched =>
          rw [same elsewhere] at subMatched
          have impossible := (agrees _ _).mpr ⟨more, rfl, subMatched⟩
          cases impossible
      | some found =>
        obtain ⟨after, out⟩ := found
        obtain ⟨more, behind, subMatched⟩ := (agrees after out).mp rfl
        simp only
        rw [advance_inside small (by omega), ok_bind]
        apply agrees_some behind
        · exact .followRel32 (by omega) leads.symm within subMatched
        · intro next others matched
          cases matched with
          | followRel32 inside elsewhere within' otherMatched =>
            rw [same elsewhere] at otherMatched
            have again := (agrees _ _).mpr ⟨others, rfl, otherMatched⟩
            cases again
            exact ⟨rfl, List.append_cancel_left behind⟩

theorem cons_agrees {op : Op} {rest : List Op} {cursor : Nat} {saves : List Rva}
    (inside : cursor ≤ image.size)
    (head : Agrees (executeOp image op cursor saves) saves (OpMatches image op cursor))
    (tail : ∀ next saves, next ≤ image.size →
      Agrees (execute image rest next saves) saves (Matches image rest next)) :
    Agrees (execute image (op :: rest) cursor saves) saves (Matches image (op :: rest) cursor) := by
  obtain ⟨result, ran, agrees⟩ := head
  rw [execute, ran, ok_bind]
  cases result with
  | none =>
    apply agrees_none
    intro next more matched
    cases matched with
    | cons first others =>
      have impossible := (agrees _ _).mpr ⟨_, rfl, first⟩
      cases impossible
  | some found =>
    obtain ⟨next, out⟩ := found
    obtain ⟨first, rfl, opMatched⟩ := (agrees next out).mp rfl
    obtain ⟨last, ran', agrees'⟩ := tail next (saves ++ first) (opMatches_le opMatched inside)
    refine ⟨last, ran', fun after out => ?_⟩
    rw [agrees' after out]
    constructor
    · rintro ⟨others, rfl, restMatched⟩
      exact ⟨first ++ others, List.append_assoc _ _ _, .cons opMatched restMatched⟩
    · rintro ⟨more, rfl, matched⟩
      cases matched with
      | cons head tail =>
        have again := (agrees _ _).mpr ⟨_, rfl, head⟩
        obtain ⟨place, values⟩ := Prod.mk.inj (Option.some.inj again)
        subst place
        rw [← List.append_cancel_left values]
        exact ⟨_, (List.append_assoc _ _ _).symm, tail⟩

mutual

theorem executeOp_agrees (small : image.size < 2 ^ 32) (op : Op) (cursor : Nat)
    (saves : List Rva) :
    Agrees (executeOp image op cursor saves) saves (OpMatches image op cursor) := by
  match op with
  | .byte value => exact byte_agrees small value cursor saves
  | .skip count => exact skip_agrees small count cursor saves
  | .save =>
    rw [executeOp]
    apply agrees_some rfl .save
    intro next more matched
    cases matched
    exact ⟨rfl, rfl⟩
  | .readU width => exact readU_agrees small width cursor saves
  | .followRel32 sub =>
    apply followRel32_agrees small
    intro target inside
    exact execute_agrees small sub target saves inside

theorem execute_agrees (small : image.size < 2 ^ 32) (ops : List Op) (cursor : Nat)
    (saves : List Rva) (inside : cursor ≤ image.size) :
    Agrees (execute image ops cursor saves) saves (Matches image ops cursor) := by
  match ops with
  | [] =>
    rw [execute]
    apply agrees_some (List.append_nil saves).symm .nil
    intro next more matched
    cases matched
    exact ⟨rfl, rfl⟩
  | op :: rest =>
    apply cons_agrees inside (executeOp_agrees small op cursor saves)
    intro next saves inside
    exact execute_agrees small rest next saves inside

end

def hit (image : Span) (ops : List Op) (start : Nat) : Option (List Rva) :=
  match execute image ops start [start] with
  | .ok (some (_, saves)) => some saves
  | _ => none

theorem execute_hit (small : image.size < 2 ^ 32) (ops : List Op) {start : Nat}
    (inside : start ≤ image.size) :
    ∃ result, execute image ops start [start] = .ok result ∧
      hit image ops start = result.map Prod.snd := by
  obtain ⟨result, ran, -⟩ := execute_agrees small ops start [start] inside
  refine ⟨result, ran, ?_⟩
  rw [hit, ran]
  cases result <;> rfl

theorem hit_iff (small : image.size < 2 ^ 32) {ops : List Op} {start : Nat}
    (inside : start ≤ image.size) {saves : List Rva} : hit image ops start = some saves ↔
      ∃ after more, Matches image ops start after more ∧ saves = start :: more := by
  obtain ⟨result, ran, agrees⟩ := execute_agrees small ops start [start] inside
  rw [hit, ran]
  constructor
  · intro found
    cases result with
    | none => cases found
    | some last =>
      cases found
      obtain ⟨more, behind, matched⟩ := (agrees last.1 last.2).mp rfl
      exact ⟨last.1, more, matched, behind⟩
  · rintro ⟨after, more, matched, rfl⟩
    rw [(agrees after (start :: more)).mpr ⟨more, rfl, matched⟩]

theorem firstLiteral_matches {ops : List Op} {literal : UInt8} {start after : Nat}
    {saves : List Nat} (known : firstLiteral ops = some literal)
    (matched : Matches image ops start after saves) : image.data start = literal := by
  induction ops generalizing start after saves with
  | nil => cases known
  | cons op rest ih =>
    cases matched with
    | cons head tail =>
      cases head with
      | byte inside same =>
        cases known
        exact same
      | save => exact ih known tail
      | skip inside => cases known
      | readU inside => cases known
      | followRel32 inside leads within there => cases known

/-- The shortcut leaves out addresses without a match only. -/
theorem skips_miss (small : image.size < 2 ^ 32) {ops : List Op} {start : Nat}
    (inside : start < image.size) :
    ∃ skipped, skips image (firstLiteral ops) start = .ok skipped ∧
      (skipped = true → hit image ops start = none) := by
  unfold skips
  cases known : firstLiteral ops with
  | none => exact ⟨false, rfl, fun impossible => by cases impossible⟩
  | some literal =>
    simp only
    rw [byteAt_inside inside, ok_bind]
    refine ⟨_, rfl, fun other => ?_⟩
    rw [Option.eq_none_iff_forall_ne_some]
    intro saves found
    obtain ⟨after, more, matched, -⟩ := (hit_iff small (Nat.le_of_lt inside)).mp found
    exact of_decide_eq_true other (firstLiteral_matches known matched)

/-- The loop gives the one match of the addresses that are left, with the one found before. -/
theorem findFrom_eq (small : image.size < 2 ^ 32) (ops : List Op) (remaining : Nat) :
    ∀ {start : Nat} {found : Option (List Rva)}, start + remaining ≤ image.size →
      findFrom image ops (firstLiteral ops) remaining start found =
        .ok (sole (found.toList ++ gather (hit image ops) start (start + remaining))) := by
  induction remaining with
  | zero =>
    intro start found within
    rw [findFrom, Nat.add_zero, gather_empty (Nat.le_refl start), List.append_nil]
    cases found <;> rfl
  | succ remaining ih =>
    intro start found within
    have later : start + 1 + remaining = start + (remaining + 1) := by omega
    obtain ⟨skipped, shortcut, miss⟩ := skips_miss small (show start < image.size by omega)
    obtain ⟨result, ran, hits⟩ := execute_hit small ops (show start ≤ image.size by omega)
    rw [findFrom, shortcut, ok_bind, advance_inside small (by omega), gather_cons (by omega)]
    cases skipped with
    | true =>
      rw [if_pos rfl, ok_bind, ih (by omega), miss rfl, later]
      rfl
    | false =>
      rw [if_neg (by decide), ran, ok_bind, hits]
      cases result with
      | none =>
        simp only [ok_bind]
        rw [ih (by omega), later]
        rfl
      | some last =>
        cases found with
        | none =>
          simp only [Option.isSome_none, Bool.false_eq_true, if_false, ok_bind]
          rw [ih (by omega), later]
          rfl
        | some first => rfl

def InCode (pe : PeImage) (start : Nat) : Prop :=
  pe.codeRange.1 ≤ start ∧ start < pe.codeRange.2

theorem findUniqueCode_eq {pe : PeImage} (small : pe.image.size < 2 ^ 32)
    (inside : pe.codeRange.2 ≤ pe.image.size) (ops : List Op) :
    findUniqueCode pe ops =
      .ok (sole (gather (hit pe.image ops) pe.codeRange.1 pe.codeRange.2)) := by
  unfold findUniqueCode
  by_cases empty : pe.codeRange.1 ≥ pe.codeRange.2
  · rw [if_pos (Or.inl empty), gather_empty empty]
    rfl
  · have last : pe.codeRange.1 + (pe.codeRange.2 - pe.codeRange.1) = pe.codeRange.2 :=
      Nat.add_sub_of_le (Nat.le_of_lt (Nat.lt_of_not_le empty))
    rw [if_neg (not_or.mpr ⟨empty, Nat.not_lt.mpr inside⟩),
      findFrom_eq small ops _ (by rwa [last]), last]
    rfl

/-- The scan of a module has no fault, and finds a match if and only if the pattern means one
   address of the code. -/
theorem find_unique_code_exact (bytes : Span) (small : bytes.size < 2 ^ 32) (ops : List Op) :
    ∃ result, findUniqueCode (PeImage.ofBytes bytes) ops = .ok result ∧
      ∀ saves, result = some saves ↔ ∃ start after more,
        InCode (PeImage.ofBytes bytes) start ∧ Matches bytes ops start after more ∧
        saves = start :: more ∧
        ∀ other, InCode (PeImage.ofBytes bytes) other →
          (∃ after more, Matches bytes ops other after more) → other = start := by
  obtain ⟨image, inside⟩ := ofBytes_codeRange_le bytes
  have scan : findUniqueCode (PeImage.ofBytes bytes) ops = _ :=
    findUniqueCode_eq (by rwa [image]) (by rwa [image]) ops
  rw [image] at scan
  refine ⟨_, scan, fun saves => ?_⟩
  rw [sole_gather_iff]
  have hits {start : Nat} (here : InCode (PeImage.ofBytes bytes) start) (saves : List Nat) :
      hit bytes ops start = some saves ↔
        ∃ after more, Matches bytes ops start after more ∧ saves = start :: more :=
    hit_iff small (Nat.le_of_lt (Nat.lt_of_lt_of_le here.2 inside))
  constructor
  · rintro ⟨start, low, high, value, only⟩
    obtain ⟨after, more, matched, behind⟩ := (hits ⟨low, high⟩ saves).mp value
    refine ⟨start, after, more, ⟨low, high⟩, matched, behind, ?_⟩
    rintro other there ⟨after', more', matched'⟩
    apply only other there.1 there.2
    rw [(hits there _).mpr ⟨after', more', matched', rfl⟩]
    rfl
  · rintro ⟨start, after, more, here, matched, behind, only⟩
    refine ⟨start, here.1, here.2, (hits here saves).mpr ⟨after, more, matched, behind⟩, ?_⟩
    intro other low high found
    obtain ⟨value, there⟩ := Option.isSome_iff_exists.mp found
    obtain ⟨after', more', matched', -⟩ := (hits ⟨low, high⟩ value).mp there
    exact only other ⟨low, high⟩ ⟨after', more', matched'⟩

/-- The smallest module with headers: no section, so all of it counts as code. -/
def headersOnly : Span where
  size := 0x100
  data
    | 0x00 => 0x4D
    | 0x01 => 0x5A
    | 0x3C => 0x40
    | 0x40 => 0x50
    | 0x41 => 0x45
    | 0x58 => 0x0B
    | 0x59 => 0x02
    | _ => 0

theorem find_unique_code_exact_headers :
    let ops : List Op := [.byte 0x50, .save, .byte 0x45]
    (PeImage.ofBytes headersOnly).valid = true ∧
      ∃ result, findUniqueCode (PeImage.ofBytes headersOnly) ops = .ok result ∧
        ∀ saves, result = some saves ↔ ∃ start after more,
          InCode (PeImage.ofBytes headersOnly) start ∧ Matches headersOnly ops start after more ∧
          saves = start :: more ∧
          ∀ other, InCode (PeImage.ofBytes headersOnly) other →
            (∃ after more, Matches headersOnly ops other after more) → other = start := by
  intro ops
  exact ⟨by decide, find_unique_code_exact headersOnly (by decide) ops⟩

end PatternScanner
