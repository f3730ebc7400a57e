import GameSecurity.AsciiText
import GameSecurity.PortableExecutable

/- pe.cpp with its accesses to the image: the constructor once more, now with a fault for
   every byte outside, and the lookup of an export. -/
namespace PortableExports
open AsciiText PortableExecutable

/-- A byte outside the image is touched. -/
inductive Fault where
  | outside
  deriving DecidableEq, Repr

def loadByte (image : Span) (off : Nat) : Except Fault UInt8 :=
  if off < image.size then .ok (image.data off) else .error .outside

def load (image : Span) (off count : Nat) : Except Fault Nat :=
  if off + count ≤ image.size then .ok (image.littleEndian off count) else .error .outside

/-- read_at: the copy is made where it fits, and what it gives is made of its bytes. -/
def loadFitting {α : Type} (image : Span) (off count : Nat) (value : Option α) :
    Except Fault (Option α) :=
  if image.fits off count then do
    let _ ← load image off count
    .ok value
  else .ok none

def loadAt (image : Span) (off count : Nat) : Except Fault (Option Nat) :=
  loadFitting image off count (readAt image off count)

def loadOptionalHeader (image : Span) (opt : Nat) : Except Fault (Option (Nat × Nat)) := do
  match ← loadAt image opt 2 with
  | none => .ok none
  | some magic =>
    if magic = 0x20B then do
      let base ← loadAt image (opt + 24) 8
      .ok (base.map fun base => (base, opt + 112))
    else if magic = 0x10B then do
      let base ← loadAt image (opt + 28) 4
      .ok (base.map fun base => (base, opt + 96))
    else .ok none

def loadSections (image : Span) : Nat → Nat → Rva × Rva → Except Fault (Option (Rva × Rva))
  | 0, _, range => .ok (some range)
  | remaining + 1, off, range => do
    match ← loadFitting image off sizeofSectionHeader (readSectionHeader image off) with
    | none => .ok none
    | some sh =>
      loadSections image remaining (off + sizeofSectionHeader) (addSection image sh range)

/-- The first test of the constructor, which stops at the first byte that differs. -/
def lacksMark (image : Span) : Except Fault Bool :=
  if image.size < 0x100 then .ok true
  else do
    if (← loadByte image 0) ≠ 0x4D then .ok true
    else .ok (decide ((← loadByte image 1) ≠ 0x5A))

def construct (image : Span) : Except Fault PeImage := do
  let pe : PeImage := { image }
  if ← lacksMark image then .ok pe
  else
    match ← loadAt image 0x3C 4 with
    | none => .ok pe
    | some ntOff =>
      let fileHeader := (ntOff + 4) % 2 ^ 32
      let opt := fileHeader + sizeofFileHeader
      if opt > image.size then .ok pe
      else if (← loadAt image ntOff 4) ≠ some 0x00004550 then .ok pe
      else
        match ← loadFitting image fileHeader sizeofFileHeader (readFileHeader image fileHeader) with
        | none => .ok pe
        | some fh =>
          if opt + fh.sizeOfOptionalHeader > image.size then .ok pe
          else
            match ← loadOptionalHeader image opt with
            | none => .ok pe
            | some (imageBase, dataDirOff) =>
              let pe := { pe with imageBase }
              match ← loadAt image dataDirOff 4 with
              | none => .ok pe
              | some exportRva =>
                let pe := { pe with exportRva }
                match ← loadAt image (dataDirOff + 4) 4 with
                | none => .ok pe
                | some exportSize =>
                  let pe := { pe with exportSize }
                  match ← loadSections image fh.numberOfSections (opt + fh.sizeOfOptionalHeader)
                      (0, 0) with
                  | none => .ok pe
                  | some range => .ok { pe with codeRange := chooseRange image range, valid := true }

structure ExportDirectory where
  numberOfFunctions : Nat
  numberOfNames : Nat
  addressOfFunctions : Nat
  addressOfNames : Nat
  addressOfNameOrdinals : Nat
  deriving DecidableEq, Repr

def sizeofExportDirectory : Nat := 40

def readExportDirectory (image : Span) (off : Nat) : Option ExportDirectory :=
  if image.fits off sizeofExportDirectory then
    some ⟨image.littleEndian (off + 20) 4, image.littleEndian (off + 24) 4,
      image.littleEndian (off + 28) 4, image.littleEndian (off + 32) 4,
      image.littleEndian (off + 36) 4⟩
  else none

/-- memchr and the bytes before the zero that it finds, in `left` bytes. -/
def cstrFrom (image : Span) : Nat → Nat → Except Fault (Option Text)
  | 0, _ => .ok none
  | left + 1, off => do
    let c ← loadByte image off
    if c = 0 then .ok (some [])
    else do
      let rest ← cstrFrom image left (off + 1)
      .ok (rest.map (c :: ·))

/-- A string that does not end inside the image is taken as empty. -/
def cstrAt (image : Span) (off : Nat) : Except Fault Text :=
  if off ≥ image.size then .ok []
  else do
    let found ← cstrFrom image (image.size - off) off
    .ok (found.getD [])

/-- What an entry that has the wanted name leads to; `i * 2` is a 32-bit product. -/
def resolve (pe : PeImage) (dir : ExportDirectory) (i : Nat) : Except Fault (Option Rva) := do
  match ← loadAt pe.image (dir.addressOfNameOrdinals + i * 2 % 2 ^ 32) 2 with
  | none => .ok none
  | some ordinal =>
    if ordinal ≥ dir.numberOfFunctions then .ok none
    else
      match ← loadAt pe.image (dir.addressOfFunctions + ordinal * 4) 4 with
      | none => .ok none
      | some functionRva =>
        if functionRva ≥ pe.exportRva ∧ functionRva < pe.exportRva + pe.exportSize then .ok none
        else .ok (some functionRva)

/-- The loop over the names, of which `left` are left; `i * 4` is a 32-bit product. -/
def searchNames (pe : PeImage) (dir : ExportDirectory) (wanted : Text) :
    Nat → Nat → Except Fault (Option Rva)
  | 0, _ => .ok none
  | left + 1, i => do
    match ← loadAt pe.image (dir.addressOfNames + i * 4 % 2 ^ 32) 4 with
    | none => .ok none
    | some nameRva =>
      if (← cstrAt pe.image nameRva) ≠ wanted then searchNames pe dir wanted left (i + 1)
      else resolve pe dir i

def exportRva (pe : PeImage) (wanted : Text) : Except Fault (Option Rva) := do
  if pe.valid = false ∨ pe.exportRva = 0 ∨ pe.exportRva ≥ pe.image.size then .ok none
  else
    match ← loadFitting pe.image pe.exportRva sizeofExportDirectory
        (readExportDirectory pe.image pe.exportRva) with
    | none => .ok none
    | some dir => searchNames pe dir wanted dir.numberOfNames 0

def NameAt (image : Span) : Nat → Text → Prop
  | off, [] => off < image.size ∧ image.data off = 0
  | off, c :: rest => off < image.size ∧ c ≠ 0 ∧ image.data off = c ∧ NameAt image (off + 1) rest

def Names (image : Span) (dir : ExportDirectory) (wanted : Text) (i : Nat) : Prop :=
  ∃ nameRva, readAt image (dir.addressOfNames + 4 * i) 4 = some nameRva ∧
    NameAt image nameRva wanted

def Differs (image : Span) (dir : ExportDirectory) (wanted : Text) (i : Nat) : Prop :=
  ∃ nameRva, readAt image (dir.addressOfNames + 4 * i) 4 = some nameRva ∧
    ¬ NameAt image nameRva wanted

structure Place where
  start : Rva
  size : Nat

/-- The entry's ordinal and function slots lie in the image, its ordinal is one of the
   functions and the function is not forwarded. -/
def LeadsTo (image : Span) (place : Place) (dir : ExportDirectory) (i rva : Nat) : Prop :=
  ∃ ordinal, readAt image (dir.addressOfNameOrdinals + 2 * i) 2 = some ordinal ∧
    ordinal < dir.numberOfFunctions ∧
    readAt image (dir.addressOfFunctions + 4 * ordinal) 4 = some rva ∧
    ¬ (place.start ≤ rva ∧ rva < place.start + place.size)

/-- The export of a name in the directory at a place, as a lookup in unbounded numbers would
   find it. -/
def ExportedAt (image : Span) (place : Place) (wanted : Text) (rva : Nat) : Prop :=
  place.start ≠ 0 ∧
    ∃ dir, readExportDirectory image place.start = some dir ∧
      ∃ i, i < dir.numberOfNames ∧ (∀ j, j < i → Differs image dir wanted j) ∧
        Names image dir wanted i ∧ LeadsTo image place dir i rva

/-- The same where the headers of the image say that the directory is. -/
def Exported (image : Span) (wanted : Text) (rva : Nat) : Prop :=
  WellFormed image ∧ ExportedAt image ⟨exportTable image, exportTableSize image⟩ wanted rva

theorem loadByte_inside {image : Span} {off : Nat} (inside : off < image.size) :
    loadByte image off = .ok (image.data off) := if_pos inside

theorem loadFitting_eq {α : Type} {image : Span} {off count : Nat} {value : Option α}
    (guarded : image.fits off count = false → value = none) :
    loadFitting image off count value = .ok value := by
  unfold loadFitting
  split
  · rename_i fits
    rw [load, if_pos (fits_iff.mp fits), ok_bind]
  · rename_i outside
    rw [guarded (by simpa using outside)]

@[simp] theorem loadAt_eq (image : Span) (off count : Nat) :
    loadAt image off count = .ok (readAt image off count) :=
  loadFitting_eq fun outside => by simp [readAt, outside]

@[simp] theorem loadFileHeader_eq (image : Span) (off : Nat) :
    loadFitting image off sizeofFileHeader (readFileHeader image off) =
      .ok (readFileHeader image off) :=
  loadFitting_eq fun outside => by simp [readFileHeader, outside]

@[simp] theorem loadSectionHeader_eq (image : Span) (off : Nat) :
    loadFitting image off sizeofSectionHeader (readSectionHeader image off) =
      .ok (readSectionHeader image off) :=
  loadFitting_eq fun outside => by simp [readSectionHeader, outside]

@[simp] theorem loadExportDirectory_eq (image : Span) (off : Nat) :
    loadFitting image off sizeofExportDirectory (readExportDirectory image off) =
      .ok (readExportDirectory image off) :=
  loadFitting_eq fun outside => by simp [readExportDirectory, outside]

@[simp] theorem loadOptionalHeader_eq (image : Span) (opt : Nat) :
    loadOptionalHeader image opt = .ok (readOptionalHeader image opt) := by
  simp only [loadOptionalHeader, readOptionalHeader, loadAt_eq, ok_bind]
  cases readAt image opt 2 with
  | none => rfl
  | some magic =>
    simp only
    split
    · rfl
    · split <;> rfl

@[simp] theorem loadSections_eq (image : Span) (remaining off : Nat) (range : Rva × Rva) :
    loadSections image remaining off range = .ok (scanSections image remaining off range) := by
  induction remaining generalizing off range with
  | zero => rfl
  | succ remaining ih =>
    simp only [loadSections, scanSections, loadSectionHeader_eq, ok_bind]
    cases readSectionHeader image off with
    | none => rfl
    | some sh => exact ih _ _

@[simp] theorem lacksMark_eq (image : Span) :
    lacksMark image =
      .ok (decide (image.size < 0x100 ∨ image.data 0 ≠ 0x4D ∨ image.data 1 ≠ 0x5A)) := by
  unfold lacksMark
  split
  · rename_i small
    simp [small]
  · rename_i big
    rw [loadByte_inside (by omega), ok_bind, loadByte_inside (by omega), ok_bind]
    split
    · rename_i first
      simp [first]
    · rename_i first
      simp only [ne_eq, not_not] at first
      simp [big, first]

theorem construct_eq (image : Span) : construct image = .ok (PeImage.ofBytes image) := by
  simp only [construct, PeImage.ofBytes, lacksMark_eq, loadAt_eq, loadFileHeader_eq,
    loadOptionalHeader_eq, loadSections_eq, ok_bind, decide_eq_true_eq]
  split
  · rfl
  · cases readAt image 0x3C 4 with
    | none => rfl
    | some ntOff =>
      simp only
      by_cases past : (ntOff + 4) % 2 ^ 32 + sizeofFileHeader > image.size
      · rw [if_pos past, if_pos (Or.inl past)]
      · by_cases signed : readAt image ntOff 4 = some 0x00004550
        · rw [if_neg past, if_neg (not_not.mpr signed),
            if_neg (not_or.mpr ⟨past, not_not.mpr signed⟩)]
          cases readFileHeader image ((ntOff + 4) % 2 ^ 32) with
          | none => rfl
          | some fh =>
            simp only
            split
            · rfl
            · cases readOptionalHeader image ((ntOff + 4) % 2 ^ 32 + sizeofFileHeader) with
              | none => rfl
              | some optional =>
                simp only
                cases readAt image optional.2 4 with
                | none => rfl
                | some exportRva =>
                  cases readAt image (optional.2 + 4) 4 with
                  | none => rfl
                  | some exportSize =>
                    simp only
                    cases scanSections image fh.numberOfSections
                      ((ntOff + 4) % 2 ^ 32 + sizeofFileHeader + fh.sizeOfOptionalHeader)
                      (0, 0) with
                    | none => rfl
                    | some range => rfl
        · rw [if_neg past, if_pos signed, if_pos (Or.inr signed)]

theorem cstrFrom_spec {image : Span} {left off : Nat} (whole : off + left = image.size) :
    ∃ found, cstrFrom image left off = .ok found ∧
      ∀ name, found = some name ↔ NameAt image off name := by
  induction left generalizing off with
  | zero =>
    refine ⟨none, rfl, fun name => ?_⟩
    constructor
    · intro impossible
      cases impossible
    · intro named
      cases name with
      | nil =>
        have := named.1
        omega
      | cons c rest =>
        have := named.1
        omega
  | succ left ih =>
    have inside : off < image.size := by omega
    rw [cstrFrom, loadByte_inside inside, ok_bind]
    by_cases zero : image.data off = 0
    · rw [if_pos zero]
      refine ⟨some [], rfl, fun name => ?_⟩
      cases name with
      | nil => exact iff_of_true rfl ⟨inside, zero⟩
      | cons c rest =>
        refine iff_of_false (by simp) ?_
        rintro ⟨-, some_, here, -⟩
        rw [zero] at here
        exact some_ here.symm
    · obtain ⟨found, ran, spec⟩ := ih (show off + 1 + left = image.size by omega)
      rw [if_neg zero, ran, ok_bind]
      refine ⟨_, rfl, fun name => ?_⟩
      rw [Option.map_eq_some_iff]
      constructor
      · rintro ⟨rest, later, rfl⟩
        exact ⟨inside, zero, rfl, (spec rest).mp later⟩
      · intro named
        cases name with
        | nil => exact absurd named.2 zero
        | cons c rest =>
          obtain ⟨-, -, rfl, later⟩ := named
          exact ⟨rest, (spec rest).mpr later, rfl⟩

theorem nameAt_inside {image : Span} {off : Nat} {name : Text} (named : NameAt image off name) :
    off < image.size := by
  cases name with
  | nil => exact named.1
  | cons c rest => exact named.1

theorem cstrAt_spec (image : Span) (off : Nat) :
    ∃ found, cstrAt image off = .ok found ∧
      ∀ name, name ≠ [] → (found = name ↔ NameAt image off name) := by
  unfold cstrAt
  by_cases past : off ≥ image.size
  · rw [if_pos past]
    refine ⟨[], rfl, fun name some_ => ?_⟩
    refine iff_of_false (fun empty => some_ empty.symm) fun named => ?_
    have := nameAt_inside named
    omega
  · obtain ⟨found, ran, spec⟩ :=
      cstrFrom_spec (show off + (image.size - off) = image.size by omega)
    rw [if_neg past, ran, ok_bind]
    refine ⟨_, rfl, fun name some_ => ?_⟩
    rw [← spec]
    cases found with
    | none =>
      refine iff_of_false (fun empty => some_ empty.symm) (by simp)
    | some text => simp

variable {pe : PeImage} {dir : ExportDirectory} {wanted : Text}

def exportPlace (pe : PeImage) : Place := ⟨pe.exportRva, pe.exportSize⟩

theorem resolve_eq {i : Nat} (few : i * 4 < 2 ^ 32) :
    ∃ result, resolve pe dir i = .ok result ∧
      ∀ rva, result = some rva ↔ LeadsTo pe.image (exportPlace pe) dir i rva := by
  have wide : i * 2 % 2 ^ 32 = 2 * i := by omega
  simp only [resolve, loadAt_eq, ok_bind, wide]
  cases located : readAt pe.image (dir.addressOfNameOrdinals + 2 * i) 2 with
  | none => exact ⟨none, rfl, fun rva => by simp [LeadsTo, located]⟩
  | some ordinal =>
    simp only
    by_cases past : ordinal ≥ dir.numberOfFunctions
    · rw [if_pos past]
      refine ⟨none, rfl, fun rva => ?_⟩
      have away : ¬ ordinal < dir.numberOfFunctions := by omega
      simp [LeadsTo, located, away]
    · have inside : ordinal < dir.numberOfFunctions := by omega
      rw [if_neg past, Nat.mul_comm ordinal]
      cases placed : readAt pe.image (dir.addressOfFunctions + 4 * ordinal) 4 with
      | none => exact ⟨none, rfl, fun rva => by simp [LeadsTo, located, placed]⟩
      | some functionRva =>
        simp only
        split
        · rename_i forwarded
          refine ⟨none, rfl, fun rva => ?_⟩
          refine iff_of_false (by simp) ?_
          rintro ⟨other, located', -, placed', straight⟩
          rw [located] at located'
          cases located'
          rw [placed] at placed'
          cases placed'
          exact straight forwarded
        · rename_i straight
          refine ⟨some functionRva, rfl, fun rva => ?_⟩
          constructor
          · intro same
            cases same
            exact ⟨ordinal, located, inside, placed, straight⟩
          · rintro ⟨other, located', -, placed', -⟩
            rw [located] at located'
            cases located'
            exact placed.symm.trans placed'

def FoundFrom (pe : PeImage) (dir : ExportDirectory) (wanted : Text) (i stop rva : Nat) : Prop :=
  ∃ k, i ≤ k ∧ k < stop ∧ (∀ j, i ≤ j → j < k → Differs pe.image dir wanted j) ∧
    Names pe.image dir wanted k ∧ LeadsTo pe.image (exportPlace pe) dir k rva

theorem foundFrom_missing {i stop rva : Nat}
    (missing : readAt pe.image (dir.addressOfNames + 4 * i) 4 = none) :
    ¬ FoundFrom pe dir wanted i stop rva := by
  rintro ⟨k, low, -, before, ⟨nameRva, located, -⟩, -⟩
  rcases Nat.eq_or_lt_of_le low with rfl | later
  · rw [missing] at located
    cases located
  · obtain ⟨other, located', -⟩ := before i (Nat.le_refl i) later
    rw [missing] at located'
    cases located'

theorem foundFrom_here {i stop rva nameRva : Nat} (low : i < stop)
    (located : readAt pe.image (dir.addressOfNames + 4 * i) 4 = some nameRva)
    (named : NameAt pe.image nameRva wanted) :
    FoundFrom pe dir wanted i stop rva ↔ LeadsTo pe.image (exportPlace pe) dir i rva := by
  constructor
  · rintro ⟨k, low, -, before, -, leads⟩
    rcases Nat.eq_or_lt_of_le low with rfl | later
    · exact leads
    · obtain ⟨other, located', different⟩ := before i (Nat.le_refl i) later
      rw [located] at located'
      cases located'
      exact absurd named different
  · intro leads
    exact ⟨i, Nat.le_refl i, low, fun j first second => absurd second (by omega),
      ⟨nameRva, located, named⟩, leads⟩

theorem foundFrom_next {i stop rva nameRva : Nat}
    (located : readAt pe.image (dir.addressOfNames + 4 * i) 4 = some nameRva)
    (different : ¬ NameAt pe.image nameRva wanted) :
    FoundFrom pe dir wanted i stop rva ↔ FoundFrom pe dir wanted (i + 1) stop rva := by
  constructor
  · rintro ⟨k, low, high, before, ⟨other, located', named⟩, leads⟩
    rcases Nat.eq_or_lt_of_le low with rfl | later
    · rw [located] at located'
      cases located'
      exact absurd named different
    · exact ⟨k, later, high, fun j first => before j (by omega), ⟨other, located', named⟩, leads⟩
  · rintro ⟨k, low, high, before, names, leads⟩
    refine ⟨k, by omega, high, fun j first second => ?_, names, leads⟩
    rcases Nat.eq_or_lt_of_le first with rfl | later
    · exact ⟨nameRva, located, different⟩
    · exact before j later second

/-- All entries before the one at hand lie in the image, so its 32-bit product is exact. -/
theorem searchNames_eq (small : pe.image.size < 2 ^ 32) (some_ : wanted ≠ []) (left i : Nat)
    (reached : 4 * i ≤ pe.image.size) :
    ∃ result, searchNames pe dir wanted left i = .ok result ∧
      ∀ rva, result = some rva ↔ FoundFrom pe dir wanted i (i + left) rva := by
  induction left generalizing i with
  | zero =>
    refine ⟨none, rfl, fun rva => iff_of_false (by simp) ?_⟩
    rintro ⟨k, low, high, -⟩
    omega
  | succ left ih =>
    have exact_ : i * 4 % 2 ^ 32 = 4 * i := by omega
    simp only [searchNames, loadAt_eq, ok_bind, exact_]
    cases located : readAt pe.image (dir.addressOfNames + 4 * i) 4 with
    | none => exact ⟨none, rfl, fun rva => iff_of_false (by simp) (foundFrom_missing located)⟩
    | some nameRva =>
      have inside := (readAt_some_iff.mp located).1
      obtain ⟨name, ran, spec⟩ := cstrAt_spec pe.image nameRva
      simp only [ran, ok_bind]
      by_cases same : name = wanted
      · obtain ⟨result, resolved, leads⟩ := resolve_eq (show i * 4 < 2 ^ 32 by omega)
        rw [if_neg (not_not.mpr same), resolved]
        refine ⟨result, rfl, fun rva => ?_⟩
        rw [leads, foundFrom_here (by omega) located ((spec wanted some_).mp same)]
      · obtain ⟨result, searched, later⟩ := ih (i + 1) (by omega)
        rw [if_pos same, searched]
        refine ⟨result, rfl, fun rva => ?_⟩
        rw [later, foundFrom_next located fun named => same ((spec wanted some_).mpr named),
          show i + 1 + left = i + (left + 1) by omega]

theorem exportRva_eq (small : pe.image.size < 2 ^ 32) (some_ : wanted ≠ []) :
    ∃ result, exportRva pe wanted = .ok result ∧
      ∀ rva, result = some rva ↔
        pe.valid = true ∧ ExportedAt pe.image (exportPlace pe) wanted rva := by
  unfold exportRva
  by_cases skipped : pe.valid = false ∨ pe.exportRva = 0 ∨ pe.exportRva ≥ pe.image.size
  · rw [if_pos skipped]
    refine ⟨none, rfl, fun rva => iff_of_false (by simp) ?_⟩
    rintro ⟨valid, present, dir, read, -⟩
    have read : readExportDirectory pe.image pe.exportRva = some dir := read
    rcases skipped with invalid | absent | past
    · rw [valid] at invalid
      cases invalid
    · exact present absent
    · rw [readExportDirectory, Option.ite_none_right_eq_some, fits_iff] at read
      have inside : pe.exportRva + sizeofExportDirectory ≤ pe.image.size := read.1
      have further : pe.exportRva + 1 ≤ pe.exportRva + sizeofExportDirectory :=
        Nat.add_le_add_left (by decide) _
      exact Nat.not_succ_le_self _ (Nat.le_trans (Nat.le_trans further inside) past)
  · rw [if_neg skipped, loadExportDirectory_eq, ok_bind]
    rw [not_or, not_or, Bool.not_eq_false] at skipped
    obtain ⟨valid, present, -⟩ := skipped
    cases read : readExportDirectory pe.image pe.exportRva with
    | none =>
      refine ⟨none, rfl, fun rva => iff_of_false (by simp) ?_⟩
      rintro ⟨-, -, dir, read', -⟩
      rw [show (exportPlace pe).start = pe.exportRva from rfl, read] at read'
      cases read'
    | some dir =>
      obtain ⟨result, searched, found⟩ :=
        @searchNames_eq pe dir wanted small some_ dir.numberOfNames 0 (Nat.zero_le _)
      refine ⟨result, searched, fun rva => ?_⟩
      rw [found, Nat.zero_add]
      constructor
      · rintro ⟨k, -, high, before, names, leads⟩
        exact ⟨valid, present, dir, read, k, high, fun j => before j (Nat.zero_le j), names, leads⟩
      · rintro ⟨-, -, dir', read', k, high, before, names, leads⟩
        rw [show (exportPlace pe).start = pe.exportRva from rfl, read] at read'
        cases read'
        exact ⟨k, Nat.zero_le k, high, fun j _ => before j, names, leads⟩

theorem exportRva_ofBytes {image : Span} (small : image.size < 2 ^ 32) (some_ : wanted ≠ []) :
    ∃ result, exportRva (PeImage.ofBytes image) wanted = .ok result ∧
      ∀ rva, result = some rva ↔ Exported image wanted rva := by
  have whole := (ofBytes_codeRange_le image).1
  obtain ⟨result, ran, found⟩ := @exportRva_eq (PeImage.ofBytes image) wanted
    (by rwa [whole]) some_
  refine ⟨result, ran, fun rva => ?_⟩
  rw [found, whole]
  constructor
  · rintro ⟨valid, exported⟩
    obtain ⟨formed, start, size, -⟩ := ofBytes_valid image small valid
    rw [exportPlace, start, size] at exported
    exact ⟨formed, exported⟩
  · rintro ⟨formed, exported⟩
    have valid := ofBytes_wellFormed small formed
    obtain ⟨-, start, size, -⟩ := ofBytes_valid image small valid
    rw [exportPlace, start, size]
    exact ⟨valid, exported⟩

/-- Parsing a module touches only its bytes and takes it as valid when its headers are all
   there, its code range is sound, and the lookup of an export finds what the tables say. -/
theorem parsing_sound (bytes : Span) (small : bytes.size < 2 ^ 32) (wanted : Text)
    (some_ : wanted ≠ []) :
    construct bytes = .ok (PeImage.ofBytes bytes) ∧
      ((PeImage.ofBytes bytes).valid = true ↔ WellFormed bytes) ∧
      ((PeImage.ofBytes bytes).valid = true →
        (PeImage.ofBytes bytes).codeRange.1 < (PeImage.ofBytes bytes).codeRange.2 ∧
        (PeImage.ofBytes bytes).codeRange.2 ≤ bytes.size ∧
        ((∀ sh, CodeSection bytes sh → sh.virtualAddress ≠ 0) →
          ∀ sh a, CodeSection bytes sh → sh.Covers bytes a →
            (PeImage.ofBytes bytes).codeRange.1 ≤ a ∧
              a < (PeImage.ofBytes bytes).codeRange.2)) ∧
      ∃ result, exportRva (PeImage.ofBytes bytes) wanted = .ok result ∧
        ∀ rva, result = some rva ↔ Exported bytes wanted rva := by
  refine ⟨construct_eq bytes, ?_, codeRange_sound bytes small, exportRva_ofBytes small some_⟩
  constructor
  · exact fun valid => (ofBytes_valid bytes small valid).wellFormed
  · exact ofBytes_wellFormed small

/-- A module whose export directory at 0x100 has one name, at 0x140. -/
def oneExport : Span where
  size := 0x180
  data
    | 0x00 => 0x4D
    | 0x01 => 0x5A
    | 0x3C => 0x40
    | 0x40 => 0x50
    | 0x41 => 0x45
    | 0x58 => 0x0B
    | 0x59 => 0x02
    | 0xC9 => 0x01
    | 0xCC => 0x28
    | 0x114 => 0x01
    | 0x118 => 0x01
    | 0x11C => 0x50
    | 0x11D => 0x01
    | 0x120 => 0x54
    | 0x121 => 0x01
    | 0x124 => 0x58
    | 0x125 => 0x01
    | 0x140 => 0x46
    | 0x150 => 0x34
    | 0x151 => 0x12
    | 0x154 => 0x40
    | 0x155 => 0x01
    | _ => 0

theorem parsing_sound_one_export :
    (PeImage.ofBytes oneExport).valid = true ∧
      exportRva (PeImage.ofBytes oneExport) (text "F") = .ok (some 0x1234) ∧
      Exported oneExport (text "F") 0x1234 := by
  have found : exportRva (PeImage.ofBytes oneExport) (text "F") = .ok (some 0x1234) := by
    decide +kernel
  obtain ⟨-, -, -, result, ran, spec⟩ :=
    parsing_sound oneExport (by decide) (text "F") (List.cons_ne_nil _ _)
  rw [found] at ran
  cases ran
  exact ⟨by decide, found, (spec 0x1234).mp rfl⟩

end PortableExports
