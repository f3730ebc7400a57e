import Mathlib.Algebra.Group.Int.Defs
import Mathlib.Algebra.Group.Nat.Defs
import Mathlib.Data.Nat.Basic

/- pe.cpp: the headers of a loaded module and the range of its code. -/
namespace PortableExecutable

abbrev Rva := Nat

/-- The bytes of a module; only those below the size may be looked at. -/
structure Span where
  size : Nat
  data : Nat → UInt8

def Span.littleEndian (image : Span) (off : Nat) : Nat → Nat
  | 0 => 0
  | count + 1 => (image.data off).toNat + 256 * image.littleEndian (off + 1) count

/-- read_at fits `count` bytes from `off` on. -/
def Span.fits (image : Span) (off count : Nat) : Bool :=
  ¬ (off > image.size ∨ count > image.size - off)

def readAt (image : Span) (off count : Nat) : Option Nat :=
  if image.fits off count then some (image.littleEndian off count) else none

structure FileHeader where
  numberOfSections : Nat
  sizeOfOptionalHeader : Nat
  deriving DecidableEq, Repr

def sizeofFileHeader : Nat := 20

def readFileHeader (image : Span) (off : Nat) : Option FileHeader :=
  if image.fits off sizeofFileHeader then
    some ⟨image.littleEndian (off + 2) 2, image.littleEndian (off + 16) 2⟩
  else none

structure SectionHeader where
  virtualSize : Nat
  virtualAddress : Nat
  sizeOfRawData : Nat
  characteristics : Nat
  deriving DecidableEq, Repr

def sizeofSectionHeader : Nat := 40

def readSectionHeader (image : Span) (off : Nat) : Option SectionHeader :=
  if image.fits off sizeofSectionHeader then
    some ⟨image.littleEndian (off + 8) 4, image.littleEndian (off + 12) 4,
      image.littleEndian (off + 16) 4, image.littleEndian (off + 36) 4⟩
  else none

def imageScnCntCode : Nat := 0x00000020

structure PeImage where
  image : Span
  valid : Bool := false
  imageBase : Nat := 0
  codeRange : Rva × Rva := (0, 0)
  exportRva : Rva := 0
  exportSize : Nat := 0

def readOptionalHeader (image : Span) (opt : Nat) : Option (Nat × Nat) :=
  match readAt image opt 2 with
  | none => none
  | some magic =>
    if magic = 0x20B then (readAt image (opt + 24) 8).map fun base => (base, opt + 112)
    else if magic = 0x10B then (readAt image (opt + 28) 4).map fun base => (base, opt + 96)
    else none

def addSection (image : Span) (sh : SectionHeader) (range : Rva × Rva) : Rva × Rva :=
  if sh.characteristics &&& imageScnCntCode ≠ 0 then
    let begin_ := sh.virtualAddress
    let span := max sh.virtualSize sh.sizeOfRawData
    let end64 := begin_ + span
    let end_ := min end64 image.size % 2 ^ 32
    (if range.1 = 0 ∨ begin_ < range.1 then begin_ else range.1,
      if end_ > range.2 then end_ else range.2)
  else range

/-- The loop over the section headers, the next of them at `off`. -/
def scanSections (image : Span) : Nat → Nat → Rva × Rva → Option (Rva × Rva)
  | 0, _, range => some range
  | remaining + 1, off, range =>
    match readSectionHeader image off with
    | none => none
    | some sh =>
      scanSections image remaining (off + sizeofSectionHeader) (addSection image sh range)

/-- The fallback is for modules without a section of code. -/
def chooseRange (image : Span) (range : Rva × Rva) : Rva × Rva :=
  if range.1 = 0 ∨ range.2 ≤ range.1 then (0, min image.size 0xFFFFFFFF) else range

/-- The constructor; an early return leaves the image invalid. -/
def PeImage.ofBytes (image : Span) : PeImage :=
  let pe : PeImage := { image }
  if image.size < 0x100 ∨ image.data 0 ≠ 0x4D ∨ image.data 1 ≠ 0x5A then pe
  else
    match readAt image 0x3C 4 with
    | none => pe
    | some ntOff =>
      let fileHeader := (ntOff + 4) % 2 ^ 32
      let opt := fileHeader + sizeofFileHeader
      if opt > image.size ∨ readAt image ntOff 4 ≠ some 0x00004550 then pe
      else
        match readFileHeader image fileHeader with
        | none => pe
        | some fh =>
          if opt + fh.sizeOfOptionalHeader > image.size then pe
          else
            match readOptionalHeader image opt with
            | none => pe
            | some (imageBase, dataDirOff) =>
              let pe := { pe with imageBase }
              match readAt image dataDirOff 4 with
              | none => pe
              | some exportRva =>
                let pe := { pe with exportRva }
                match readAt image (dataDirOff + 4) 4 with
                | none => pe
                | some exportSize =>
                  let pe := { pe with exportSize }
                  match scanSections image fh.numberOfSections (opt + fh.sizeOfOptionalHeader)
                      (0, 0) with
                  | none => pe
                  | some range => { pe with codeRange := chooseRange image range, valid := true }

theorem addSection_le {image : Span} {sh : SectionHeader} {range : Rva × Rva}
    (bounded : range.2 ≤ image.size) : (addSection image sh range).2 ≤ image.size := by
  unfold addSection
  split
  · simp only
    split
    · exact Nat.le_trans (Nat.mod_le _ _) (Nat.min_le_right _ _)
    · exact bounded
  · exact bounded

theorem scanSections_le {image : Span} : ∀ {remaining off : Nat} {range out : Rva × Rva},
    range.2 ≤ image.size → scanSections image remaining off range = some out →
    out.2 ≤ image.size := by
  intro remaining
  induction remaining with
  | zero =>
    intro off range out bounded scanned
    cases scanned
    exact bounded
  | succ remaining ih =>
    intro off range out bounded scanned
    rw [scanSections] at scanned
    cases header : readSectionHeader image off with
    | none =>
      rw [header] at scanned
      cases scanned
    | some sh =>
      rw [header] at scanned
      exact ih (addSection_le bounded) scanned

theorem chooseRange_le {image : Span} {range : Rva × Rva} (bounded : range.2 ≤ image.size) :
    (chooseRange image range).2 ≤ image.size := by
  unfold chooseRange
  split
  · exact Nat.min_le_left _ _
  · exact bounded

theorem ofBytes_codeRange_le (image : Span) :
    (PeImage.ofBytes image).image = image ∧
      (PeImage.ofBytes image).codeRange.2 ≤ image.size := by
  have nothing : (0 : Nat) ≤ image.size := Nat.zero_le _
  have scanned {remaining off : Nat} {range : Rva × Rva}
      (done : scanSections image remaining off (0, 0) = some range) :
      (chooseRange image range).2 ≤ image.size :=
    chooseRange_le (scanSections_le nothing done)
  unfold PeImage.ofBytes
  simp only
  repeat' split
  all_goals first
    | exact ⟨rfl, nothing⟩
    | exact ⟨rfl, scanned ‹_›⟩

def ntOffset (image : Span) : Nat := image.littleEndian 0x3C 4

def numberOfSections (image : Span) : Nat := image.littleEndian (ntOffset image + 6) 2

def optionalHeader (image : Span) : Nat := ntOffset image + 24

def sectionTable (image : Span) : Nat :=
  optionalHeader image + image.littleEndian (ntOffset image + 20) 2

def optionalMagic (image : Span) : Nat := image.littleEndian (optionalHeader image) 2

def dataDirectories (image : Span) : Nat :=
  optionalHeader image + if optionalMagic image = 0x20B then 112 else 96

def exportTable (image : Span) : Nat := image.littleEndian (dataDirectories image) 4

def exportTableSize (image : Span) : Nat := image.littleEndian (dataDirectories image + 4) 4

/-- All headers are there and inside the image. -/
structure WellFormed (image : Span) : Prop where
  big : 0x100 ≤ image.size
  mark : image.data 0 = 0x4D ∧ image.data 1 = 0x5A
  signature : image.littleEndian (ntOffset image) 4 = 0x00004550
  magic : optionalMagic image = 0x20B ∨ optionalMagic image = 0x10B
  directories : dataDirectories image + 8 ≤ image.size
  sections : sectionTable image + sizeofSectionHeader * numberOfSections image ≤ image.size

theorem fits_iff {image : Span} {off count : Nat} :
    image.fits off count = true ↔ off + count ≤ image.size := by
  simp only [Span.fits, decide_eq_true_eq]
  omega

theorem readAt_some_iff {image : Span} {off count value : Nat} :
    readAt image off count = some value ↔
      off + count ≤ image.size ∧ image.littleEndian off count = value := by
  simp [readAt, ← fits_iff]

theorem readAt_fitting {image : Span} {off count : Nat} (inside : off + count ≤ image.size) :
    readAt image off count = some (image.littleEndian off count) :=
  readAt_some_iff.mpr ⟨inside, rfl⟩

theorem scanSections_some {image : Span} : ∀ {remaining off : Nat} (range : Rva × Rva),
    off + sizeofSectionHeader * remaining ≤ image.size →
    ∃ out, scanSections image remaining off range = some out := by
  intro remaining
  induction remaining with
  | zero => exact fun range _ => ⟨range, rfl⟩
  | succ remaining ih =>
    intro off range inside
    rw [Nat.mul_succ] at inside
    rw [scanSections, readSectionHeader, if_pos (fits_iff.mpr (by omega))]
    exact ih _ (by omega)

theorem scanSections_inside {image : Span} : ∀ {remaining off : Nat} {range out : Rva × Rva},
    off ≤ image.size → scanSections image remaining off range = some out →
    off + sizeofSectionHeader * remaining ≤ image.size := by
  intro remaining
  induction remaining with
  | zero => exact fun start _ => start
  | succ remaining ih =>
    intro off range out start scanned
    rw [scanSections, readSectionHeader] at scanned
    by_cases fits : image.fits off sizeofSectionHeader = true
    · rw [if_pos fits] at scanned
      have later := ih (fits_iff.mp fits) scanned
      rw [Nat.mul_succ]
      omega
    · rw [if_neg fits] at scanned
      cases scanned

theorem readOptionalHeader_spec {image : Span} {base off : Nat} :
    readOptionalHeader image (optionalHeader image) = some (base, off) →
      (optionalMagic image = 0x20B ∨ optionalMagic image = 0x10B) ∧ off = dataDirectories image := by
  unfold readOptionalHeader
  cases read : readAt image (optionalHeader image) 2 with
  | none => exact nofun
  | some magic =>
    have known : optionalMagic image = magic := (readAt_some_iff.mp read).2
    unfold dataDirectories
    rw [known]
    dsimp only
    split
    · rename_i wide
      rw [Option.map_eq_some_iff]
      rintro ⟨value, -, same⟩
      exact ⟨.inl wide, (congrArg Prod.snd same).symm⟩
    · split
      · rename_i narrow
        rw [Option.map_eq_some_iff]
        rintro ⟨value, -, same⟩
        exact ⟨.inr narrow, (congrArg Prod.snd same).symm⟩
      · exact nofun

/-- What the constructor has found of an image that it takes as valid. -/
structure Parsed (image : Span) (pe : PeImage) : Prop where
  wellFormed : WellFormed image
  exports : pe.exportRva = exportTable image
  exportsSize : pe.exportSize = exportTableSize image
  code : ∃ range,
    scanSections image (numberOfSections image) (sectionTable image) (0, 0) = some range ∧
      pe.codeRange = chooseRange image range

theorem ofBytes_valid (image : Span) (small : image.size < 2 ^ 32)
    (valid : (PeImage.ofBytes image).valid = true) : Parsed image (PeImage.ofBytes image) := by
  have either : (PeImage.ofBytes image).valid = false ∨ Parsed image (PeImage.ofBytes image) := by
    unfold PeImage.ofBytes
    simp only
    repeat' split
    all_goals first
      | exact Or.inl rfl
      | skip
    rename_i big _ nt located present _ fh header near _ base dirs optional _ rva first _ size
      second _ range scanned
    obtain ⟨-, rfl⟩ := readAt_some_iff.mp located
    obtain ⟨behind, unsigned⟩ := not_or.mp present
    rw [not_not] at unsigned
    obtain ⟨below, signature⟩ := readAt_some_iff.mp unsigned
    have place : (image.littleEndian 0x3C 4 + 4) % 2 ^ 32 + sizeofFileHeader =
        optionalHeader image := by
      rw [Nat.mod_eq_of_lt (by omega)]
      rfl
    rw [Nat.mod_eq_of_lt (by omega), readFileHeader, Option.ite_none_right_eq_some,
      Option.some.injEq] at header
    obtain ⟨-, rfl⟩ := header
    rw [place] at near optional scanned
    obtain ⟨magic, rfl⟩ := readOptionalHeader_spec optional
    obtain ⟨big', mark⟩ := not_or.mp big
    obtain ⟨first', second'⟩ := not_or.mp mark
    obtain ⟨-, rfl⟩ := readAt_some_iff.mp first
    obtain ⟨directories, rfl⟩ := readAt_some_iff.mp second
    have table := scanSections_inside (Nat.le_of_not_lt near) scanned
    refine Or.inr ⟨⟨?_, ⟨not_not.mp first', not_not.mp second'⟩, signature, magic, ?_, table⟩,
      rfl, rfl, range, scanned, rfl⟩
    · omega
    · omega
  rcases either with never | parsed
  · rw [never] at valid
    cases valid
  · exact parsed

theorem ofBytes_wellFormed {image : Span} (small : image.size < 2 ^ 32)
    (formed : WellFormed image) : (PeImage.ofBytes image).valid = true := by
  obtain ⟨big, mark, signature, magic, directories, sections⟩ := formed
  have inside : optionalHeader image + 104 ≤ image.size := by
    unfold dataDirectories at directories
    split at directories <;> omega
  have place : (ntOffset image + 4) % 2 ^ 32 = ntOffset image + 4 := by
    unfold optionalHeader at inside
    exact Nat.mod_eq_of_lt (by omega)
  have before : optionalHeader image = ntOffset image + 4 + sizeofFileHeader := rfl
  have optional : ∃ base, readOptionalHeader image (optionalHeader image) =
      some (base, dataDirectories image) := by
    rw [readOptionalHeader, readAt_fitting (by omega)]
    unfold dataDirectories at directories ⊢
    change optionalMagic image = _ ∨ _ at magic
    dsimp only
    rw [show image.littleEndian (optionalHeader image) 2 = optionalMagic image from rfl]
    rcases magic with wide | narrow
    · rw [if_pos wide] at directories ⊢
      rw [if_pos wide, readAt_fitting (by omega)]
      exact ⟨_, rfl⟩
    · have other : optionalMagic image ≠ 0x20B := by
        rw [narrow]
        decide
      rw [if_neg other, if_neg other, if_pos narrow, readAt_fitting (by omega)]
      exact ⟨_, rfl⟩
  obtain ⟨base, optional⟩ := optional
  obtain ⟨range, scanned⟩ := scanSections_some (0, 0) sections
  have header : readFileHeader image (ntOffset image + 4) = some
      ⟨numberOfSections image, image.littleEndian (ntOffset image + 20) 2⟩ := by
    rw [readFileHeader, if_pos (fits_iff.mpr (by omega))]
    rfl
  have table : ntOffset image + 4 + sizeofFileHeader + image.littleEndian (ntOffset image + 20) 2 =
      sectionTable image := rfl
  have start : ¬ (image.size < 0x100 ∨ image.data 0 ≠ 0x4D ∨ image.data 1 ≠ 0x5A) := by
    simp [mark.1, mark.2, big]
  have signed : readAt image (ntOffset image) 4 = some 0x00004550 :=
    readAt_some_iff.mpr ⟨by omega, signature⟩
  have located : readAt image 0x3C 4 = some (ntOffset image) := readAt_fitting (by omega)
  have first : readAt image (dataDirectories image) 4 =
      some (image.littleEndian (dataDirectories image) 4) := readAt_fitting (by omega)
  have second : readAt image (dataDirectories image + 4) 4 =
      some (image.littleEndian (dataDirectories image + 4) 4) := readAt_fitting (by omega)
  simp only [PeImage.ofBytes, if_neg start, located, place, signed, header, ne_eq, not_true,
    or_false, ← before]
  rw [if_neg (by omega), if_neg (by rw [before, table]; omega), optional]
  dsimp only
  rw [first, second, before, table, scanned]

def SectionHeader.Covers (sh : SectionHeader) (image : Span) (a : Nat) : Prop :=
  sh.virtualAddress ≤ a ∧ a < sh.virtualAddress + max sh.virtualSize sh.sizeOfRawData ∧
    a < image.size

def SectionHeader.isCode (sh : SectionHeader) : Prop := sh.characteristics &&& imageScnCntCode ≠ 0

instance (sh : SectionHeader) : Decidable sh.isCode := inferInstanceAs (Decidable (_ ≠ _))

def Spans (image : Span) (first last : Nat) (sh : SectionHeader) : Prop :=
  first ≠ 0 ∧ first ≤ sh.virtualAddress ∧
    min (sh.virtualAddress + max sh.virtualSize sh.sizeOfRawData) image.size ≤ last

theorem addSection_code {image : Span} (small : image.size < 2 ^ 32) {sh : SectionHeader}
    (code : sh.isCode) (first last : Nat) : addSection image sh (first, last) =
      ((if first = 0 ∨ sh.virtualAddress < first then sh.virtualAddress else first : Nat),
        max last (min (sh.virtualAddress + max sh.virtualSize sh.sizeOfRawData) image.size)) := by
  have fits : min (sh.virtualAddress + max sh.virtualSize sh.sizeOfRawData) image.size % 2 ^ 32 =
      min (sh.virtualAddress + max sh.virtualSize sh.sizeOfRawData) image.size :=
    Nat.mod_eq_of_lt (by omega)
  have later (new : Nat) : (if new > last then new else last) = max last new := by
    split <;> omega
  rw [addSection, if_pos (show sh.characteristics &&& imageScnCntCode ≠ 0 from code)]
  simp only [fits]
  exact congrArg (Prod.mk _) (later _)

theorem addSection_spans {image : Span} (small : image.size < 2 ^ 32) {sh : SectionHeader}
    (first last : Nat) (code : sh.isCode) (placed : sh.virtualAddress ≠ 0) :
    Spans image (addSection image sh (first, last)).1 (addSection image sh (first, last)).2 sh := by
  rw [addSection_code small code]
  unfold Spans
  simp only
  split
  · omega
  · omega

/-- What is spanned stays so, as further sections are added. -/
theorem addSection_keeps {image : Span} (small : image.size < 2 ^ 32) {first last : Nat}
    {old : SectionHeader} (spans : Spans image first last old) {sh : SectionHeader}
    (placed : sh.isCode → sh.virtualAddress ≠ 0) :
    Spans image (addSection image sh (first, last)).1 (addSection image sh (first, last)).2
      old := by
  by_cases code : sh.isCode
  · have behind := placed code
    rw [addSection_code small code]
    unfold Spans at *
    simp only
    split
    · omega
    · omega
  · have other : ¬ sh.characteristics &&& imageScnCntCode ≠ 0 := code
    rw [addSection, if_neg other]
    exact spans

def sectionAt (image : Span) (k : Nat) : Option SectionHeader :=
  readSectionHeader image (sectionTable image + sizeofSectionHeader * k)

/-- Every section of code that the loop meets is spanned at its end, when none lies at
   address 0. -/
theorem scanSections_spans {image : Span} (small : image.size < 2 ^ 32) :
    ∀ {remaining k : Nat} {range out : Rva × Rva},
    (∀ j sh, k ≤ j → j < k + remaining → sectionAt image j = some sh → sh.isCode →
      sh.virtualAddress ≠ 0) →
    scanSections image remaining (sectionTable image + sizeofSectionHeader * k) range = some out →
    (∀ old, Spans image range.1 range.2 old → Spans image out.1 out.2 old) ∧
      ∀ j sh, k ≤ j → j < k + remaining → sectionAt image j = some sh → sh.isCode →
        Spans image out.1 out.2 sh := by
  intro remaining
  induction remaining with
  | zero =>
    intro k range out placed scanned
    cases scanned
    exact ⟨fun old spans => spans, fun j sh low high => absurd high (by omega)⟩
  | succ remaining ih =>
    intro k range out placed scanned
    rw [scanSections] at scanned
    cases header : readSectionHeader image (sectionTable image + sizeofSectionHeader * k) with
    | none =>
      rw [header] at scanned
      cases scanned
    | some sh =>
      rw [header] at scanned
      have here : sectionAt image k = some sh := header
      have next : sectionTable image + sizeofSectionHeader * k + sizeofSectionHeader =
          sectionTable image + sizeofSectionHeader * (k + 1) := by
        rw [Nat.mul_succ, Nat.add_assoc]
      simp only [next] at scanned
      obtain ⟨kept, later⟩ := ih
        (fun j other low high => placed j other (by omega) (by omega)) scanned
      have own := placed k sh (Nat.le_refl k) (by omega) here
      refine ⟨fun old spans => kept old (addSection_keeps small spans own), ?_⟩
      intro j other low high found code
      rcases Nat.eq_or_lt_of_le low with rfl | after
      · rw [here] at found
        cases found
        exact kept sh (addSection_spans small range.1 range.2 code (own code))
      · exact later j other after (by omega) found code

def CodeSection (image : Span) (sh : SectionHeader) : Prop :=
  (∃ k, k < numberOfSections image ∧ sectionAt image k = some sh) ∧ sh.isCode

theorem chooseRange_eq (image : Span) (first last : Nat) : chooseRange image (first, last) =
    if first = 0 ∨ last ≤ first then ((0 : Nat), min image.size 0xFFFFFFFF) else (first, last) :=
  rfl

/-- The code of a valid image is a nonempty range inside it, which covers the sections of
   code unless one lies at address 0. -/
theorem codeRange_sound (image : Span) (small : image.size < 2 ^ 32)
    (valid : (PeImage.ofBytes image).valid = true) :
    (PeImage.ofBytes image).codeRange.1 < (PeImage.ofBytes image).codeRange.2 ∧
      (PeImage.ofBytes image).codeRange.2 ≤ image.size ∧
      ((∀ sh, CodeSection image sh → sh.virtualAddress ≠ 0) →
        ∀ sh a, CodeSection image sh → sh.Covers image a →
          (PeImage.ofBytes image).codeRange.1 ≤ a ∧
            a < (PeImage.ofBytes image).codeRange.2) := by
  obtain ⟨formed, -, -, ⟨first, last⟩, scanned, ranged⟩ := ofBytes_valid image small valid
  have big := formed.big
  rw [chooseRange_eq] at ranged
  refine ⟨?_, (ofBytes_codeRange_le image).2, ?_⟩
  · rw [ranged]
    split
    · show (0 : Nat) < min image.size 0xFFFFFFFF
      omega
    · rename_i kept
      exact Nat.lt_of_not_le fun late => kept (Or.inr late)
  · rintro placed sh a ⟨⟨k, low, found⟩, code⟩ ⟨start, stop, inside⟩
    rw [ranged]
    split
    · refine ⟨Nat.zero_le a, ?_⟩
      show a < min image.size 0xFFFFFFFF
      omega
    · obtain ⟨-, spans⟩ := scanSections_spans small (k := 0)
        (fun j other _ high found code => placed other ⟨⟨j, by omega, found⟩, code⟩) scanned
      have own := spans k sh (Nat.zero_le k) (by omega) found code
      obtain ⟨-, low', high'⟩ := own
      show (first : Nat) ≤ a ∧ a < last
      constructor
      · exact Nat.le_trans low' start
      · exact Nat.lt_of_lt_of_le (Nat.lt_min.mpr ⟨stop, inside⟩) high'

end PortableExecutable
