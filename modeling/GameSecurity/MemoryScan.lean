import GameSecurity.IntervalScan
import GameSecurity.TeleportMailbox
import Mathlib.Order.Monotone.Basic

/- UnknownScanner32::Start: the regions of another process are read chunk by chunk and
   every aligned dword of a chunk becomes a candidate. -/
namespace MemoryScan
open IntervalScan TeleportMailbox

def memCommit : Nat := 0x1000

def memPrivate : Nat := 0x20000

def pageNoAccess : Nat := 0x01

def pageReadWrite : Nat := 0x04

def pageWriteCopy : Nat := 0x08

def pageExecuteReadWrite : Nat := 0x40

def pageExecuteWriteCopy : Nat := 0x80

def pageGuard : Nat := 0x100

/-- MEMORY_BASIC_INFORMATION. -/
structure Region where
  baseAddress : Nat
  regionSize : Nat
  state : Nat
  memoryType : Nat
  protect : Nat
  deriving DecidableEq, Repr

def Region.stop (r : Region) : Nat := r.baseAddress + r.regionSize

/-- VirtualQueryEx gives the region that contains the address, ReadProcessMemory the number
   of bytes it has read. -/
structure Process where
  query : Nat → Option Region
  memory : Nat → UInt8
  read : Nat → Nat → Option Nat
  contains : ∀ a r, query a = some r → r.baseAddress ≤ a ∧ a < r.stop
  same : ∀ a r b, query a = some r → r.baseAddress ≤ b → b < r.stop → query b = some r

def isReadableWritableProtection (protection : Nat) : Bool :=
  let base := protection &&& 0xFF
  if protection &&& pageGuard ≠ 0 ∨ base = pageNoAccess then false
  else base = pageReadWrite ∨ base = pageWriteCopy ∨ base = pageExecuteReadWrite ∨
    base = pageExecuteWriteCopy

def scannable (r : Region) : Bool :=
  r.state = memCommit ∧ r.memoryType = memPrivate ∧ isReadableWritableProtection r.protect

inductive ScanKind where
  | int32
  | float32
  deriving DecidableEq, Repr

structure Candidate where
  address : Nat
  previousRaw : Single
  deriving DecidableEq, Repr

def uint32Max : Nat := 2 ^ 32 - 1

def kDefaultLowestAddress : Nat := 0x00010000

def kDefaultHighestAddress : Nat := 0xFFF00000

def kChunkSize : Nat := 1024 * 1024

def kCandidateLimit : Nat := 8000000

/-- The dword at an address, lowest byte first. -/
def Process.raw (p : Process) (a : Nat) : Single :=
  BitVec.ofNat 32 ((p.memory a).toNat + 2 ^ 8 * (p.memory (a + 1)).toNat +
    2 ^ 16 * (p.memory (a + 2)).toNat + 2 ^ 24 * (p.memory (a + 3)).toNat)

/-- The dwords of one chunk, from `offset` on; true stands for the candidate limit. -/
def scanOffsets (p : Process) (kind : ScanKind) (chunkBase bytesRead offset : Nat)
    (found : List Candidate) : Bool × List Candidate :=
  if offset + 4 ≤ bytesRead then
    let raw := p.raw (chunkBase + offset)
    if kind = .float32 ∧ ¬ isfinite raw then
      scanOffsets p kind chunkBase bytesRead (offset + 4) found
    else if chunkBase + offset > uint32Max then
      scanOffsets p kind chunkBase bytesRead (offset + 4) found
    else
      let found := found ++ [⟨(chunkBase + offset) % 2 ^ 32, raw⟩]
      if found.length ≥ kCandidateLimit then (true, found)
      else scanOffsets p kind chunkBase bytesRead (offset + 4) found
  else (false, found)
termination_by bytesRead - offset

def firstOffset (chunkBase : Nat) : Nat := (4 - chunkBase % 4) % 4

/-- The chunks of one region, from `chunkBase` on. -/
def scanChunks (p : Process) (kind : ScanKind) (scanRegionEnd chunkBase : Nat)
    (found : List Candidate) : Bool × List Candidate :=
  if chunkBase < scanRegionEnd then
    match p.read chunkBase (min (scanRegionEnd - chunkBase) kChunkSize) with
    | none => scanChunks p kind scanRegionEnd (chunkBase + kChunkSize) found
    | some bytesRead =>
      let (full, found) :=
        scanOffsets p kind chunkBase bytesRead (firstOffset chunkBase) found
      if full then (true, found)
      else scanChunks p kind scanRegionEnd (chunkBase + kChunkSize) found
  else (false, found)
termination_by scanRegionEnd - chunkBase
decreasing_by all_goals (simp only [kChunkSize]; omega)

/-- The regions from `address` on. -/
def scanRegions (p : Process) (kind : ScanKind) (lowest highest address : Nat)
    (found : List Candidate) : Bool × List Candidate :=
  if address < highest then
    match p.query address with
    | none => scanRegions p kind lowest highest (address + 0x1000) found
    | some mbi =>
      let queriedRegionEnd := if mbi.stop ≥ highest then highest else mbi.stop
      let scanRegionStart := max mbi.baseAddress lowest
      let scanRegionEnd := min queriedRegionEnd highest
      let (full, found) :=
        if scannable mbi then scanChunks p kind scanRegionEnd scanRegionStart found
        else (false, found)
      if full then (true, found)
      else scanRegions p kind lowest highest
        (if queriedRegionEnd > address then queriedRegionEnd else address + 0x1000) found
  else (false, found)
termination_by highest - address
decreasing_by all_goals grind

structure Scanner where
  candidates : List Candidate
  kind : ScanKind
  truncated : Bool
  relativeBase : Option Nat
  lowestAddress : Nat
  highestAddress : Nat
  deriving DecidableEq, Repr

def Scanner.start (s : Scanner) (p : Process) (kind : ScanKind) (lowest highest : Nat)
    (relativeBase : Option Nat) : Bool × Scanner :=
  let s := { s with candidates := [], kind, truncated := false, relativeBase }
  let lowestAddress := max lowest kDefaultLowestAddress
  let highestAddress := min highest kDefaultHighestAddress
  if lowestAddress ≥ highestAddress then (false, s)
  else
    let (truncated, candidates) := scanRegions p kind lowestAddress highestAddress lowestAddress []
    (true, { s with candidates, truncated, lowestAddress, highestAddress })

def Process.candidate (p : Process) (a : Nat) : Candidate := ⟨a, p.raw a⟩

/-- A float scan leaves out the dwords that are no finite float. -/
def Wanted (p : Process) (kind : ScanKind) (a : Nat) : Prop :=
  kind = .float32 → isfinite (p.raw a)

instance (p : Process) (kind : ScanKind) (a : Nat) : Decidable (Wanted p kind a) :=
  inferInstanceAs (Decidable (_ → _))

def Dword (p : Process) (kind : ScanKind) (stop a : Nat) : Prop :=
  a % 4 = 0 ∧ a + 4 ≤ stop ∧ Wanted p kind a

instance (p : Process) (kind : ScanKind) (stop a : Nat) : Decidable (Dword p kind stop a) :=
  inferInstanceAs (Decidable (_ ∧ _))

theorem dword_between {p : Process} {kind : ScanKind} {stop here a : Nat}
    (aligned : here % 4 = 0) (low : here < a) (high : a < here + 4) :
    ¬ Dword p kind stop a := by
  intro dword
  have := dword.1
  omega

theorem pick_dword_skip {p : Process} {kind : ScanKind} {here : Nat} (stop : Nat)
    (aligned : here % 4 = 0) (inside : here + 4 ≤ stop) (unwanted : ¬ Wanted p kind here) :
    pick (Dword p kind stop) here stop = pick (Dword p kind stop) (here + 4) stop := by
  apply pick_skip
  · omega
  · exact inside
  · intro a low high dword
    rcases Nat.eq_or_lt_of_le low with same | later
    · subst same
      exact unwanted dword.2.2
    · exact dword_between aligned later high dword

theorem pick_dword_cons {p : Process} {kind : ScanKind} {here : Nat} (stop : Nat)
    (aligned : here % 4 = 0) (inside : here + 4 ≤ stop) (wanted : Wanted p kind here) :
    pick (Dword p kind stop) here stop = here :: pick (Dword p kind stop) (here + 4) stop := by
  apply pick_cons
  · omega
  · exact inside
  · exact ⟨aligned, inside, wanted⟩
  · exact fun a low high => dword_between aligned low high

theorem scanOffsets_eq (p : Process) (kind : ScanKind) (chunkBase bytesRead offset : Nat)
    (found : List Candidate) (aligned : (chunkBase + offset) % 4 = 0)
    (bounded : chunkBase + bytesRead ≤ 2 ^ 32)
    (few : found.length + (pick (Dword p kind (chunkBase + bytesRead)) (chunkBase + offset)
      (chunkBase + bytesRead)).length < kCandidateLimit) :
    scanOffsets p kind chunkBase bytesRead offset found =
      (false, found ++ (pick (Dword p kind (chunkBase + bytesRead)) (chunkBase + offset)
        (chunkBase + bytesRead)).map p.candidate) := by
  fun_induction scanOffsets p kind chunkBase bytesRead offset found with
  | case1 offset found inside raw skipped ih =>
    have unwanted : ¬ Wanted p kind (chunkBase + offset) := fun wanted =>
      skipped.2 (wanted skipped.1)
    have skip := pick_dword_skip (chunkBase + bytesRead) aligned (by omega) unwanted
    rw [skip] at few ⊢
    exact ih (by omega) few
  | case2 offset found inside raw kept far ih =>
    unfold uint32Max at far
    omega
  | case3 offset found inside raw kept near found' full =>
    have wanted : Wanted p kind (chunkBase + offset) := fun float =>
      not_not.mp fun infinite => kept ⟨float, infinite⟩
    have grown : found'.length = found.length + 1 := by simp [found']
    rw [pick_dword_cons _ aligned (by omega) wanted, List.length_cons] at few
    omega
  | case4 offset found inside raw kept near found' room ih =>
    have wanted : Wanted p kind (chunkBase + offset) := fun float =>
      not_not.mp fun infinite => kept ⟨float, infinite⟩
    have small : (chunkBase + offset) % 2 ^ 32 = chunkBase + offset :=
      Nat.mod_eq_of_lt (by omega)
    have cons := pick_dword_cons (chunkBase + bytesRead) aligned (by omega) wanted
    have grown : found'.length = found.length + 1 := by simp [found']
    rw [← Nat.add_assoc] at ih
    rw [cons] at few ⊢
    rw [List.length_cons] at few
    have added : found' = found ++ [p.candidate (chunkBase + offset)] := by
      simp only [found', raw, small, Process.candidate]
    rw [ih (by omega) (by omega), added, List.map_cons, List.append_assoc, List.singleton_append]
  | case5 offset found outside =>
    rw [pick_none]
    · simp
    · intro a low high dword
      have := dword.2.1
      omega

/-- The dwords of a scanned part that lie inside one of its chunks. -/
def Inside (p : Process) (kind : ScanKind) (start stop a : Nat) : Prop :=
  Dword p kind stop a ∧ (a - start) % kChunkSize + 4 ≤ kChunkSize

instance (p : Process) (kind : ScanKind) (start stop a : Nat) :
    Decidable (Inside p kind start stop a) :=
  inferInstanceAs (Decidable (_ ∧ _))

/-- No dword begins between a chunk's base and its first offset. -/
theorem pick_dword_first (p : Process) (kind : ScanKind) (chunkBase size : Nat) :
    pick (Dword p kind (chunkBase + size)) (chunkBase + firstOffset chunkBase)
      (chunkBase + size) = pick (Dword p kind (chunkBase + size)) chunkBase (chunkBase + size) := by
  have aligned : (chunkBase + firstOffset chunkBase) % 4 = 0 := by
    unfold firstOffset
    omega
  have near : firstOffset chunkBase < 4 := by
    unfold firstOffset
    omega
  rcases Nat.lt_or_ge size (firstOffset chunkBase) with short | long
  · rw [pick_empty (by omega), pick_none]
    intro a low high dword
    have := dword.2.1
    omega
  · symm
    apply pick_skip
    · omega
    · omega
    · intro a low high dword
      have := dword.1
      omega

theorem chunk_inside {p : Process} {kind : ScanKind} {start stop chunkBase a : Nat}
    (edge : ∃ j, chunkBase = start + j * kChunkSize) (low : chunkBase ≤ a)
    (high : a < chunkBase + min (stop - chunkBase) kChunkSize) :
    Dword p kind (chunkBase + min (stop - chunkBase) kChunkSize) a ↔
      Inside p kind start stop a := by
  obtain ⟨j, rfl⟩ := edge
  have place : (a - start) % kChunkSize = a - (start + j * kChunkSize) := by
    have split : a - start = (a - (start + j * kChunkSize)) + j * kChunkSize := by omega
    rw [split, Nat.add_mul_mod_self_right, Nat.mod_eq_of_lt (by omega)]
  unfold Inside Dword
  rw [place]
  constructor
  · rintro ⟨aligned, fits, wanted⟩
    exact ⟨⟨aligned, by omega, wanted⟩, by omega⟩
  · rintro ⟨⟨aligned, fits, wanted⟩, whole⟩
    exact ⟨aligned, by omega, wanted⟩

theorem below {start chunkBase : Nat} (edge : ∃ j, chunkBase = start + j * kChunkSize) :
    start ≤ chunkBase := by
  obtain ⟨j, rfl⟩ := edge
  exact Nat.le_add_right _ _

theorem chunk_eq {p : Process} {kind : ScanKind} {start stop chunkBase size : Nat}
    {found : List Candidate} (edge : ∃ j, chunkBase = start + j * kChunkSize)
    (sized : size = min (stop - chunkBase) kChunkSize) (bounded : chunkBase + size ≤ 2 ^ 32)
    (few : found.length + (pick (Inside p kind start stop) chunkBase (chunkBase + size)).length <
      kCandidateLimit) :
    scanOffsets p kind chunkBase size (firstOffset chunkBase) found =
      (false, found ++
        (pick (Inside p kind start stop) chunkBase (chunkBase + size)).map p.candidate) := by
  have same : pick (Dword p kind (chunkBase + size)) (chunkBase + firstOffset chunkBase)
      (chunkBase + size) = pick (Inside p kind start stop) chunkBase (chunkBase + size) := by
    rw [pick_dword_first]
    apply pick_congr
    intro a low high
    subst sized
    exact chunk_inside edge low high
  have aligned : (chunkBase + firstOffset chunkBase) % 4 = 0 := by
    unfold firstOffset
    omega
  rw [← same] at few ⊢
  exact scanOffsets_eq p kind chunkBase size _ found aligned bounded few

theorem scanChunks_eq (p : Process) (kind : ScanKind) (start stop chunkBase : Nat)
    (found : List Candidate) (edge : ∃ j, chunkBase = start + j * kChunkSize)
    (bounded : stop ≤ 2 ^ 32)
    (reads : ∀ base size, start ≤ base → base < stop → base + size ≤ stop →
      p.read base size = some size)
    (few : found.length + (pick (Inside p kind start stop) chunkBase stop).length <
      kCandidateLimit) :
    scanChunks p kind stop chunkBase found =
      (false, found ++ (pick (Inside p kind start stop) chunkBase stop).map p.candidate) := by
  fun_induction scanChunks p kind stop chunkBase found with
  | case1 chunkBase found inside failed ih =>
    rw [reads _ _ (below edge) inside (by omega)] at failed
    cases failed
  | case2 chunkBase found inside size read next scanned =>
    have sized := Option.some.inj ((reads _ _ (below edge) inside (by omega)).symm.trans read)
    rw [← pick_append (Nat.le_add_right chunkBase size) (by omega), List.length_append] at few
    rw [chunk_eq edge sized.symm (by omega) (by omega)] at scanned
    cases scanned
  | case3 chunkBase found inside size read full next scanned room ih =>
    have sized := Option.some.inj ((reads _ _ (below edge) inside (by omega)).symm.trans read)
    have parts := pick_append (P := Inside p kind start stop)
      (Nat.le_add_right chunkBase size) (show chunkBase + size ≤ stop by omega)
    have rest : pick (Inside p kind start stop) (chunkBase + size) stop =
        pick (Inside p kind start stop) (chunkBase + kChunkSize) stop := by
      rcases Nat.lt_or_ge (stop - chunkBase) kChunkSize with last | more
      · rw [pick_empty (by omega), pick_empty (by omega)]
      · rw [← sized, Nat.min_eq_right more]
    rw [rest] at parts
    rw [← parts, List.length_append] at few
    rw [chunk_eq edge sized.symm (by omega) (by omega)] at scanned
    cases scanned
    have later : ∃ j, chunkBase + kChunkSize = start + j * kChunkSize := by
      obtain ⟨j, rfl⟩ := edge
      exact ⟨j + 1, by rw [Nat.succ_mul]; omega⟩
    rw [ih later (by simpa using by omega), ← parts]
    simp
  | case4 chunkBase found outside =>
    rw [pick_empty (by omega)]
    simp

def InRegion (p : Process) (a : Nat) : Prop :=
  ∃ r ∈ p.query a, scannable r ∧ a + 4 ≤ r.stop

instance (p : Process) (a : Nat) : Decidable (InRegion p a) :=
  inferInstanceAs (Decidable (∃ r ∈ p.query a, _))

/-- What a first scan of a range is to find. -/
def Matches (p : Process) (kind : ScanKind) (lowest highest a : Nat) : Prop :=
  a % 4 = 0 ∧ lowest ≤ a ∧ a + 4 ≤ highest ∧ InRegion p a ∧ Wanted p kind a

instance (p : Process) (kind : ScanKind) (lowest highest a : Nat) :
    Decidable (Matches p kind lowest highest a) :=
  inferInstanceAs (Decidable (_ ∧ _ ∧ _ ∧ _ ∧ _))

/-- The dword lies across the edge of two of the chunks in which its region is read. -/
def Straddles (p : Process) (lowest a : Nat) : Prop :=
  ∃ r ∈ p.query a, kChunkSize < (a - max r.baseAddress lowest) % kChunkSize + 4

instance (p : Process) (lowest a : Nat) : Decidable (Straddles p lowest a) :=
  inferInstanceAs (Decidable (∃ r ∈ p.query a, _))

/-- The matches that lie inside one chunk. -/
def Kept (p : Process) (kind : ScanKind) (lowest highest a : Nat) : Prop :=
  Matches p kind lowest highest a ∧ ¬ Straddles p lowest a

instance (p : Process) (kind : ScanKind) (lowest highest a : Nat) :
    Decidable (Kept p kind lowest highest a) :=
  inferInstanceAs (Decidable (_ ∧ _))

def Answers (p : Process) (lowest highest : Nat) : Prop :=
  ∀ a, lowest ≤ a → a < highest → ∃ r, p.query a = some r

/-- ReadProcessMemory reads what lies inside a region the scan is interested in. -/
def Reads (p : Process) : Prop :=
  ∀ r base size, p.query base = some r → scannable r → base + size ≤ r.stop →
    p.read base size = some size

/-- The loop is at the range's lowest address or where a region begins. -/
def AtEdge (p : Process) (lowest address : Nat) : Prop :=
  lowest ≤ address ∧ ∀ r ∈ p.query address, max r.baseAddress lowest = address

theorem atEdge_lowest (p : Process) (lowest : Nat) : AtEdge p lowest lowest := by
  constructor
  · exact Nat.le_refl lowest
  · intro r here
    exact Nat.max_eq_right (p.contains lowest r here).1

/-- The address behind a region is in no region that begins before it. -/
theorem atEdge_stop {p : Process} {lowest address : Nat} {r : Region}
    (here : p.query address = some r) (low : lowest ≤ address) : AtEdge p lowest r.stop := by
  obtain ⟨begun, open_⟩ := p.contains address r here
  constructor
  · omega
  · intro next found
    obtain ⟨first, last⟩ := p.contains r.stop next found
    rcases Nat.lt_or_ge next.baseAddress r.stop with early | late
    · have mine := p.same address r (r.stop - 1) here (by omega) (by omega)
      have other := p.same r.stop next (r.stop - 1) found (by omega) (by omega)
      have one : r = next := Option.some.inj (mine.symm.trans other)
      subst one
      omega
    · omega

theorem kept_inside {p : Process} {kind : ScanKind} {lowest highest address a : Nat} {r : Region}
    (edge : AtEdge p lowest address) (here : p.query address = some r) (wanted : scannable r)
    (low : address ≤ a) (high : a < min r.stop highest) :
    Kept p kind lowest highest a ↔
      Inside p kind (max r.baseAddress lowest) (min r.stop highest) a := by
  have begun := (p.contains address r here).1
  have mine : p.query a = some r := p.same address r a here (by omega) (by omega)
  have above := edge.1
  simp only [Kept, Matches, InRegion, Straddles, Inside, Dword, mine, Option.mem_some_iff,
    exists_eq_left', wanted, true_and, not_lt]
  constructor
  · rintro ⟨⟨aligned, low', fits, within, finite⟩, whole⟩
    exact ⟨⟨aligned, by omega, finite⟩, whole⟩
  · rintro ⟨⟨aligned, fits, finite⟩, whole⟩
    exact ⟨⟨aligned, by omega, by omega, by omega, finite⟩, whole⟩

theorem not_kept {p : Process} {kind : ScanKind} {lowest highest address a : Nat} {r : Region}
    (here : p.query address = some r) (unwanted : ¬ scannable r)
    (low : address ≤ a) (high : a < r.stop) : ¬ Kept p kind lowest highest a := by
  have begun := (p.contains address r here).1
  have mine : p.query a = some r := p.same address r a here (by omega) high
  rintro ⟨⟨-, -, -, ⟨region, found, wanted, -⟩, -⟩, -⟩
  have one : r = region := Option.some.inj (mine.symm.trans found)
  subst one
  exact unwanted wanted

theorem region_eq {p : Process} {kind : ScanKind} {lowest highest address : Nat} {r : Region}
    {found : List Candidate} (edge : AtEdge p lowest address) (here : p.query address = some r)
    (reads : Reads p) (bounded : highest ≤ 2 ^ 32)
    (few : found.length + (pick (Kept p kind lowest highest) address (min r.stop highest)).length <
      kCandidateLimit) :
    (if scannable r then
      scanChunks p kind (min r.stop highest) (max r.baseAddress lowest) found
    else (false, found)) =
      (false, found ++
        (pick (Kept p kind lowest highest) address (min r.stop highest)).map p.candidate) := by
  by_cases wanted : scannable r
  · have same : pick (Kept p kind lowest highest) address (min r.stop highest) =
        pick (Inside p kind address (min r.stop highest)) address (min r.stop highest) := by
      apply pick_congr
      intro a low high
      rw [kept_inside edge here wanted low high, edge.2 r here]
    have ending := p.contains address r here
    rw [same] at few ⊢
    rw [if_pos wanted, edge.2 r here]
    apply scanChunks_eq
    · exact ⟨0, by omega⟩
    · omega
    · intro base size low high fits
      have mine : p.query base = some r := p.same address r base here (by omega) (by omega)
      exact reads r base size mine wanted (by omega)
    · exact few
  · rw [if_neg wanted, pick_none]
    · simp
    · intro a low high
      exact not_kept here wanted low (by omega)

theorem scanRegions_step {p : Process} {kind : ScanKind} {lowest highest address : Nat}
    {r : Region} {found : List Candidate} (inside : address < highest)
    (edge : AtEdge p lowest address) (here : p.query address = some r)
    (reads : Reads p) (bounded : highest ≤ 2 ^ 32)
    (few : found.length + (pick (Kept p kind lowest highest) address (min r.stop highest)).length <
      kCandidateLimit) :
    scanRegions p kind lowest highest address found =
      scanRegions p kind lowest highest (min r.stop highest) (found ++
        (pick (Kept p kind lowest highest) address (min r.stop highest)).map p.candidate) := by
  have ends : (if r.stop ≥ highest then highest else r.stop) = min r.stop highest := by
    split <;> omega
  have after := (p.contains address r here).2
  have stop : min (min r.stop highest) highest = min r.stop highest := by omega
  rw [scanRegions, if_pos inside, here]
  simp only [ends, stop]
  rw [region_eq edge here reads bounded few]
  simp only [Bool.false_eq_true, if_false]
  rw [if_pos (by omega)]

/-- The loop over the regions, from a region's edge on, adds the matches that are kept. -/
theorem scanRegions_eq (p : Process) (kind : ScanKind) (lowest highest address : Nat)
    (found : List Candidate) (edge : address < highest → AtEdge p lowest address)
    (answers : Answers p lowest highest) (reads : Reads p) (bounded : highest ≤ 2 ^ 32)
    (few : found.length + (pick (Kept p kind lowest highest) address highest).length <
      kCandidateLimit) :
    scanRegions p kind lowest highest address found =
      (false, found ++
        (pick (Kept p kind lowest highest) address highest).map p.candidate) := by
  induction left : highest - address using Nat.strong_induction_on generalizing address found with
  | _ n ih =>
    rcases Nat.lt_or_ge address highest with inside | past
    · obtain ⟨low, -⟩ := edge inside
      obtain ⟨r, here⟩ := answers address low inside
      have after := (p.contains address r here).2
      have parts := pick_append (P := Kept p kind lowest highest)
        (show address ≤ min r.stop highest by omega) (Nat.min_le_right _ _)
      rw [← parts, List.length_append] at few
      rw [scanRegions_step inside (edge inside) here reads bounded (by omega)]
      rw [ih (highest - min r.stop highest) (by omega) _ _ ?_ ?_ rfl, ← parts]
      · simp
      · intro within
        rw [Nat.min_eq_left (by omega)]
        exact atEdge_stop here low
      · simpa using by omega
    · rw [scanRegions, if_neg (by omega), pick_empty past]
      simp

/-- The range after the limits of the scanner. -/
def clampedLowest (lowest : Nat) : Nat := max lowest kDefaultLowestAddress

def clampedHighest (highest : Nat) : Nat := min highest kDefaultHighestAddress

/-- The matches in ascending order, none twice, each with the value read there. -/
def Exact (p : Process) (kind : ScanKind) (lowest highest : Nat) (candidates : List Candidate) :
    Prop :=
  (candidates.map Candidate.address).Pairwise (· < ·) ∧
    ∀ c, c ∈ candidates ↔ Matches p kind lowest highest c.address ∧ c.previousRaw = p.raw c.address

theorem start_refuses (s : Scanner) (p : Process) (kind : ScanKind) (lowest highest : Nat)
    (relativeBase : Option Nat) :
    (s.start p kind lowest highest relativeBase).1 = true ↔
      clampedLowest lowest < clampedHighest highest := by
  unfold Scanner.start clampedLowest clampedHighest
  simp only
  split
  · rename_i past
    simp only [Bool.false_eq_true, false_iff]
    omega
  · rename_i under
    simp only [true_iff]
    omega

theorem start_eq {s : Scanner} {p : Process} {kind : ScanKind} {lowest highest : Nat}
    {relativeBase : Option Nat} (inside : clampedLowest lowest < clampedHighest highest)
    (answers : Answers p (clampedLowest lowest) (clampedHighest highest)) (reads : Reads p)
    (few : (pick (Kept p kind (clampedLowest lowest) (clampedHighest highest))
      (clampedLowest lowest) (clampedHighest highest)).length < kCandidateLimit) :
    (s.start p kind lowest highest relativeBase).2.candidates =
      (pick (Kept p kind (clampedLowest lowest) (clampedHighest highest))
        (clampedLowest lowest) (clampedHighest highest)).map p.candidate := by
  have bounded : clampedHighest highest ≤ 2 ^ 32 := by
    unfold clampedHighest kDefaultHighestAddress
    omega
  have scan := scanRegions_eq p kind _ _ _ [] (fun _ => atEdge_lowest p _) answers reads bounded
    (by simpa using few)
  unfold clampedLowest clampedHighest at *
  unfold Scanner.start
  simp only
  rw [if_neg (by omega), scan]
  rfl

theorem pick_exact_iff (p : Process) (kind : ScanKind) (lowest highest : Nat) :
    Exact p kind lowest highest
      ((pick (Kept p kind lowest highest) lowest highest).map p.candidate) ↔
      ∀ a, Matches p kind lowest highest a → ¬ Straddles p lowest a := by
  have addresses : ((pick (Kept p kind lowest highest) lowest highest).map p.candidate).map
      Candidate.address = pick (Kept p kind lowest highest) lowest highest := by
    rw [List.map_map]
    exact List.map_id _
  constructor
  · rintro ⟨-, all⟩ a here straddles
    have member := (all (p.candidate a)).mpr ⟨here, rfl⟩
    obtain ⟨b, kept, same⟩ := List.mem_map.mp member
    have one : b = a := congrArg Candidate.address same
    subst one
    exact (mem_pick.mp kept).2.2.2 straddles
  · intro whole
    constructor
    · rw [addresses]
      exact pick_ascending _ _ _
    · intro c
      rw [List.mem_map]
      constructor
      · rintro ⟨a, kept, rfl⟩
        exact ⟨(mem_pick.mp kept).2.2.1, rfl⟩
      · rintro ⟨here, value⟩
        refine ⟨c.address, mem_pick.mpr ⟨here.2.1, ?_, here, whole _ here⟩, ?_⟩
        · have := here.2.2.1
          omega
        · unfold Process.candidate
          rw [← value]

theorem few_kept {p : Process} {kind : ScanKind} {lowest highest : Nat}
    (few : (pick (Matches p kind lowest highest) lowest highest).length < kCandidateLimit) :
    (pick (Kept p kind lowest highest) lowest highest).length < kCandidateLimit :=
  Nat.lt_of_le_of_lt (pick_length_mono fun _ kept => kept.1) few

/-- Where the range and its regions begin at aligned addresses no dword lies across an
   edge. -/
theorem aligned_not_straddles {p : Process} {lowest a : Nat} (low : lowest % 4 = 0)
    (bases : ∀ r ∈ p.query a, r.baseAddress % 4 = 0) (aligned : a % 4 = 0) :
    ¬ Straddles p lowest a := by
  rintro ⟨r, here, cut⟩
  have begun := (p.contains a r here).1
  have base := bases r here
  unfold kChunkSize at cut
  omega

/-- A first scan lists exactly the matches if and only if none of them lies across the edge
   of two chunks. -/
theorem first_scan_exact_iff (s : Scanner) (p : Process) (kind : ScanKind) (lowest highest : Nat)
    (relativeBase : Option Nat)
    (taken : (s.start p kind lowest highest relativeBase).1 = true)
    (answers : Answers p (clampedLowest lowest) (clampedHighest highest)) (reads : Reads p)
    (few : (pick (Matches p kind (clampedLowest lowest) (clampedHighest highest))
      (clampedLowest lowest) (clampedHighest highest)).length < kCandidateLimit) :
    Exact p kind (clampedLowest lowest) (clampedHighest highest)
        (s.start p kind lowest highest relativeBase).2.candidates ↔
      ∀ a, Matches p kind (clampedLowest lowest) (clampedHighest highest) a →
        ¬ Straddles p (clampedLowest lowest) a := by
  rw [start_refuses] at taken
  rw [start_eq taken answers reads (few_kept few)]
  exact pick_exact_iff p kind _ _

def loneRegion : Region := ⟨0x10000, 0x200000, memCommit, memPrivate, pageReadWrite⟩

def lone : Process where
  query a := if 0x10000 ≤ a ∧ a < 0x210000 then some loneRegion else none
  memory _ := 0
  read _ size := some size
  contains a r here := by
    rw [Option.ite_none_right_eq_some, Option.some.injEq] at here
    obtain ⟨inside, rfl⟩ := here
    exact inside
  same a r b here low high := by
    rw [Option.ite_none_right_eq_some, Option.some.injEq] at here
    obtain ⟨-, rfl⟩ := here
    exact if_pos ⟨low, high⟩

theorem lone_answers {lowest highest : Nat} (low : 0x10000 ≤ lowest) (high : highest ≤ 0x210000) :
    Answers lone lowest highest :=
  fun a _ _ => ⟨loneRegion, if_pos (by omega)⟩

theorem lone_few (kind : ScanKind) {lowest highest : Nat} (small : highest - lowest ≤ 0x200000) :
    (pick (Matches lone kind lowest highest) lowest highest).length < kCandidateLimit := by
  have bound := pick_length_le (Matches lone kind lowest highest) lowest highest
  unfold kCandidateLimit
  omega

theorem lone_base {a : Nat} : ∀ r ∈ lone.query a, r.baseAddress % 4 = 0 := by
  intro r here
  rw [Option.mem_def, lone, Option.ite_none_right_eq_some, Option.some.injEq] at here
  rw [← here.2]
  rfl

theorem lone_reads : Reads lone := fun _ _ _ _ _ _ => rfl

theorem first_scan_exact_aligned :
    let s : Scanner := ⟨[], .int32, false, none, 0, 0⟩
    Exact lone .int32 0x10000 0x20000 (s.start lone .int32 0 0x20000 none).2.candidates := by
  intro s
  have taken : (s.start lone .int32 0 0x20000 none).1 = true :=
    (start_refuses s lone .int32 0 0x20000 none).mpr (by decide)
  refine (first_scan_exact_iff s lone .int32 0 0x20000 none taken ?_ lone_reads ?_).mpr ?_
  · exact lone_answers (by decide) (by decide)
  · exact lone_few .int32 (by decide)
  · exact fun a here => aligned_not_straddles (by decide) lone_base here.1

/-- The dword at 0x110000 lies across the edge of the two chunks and is missed. -/
theorem first_scan_misses :
    let s : Scanner := ⟨[], .int32, false, none, 0, 0⟩
    (s.start lone .int32 0x10001 0x210000 none).1 = true ∧
      Answers lone (clampedLowest 0x10001) (clampedHighest 0x210000) ∧ Reads lone ∧
      (pick (Matches lone .int32 (clampedLowest 0x10001) (clampedHighest 0x210000))
        (clampedLowest 0x10001) (clampedHighest 0x210000)).length < kCandidateLimit ∧
      ¬ Exact lone .int32 (clampedLowest 0x10001) (clampedHighest 0x210000)
        (s.start lone .int32 0x10001 0x210000 none).2.candidates := by
  intro s
  have inside : clampedLowest 0x10001 < clampedHighest 0x210000 := by decide
  have answers : Answers lone (clampedLowest 0x10001) (clampedHighest 0x210000) :=
    lone_answers (by decide) (by decide)
  have few : (pick (Matches lone .int32 (clampedLowest 0x10001) (clampedHighest 0x210000))
      (clampedLowest 0x10001) (clampedHighest 0x210000)).length < kCandidateLimit :=
    lone_few .int32 (by decide)
  refine ⟨(start_refuses s lone .int32 _ _ none).mpr inside, answers, lone_reads, few, ?_⟩
  rw [start_eq inside answers lone_reads (few_kept few), pick_exact_iff]
  intro whole
  exact whole 0x110000 (by decide) (by decide)

end MemoryScan
