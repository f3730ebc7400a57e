import GameSecurity.MemoryScan
import Mathlib.Data.List.TakeWhile

/- UnknownScanner32::Filter: one region query and one chunk read serve a run of candidates.
   The tool is a 32-bit program, so its addresses wrap at 2 ^ 32. -/
namespace MemoryFilter
open TeleportMailbox MemoryScan

inductive FilterKind where
  | changed
  | unchanged
  | increased
  | decreased
  deriving DecidableEq, Repr

def word : Nat := 2 ^ 32

def ordered (filter : FilterKind) (oldValue currentValue : Int) : Bool :=
  if filter = .increased then currentValue > oldValue else currentValue < oldValue

def matchesFilter (kind : ScanKind) (oldRaw currentRaw : Single) (filter : FilterKind) : Bool :=
  match filter with
  | .changed => oldRaw ≠ currentRaw
  | .unchanged => oldRaw = currentRaw
  | _ =>
    match kind with
    | .int32 => ordered filter oldRaw.toInt currentRaw.toInt
    | .float32 =>
      if ¬ isfinite oldRaw ∨ ¬ isfinite currentRaw then false
      else ordered filter (signed oldRaw) (signed currentRaw)

def writable (r : Region) : Bool := r.state = memCommit ∧ isReadableWritableProtection r.protect

section Call

variable (p : Process) (kind : ScanKind) (filter : FilterKind)

def keep (chunkBase : Nat) (bytesRead : Option Nat) (c : Candidate) : Option Candidate :=
  match bytesRead with
  | none => none
  | some bytesRead =>
    if c.address - chunkBase + 4 ≤ bytesRead then
      let currentRaw := p.raw c.address
      if matchesFilter kind c.previousRaw currentRaw filter then some ⟨c.address, currentRaw⟩
      else none
    else none

/-- The inner loop: the candidates from the index on, and what is kept of those in the
   chunk. -/
def filterChunk (chunkBase chunkEnd : Nat) (bytesRead : Option Nat) :
    List Candidate → List Candidate → List Candidate × List Candidate
  | [], filtered => ([], filtered)
  | c :: rest, filtered =>
    if c.address < chunkBase ∨ c.address ≥ chunkEnd then (c :: rest, filtered)
    else
      filterChunk chunkBase chunkEnd bytesRead rest
        (filtered ++ (keep p kind filter chunkBase bytesRead c).toList)

def regionEnd (r : Region) : Nat := (r.baseAddress + r.regionSize) % word

def chunkBase (r : Region) (candidateAddress : Nat) : Nat :=
  max r.baseAddress (candidateAddress - candidateAddress % kChunkSize)

def chunkEnd (r : Region) (chunkBase : Nat) : Nat :=
  min (regionEnd r) ((chunkBase + kChunkSize) % word)

/-- The outer loop; none: it has not ended within this many rounds. -/
def filterFrom : Nat → List Candidate → List Candidate → Option (List Candidate)
  | 0, _, _ => none
  | _ + 1, [], filtered => some filtered
  | rounds + 1, c :: rest, filtered =>
    match p.query c.address with
    | none => filterFrom rounds rest filtered
    | some mbi =>
      if mbi.state ≠ memCommit ∨ ¬ isReadableWritableProtection mbi.protect then
        filterFrom rounds rest filtered
      else
        let chunkBase := chunkBase mbi c.address
        let chunkEnd := chunkEnd mbi chunkBase
        let requested := (chunkEnd + (word - chunkBase)) % word
        let (remaining, filtered) :=
          filterChunk p kind filter chunkBase chunkEnd (p.read chunkBase requested) (c :: rest)
            filtered
        filterFrom rounds remaining filtered

end Call

/-- none: the call does not end within this many rounds of its outer loop. -/
def filterScanner (s : Scanner) (p : Process) (filter : FilterKind) (rounds : Nat) :
    Option (Bool × Scanner) :=
  if s.candidates = [] then some (false, s)
  else (filterFrom p s.kind filter rounds s.candidates []).map fun filtered =>
    (true, { s with candidates := filtered })

def refresh (p : Process) (kind : ScanKind) (filter : FilterKind) (c : Candidate) :
    Option Candidate :=
  match p.query c.address with
  | none => none
  | some r =>
    if writable r ∧ matchesFilter kind c.previousRaw (p.raw c.address) filter then
      some ⟨c.address, p.raw c.address⟩
    else none

def Filtered (s : Scanner) (p : Process) (filter : FilterKind) : Prop :=
  ∃ rounds, filterScanner s p filter rounds =
    some (true, { s with candidates := s.candidates.filterMap (refresh p s.kind filter) })

def Paged (p : Process) : Prop :=
  ∀ a r, p.query a = some r →
    r.baseAddress % 0x1000 = 0 ∧ r.regionSize % 0x1000 = 0 ∧ r.stop ≤ word

/-- ReadProcessMemory reads what lies inside a readable and writable region. -/
def ReadsInside (p : Process) : Prop :=
  ∀ r base size, p.query base = some r → writable r → base + size ≤ r.stop →
    p.read base size = some size

def Listed (candidates : List Candidate) : Prop :=
  ∀ c ∈ candidates, c.address % 4 = 0 ∧ c.address < kDefaultHighestAddress

/-- The candidate lies in a readable and writable region that ends at 2 ^ 32. -/
def AtTop (p : Process) (c : Candidate) : Prop :=
  ∃ r ∈ p.query c.address, writable r ∧ r.stop = word

instance (p : Process) (c : Candidate) : Decidable (AtTop p c) :=
  inferInstanceAs (Decidable (∃ r ∈ p.query c.address, _))

section Chunk

variable {p : Process} {kind : ScanKind} {filter : FilterKind}

theorem filterChunk_eq (chunkBase chunkEnd : Nat) (bytesRead : Option Nat)
    (candidates filtered : List Candidate) :
    filterChunk p kind filter chunkBase chunkEnd bytesRead candidates filtered =
      (candidates.dropWhile fun c => chunkBase ≤ c.address ∧ c.address < chunkEnd,
        filtered ++ (candidates.takeWhile fun c =>
          chunkBase ≤ c.address ∧ c.address < chunkEnd).filterMap
            (keep p kind filter chunkBase bytesRead)) := by
  induction candidates generalizing filtered with
  | nil => simp [filterChunk]
  | cons c rest ih =>
    rw [filterChunk]
    by_cases outside : c.address < chunkBase ∨ c.address ≥ chunkEnd
    · have past : ¬ (chunkBase ≤ c.address ∧ c.address < chunkEnd) := by omega
      rw [if_pos outside, List.dropWhile_cons_of_neg (by simpa using past),
        List.takeWhile_cons_of_neg (by simpa using past)]
      simp
    · have inside : chunkBase ≤ c.address ∧ c.address < chunkEnd := by omega
      rw [if_neg outside, ih, List.dropWhile_cons_of_pos (by simpa using inside),
        List.takeWhile_cons_of_pos (by simpa using inside), List.filterMap_cons]
      cases keep p kind filter chunkBase bytesRead c with
      | none => simp
      | some kept => simp

/-- The chunk of a candidate whose region ends below 2 ^ 32: it lies in the region, holds the
   candidate, and holds a whole number of dwords. -/
structure ChunkOf (r : Region) (a base stop : Nat) : Prop where
  low : r.baseAddress ≤ base
  high : stop ≤ r.stop
  here : base ≤ a ∧ a < stop
  small : stop < word
  aligned : base % 4 = 0 ∧ stop % 4 = 0

theorem chunk_of {r : Region} {a : Nat} (paged : Paged p) (found : p.query a = some r)
    (below : a < kDefaultHighestAddress) (top : r.stop ≠ word) :
    ChunkOf r a (chunkBase r a) (chunkEnd r (chunkBase r a)) := by
  obtain ⟨first, last⟩ := p.contains a r found
  obtain ⟨base, size, fits⟩ := paged a r found
  unfold kDefaultHighestAddress at below
  unfold Region.stop word at *
  have edge : regionEnd r = r.baseAddress + r.regionSize := by
    unfold regionEnd word
    exact Nat.mod_eq_of_lt (by omega)
  have chunk : (chunkBase r a + kChunkSize) % word = chunkBase r a + kChunkSize := by
    apply Nat.mod_eq_of_lt
    unfold chunkBase kChunkSize word
    omega
  unfold chunkEnd
  rw [edge, chunk]
  unfold chunkBase kChunkSize
  constructor
  case low => omega
  case high =>
    unfold Region.stop
    omega
  case here => omega
  case small =>
    unfold word
    omega
  case aligned => omega

theorem keep_eq_refresh {r : Region} {a base stop : Nat} (found : p.query a = some r)
    (chunk : ChunkOf r a base stop) (wanted : writable r) {c : Candidate}
    (aligned : c.address % 4 = 0) (inside : base ≤ c.address ∧ c.address < stop) :
    keep p kind filter base (some (stop - base)) c = refresh p kind filter c := by
  have low := chunk.low
  have high := chunk.high
  have whole := chunk.aligned
  have mine : p.query c.address = some r := p.same a r c.address found (by omega) (by omega)
  have fits : c.address - base + 4 ≤ stop - base := by omega
  rw [keep, refresh, mine]
  simp only [fits, if_true, wanted, true_and]

theorem refresh_unwritable {c : Candidate}
    (unwritable : ∀ r, p.query c.address = some r → ¬ writable r) :
    refresh p kind filter c = none := by
  unfold refresh
  split
  · rfl
  · rename_i r found
    rw [if_neg fun both => unwritable r found both.1]

theorem round_serves (kind : ScanKind) (filter : FilterKind) (paged : Paged p)
    (reads : ReadsInside p) {c : Candidate} {rest : List Candidate} (listed : Listed (c :: rest)) (free : ¬ AtTop p c) :
    ∃ served remaining, c :: rest = served ++ remaining ∧ served ≠ [] ∧
      (∀ d ∈ served, ¬ AtTop p d) ∧
      ∀ rounds filtered, filterFrom p kind filter (rounds + 1) (c :: rest) filtered =
        filterFrom p kind filter rounds remaining
          (filtered ++ served.filterMap (refresh p kind filter)) := by
  by_cases wanted : ∃ r, p.query c.address = some r ∧ writable r
  · obtain ⟨r, found, wanted⟩ := wanted
    have top : r.stop ≠ word := fun top => free ⟨r, found, wanted, top⟩
    have chunk := chunk_of paged found (listed c (List.mem_cons_self ..)).2 top
    generalize based : chunkBase r c.address = base at chunk
    generalize ending : chunkEnd r base = stop at chunk
    have low := chunk.low
    have high := chunk.high
    have here := chunk.here
    have small := chunk.small
    have requested : (stop + (word - base)) % word = stop - base := by
      unfold word at *
      omega
    have mine : p.query base = some r :=
      p.same c.address r base found low (by omega)
    have read := reads r base (stop - base) mine wanted (by omega)
    let inChunk : Candidate → Bool := fun d => base ≤ d.address ∧ d.address < stop
    have inside : ∀ d ∈ (c :: rest).takeWhile inChunk, base ≤ d.address ∧ d.address < stop := by
      intro d member
      simpa [inChunk] using List.mem_takeWhile_imp member
    refine ⟨(c :: rest).takeWhile inChunk, (c :: rest).dropWhile inChunk,
      List.takeWhile_append_dropWhile.symm, ?_, ?_, ?_⟩
    · rw [List.takeWhile_cons_of_pos (by simpa [inChunk] using here)]
      exact List.cons_ne_nil _ _
    · rintro d member ⟨other, found', -, top'⟩
      obtain ⟨low', high'⟩ := inside d member
      have again := p.same c.address r d.address found (by omega) (by omega)
      rw [Option.some.inj (again.symm.trans found')] at top
      exact top top'
    · intro rounds filtered
      have served : ((c :: rest).takeWhile inChunk).filterMap
          (keep p kind filter base (some (stop - base))) =
          ((c :: rest).takeWhile inChunk).filterMap (refresh p kind filter) := by
        apply List.filterMap_congr
        intro d member
        have listed' := listed d (List.takeWhile_subset _ member)
        exact keep_eq_refresh found chunk wanted listed'.1 (inside d member)
      have usable : ¬ (r.state ≠ memCommit ∨ ¬ isReadableWritableProtection r.protect) := by
        simpa [writable] using wanted
      rw [filterFrom, found]
      simp only
      rw [if_neg usable, based, ending, requested, read, filterChunk_eq, served]
  · have unwritable : ∀ r, p.query c.address = some r → ¬ writable r :=
      fun r found wanted' => wanted ⟨r, found, wanted'⟩
    refine ⟨[c], rest, rfl, List.cons_ne_nil _ _, ?_, ?_⟩
    · intro d member
      rw [List.mem_singleton.mp member]
      exact free
    · intro rounds filtered
      rw [List.filterMap_cons, refresh_unwritable unwritable, filterFrom]
      simp only [List.filterMap_nil, List.append_nil]
      split
      · rfl
      · rename_i r found
        rw [if_pos (by_contra fun usable => unwritable r found ?_)]
        simpa [writable] using usable

theorem round_stuck {c : Candidate} {rest filtered : List Candidate} (stuck : AtTop p c)
    (rounds : Nat) : filterFrom p kind filter (rounds + 1) (c :: rest) filtered =
      filterFrom p kind filter rounds (c :: rest) filtered := by
  obtain ⟨r, found, wanted, top⟩ := stuck
  have ending : chunkEnd r (chunkBase r c.address) = 0 := by
    unfold Region.stop at top
    unfold chunkEnd regionEnd
    rw [top, Nat.mod_self, Nat.zero_min]
  have usable : ¬ (r.state ≠ memCommit ∨ ¬ isReadableWritableProtection r.protect) := by
    simpa [writable] using wanted
  rw [filterFrom, found]
  simp only
  rw [if_neg usable, ending, filterChunk, if_pos (Or.inr (Nat.zero_le _))]

theorem filterFrom_ends (kind : ScanKind) (filter : FilterKind) (paged : Paged p)
    (reads : ReadsInside p) (candidates filtered : List Candidate) (listed : Listed candidates)
    (free : ∀ c ∈ candidates, ¬ AtTop p c) :
    ∃ rounds, filterFrom p kind filter rounds candidates filtered =
      some (filtered ++ candidates.filterMap (refresh p kind filter)) := by
  induction size : candidates.length using Nat.strong_induction_on
    generalizing candidates filtered with
  | _ n ih =>
    cases candidates with
    | nil => exact ⟨1, by simp [filterFrom]⟩
    | cons c rest =>
      obtain ⟨served, remaining, parts, some_, -, round⟩ :=
        round_serves kind filter paged reads listed
          (free c (List.mem_cons_self ..))
      have shorter : remaining.length < n := by
        have grown := List.length_pos_of_ne_nil some_
        rw [← size, parts, List.length_append]
        omega
      rw [parts] at listed free
      obtain ⟨rounds, ended⟩ := ih _ shorter remaining
        (filtered ++ served.filterMap (refresh p kind filter))
        (fun d member => listed d (List.mem_append_right _ member))
        (fun d member => free d (List.mem_append_right _ member)) rfl
      refine ⟨rounds + 1, ?_⟩
      rw [round, ended, parts, List.filterMap_append, List.append_assoc]

theorem filterFrom_stuck (paged : Paged p) (reads : ReadsInside p) (rounds : Nat)
    (candidates filtered : List Candidate) (listed : Listed candidates)
    (stuck : ∃ c ∈ candidates, AtTop p c) :
    filterFrom p kind filter rounds candidates filtered = none := by
  induction rounds generalizing candidates filtered with
  | zero => cases candidates <;> rfl
  | succ rounds ih =>
    cases candidates with
    | nil =>
      obtain ⟨c, member, -⟩ := stuck
      cases member
    | cons c rest =>
      by_cases top : AtTop p c
      · rw [round_stuck top]
        exact ih _ _ listed stuck
      · obtain ⟨served, remaining, parts, -, free, round⟩ :=
          round_serves kind filter paged reads listed top
        rw [round]
        rw [parts] at listed stuck
        apply ih
        · exact fun d member => listed d (List.mem_append_right _ member)
        · obtain ⟨d, member, top'⟩ := stuck
          rcases List.mem_append.mp member with early | late
          · exact absurd top' (free d early)
          · exact ⟨d, late, top'⟩

end Chunk

theorem filtered_free {s : Scanner} {p : Process} {filter : FilterKind} (paged : Paged p)
    (reads : ReadsInside p) (some_ : s.candidates ≠ []) (listed : Listed s.candidates)
    (free : ∀ c ∈ s.candidates, ¬ AtTop p c) : Filtered s p filter := by
  obtain ⟨rounds, ended⟩ := filterFrom_ends s.kind filter paged reads s.candidates []
    listed free
  refine ⟨rounds, ?_⟩
  rw [filterScanner, if_neg some_, ended]
  rfl

theorem not_filtered {s : Scanner} {p : Process} {filter : FilterKind} (paged : Paged p)
    (reads : ReadsInside p) (listed : Listed s.candidates)
    (stuck : ∃ c ∈ s.candidates, AtTop p c) : ¬ Filtered s p filter := by
  rintro ⟨rounds, ended⟩
  have some_ : s.candidates ≠ [] := by
    obtain ⟨c, member, -⟩ := stuck
    exact List.ne_nil_of_mem member
  rw [filterScanner, if_neg some_, filterFrom_stuck paged reads rounds _ _ listed stuck] at ended
  cases ended

/-- A filter ends with what its candidates give one by one if and only if none of them lies
   in a readable and writable region that ends at 2 ^ 32. -/
theorem filter_exact_iff (s : Scanner) (p : Process) (filter : FilterKind) (paged : Paged p)
    (reads : ReadsInside p) (some_ : s.candidates ≠ []) (listed : Listed s.candidates) :
    Filtered s p filter ↔ ∀ c ∈ s.candidates, ¬ AtTop p c := by
  constructor
  · intro done c member top
    exact not_filtered paged reads listed ⟨c, member, top⟩ done
  · exact filtered_free paged reads some_ listed

def holding (r : Region) : Process where
  query a := if r.baseAddress ≤ a ∧ a < r.stop then some r else none
  memory _ := 0
  read _ size := some size
  contains a r' here := by
    rw [Option.ite_none_right_eq_some, Option.some.injEq] at here
    obtain ⟨inside, rfl⟩ := here
    exact inside
  same a r' b here low high := by
    rw [Option.ite_none_right_eq_some, Option.some.injEq] at here
    obtain ⟨-, rfl⟩ := here
    exact if_pos ⟨low, high⟩

theorem holding_paged {r : Region} (base : r.baseAddress % 0x1000 = 0)
    (size : r.regionSize % 0x1000 = 0) (fits : r.stop ≤ word) : Paged (holding r) := by
  intro a r' here
  rw [holding, Option.ite_none_right_eq_some, Option.some.injEq] at here
  rw [← here.2]
  exact ⟨base, size, fits⟩

theorem holding_reads (r : Region) : ReadsInside (holding r) := fun _ _ _ _ _ _ => rfl

def listing (candidates : List Candidate) : Scanner := ⟨candidates, .int32, false, none, 0, 0⟩

instance (candidates : List Candidate) : Decidable (Listed candidates) :=
  inferInstanceAs (Decidable (∀ c ∈ candidates, _))

theorem filter_exact_turns :
    let s := listing [⟨0x1FFFFC, 0⟩, ⟨0x10000, 0⟩, ⟨0x100000, 7⟩]
    Filtered s (holding loneRegion) .unchanged ∧
      s.candidates.filterMap (refresh (holding loneRegion) .int32 .unchanged) =
        [⟨0x1FFFFC, 0⟩, ⟨0x10000, 0⟩] := by
  intro s
  have paged : Paged (holding loneRegion) := holding_paged (by decide) (by decide) (by decide)
  refine ⟨(filter_exact_iff s (holding loneRegion) .unchanged paged (holding_reads _)
    (List.cons_ne_nil _ _) (by decide)).mpr ?_, by decide⟩
  decide

def topRegion : Region := ⟨0xFFE00000, 0x200000, memCommit, memPrivate, pageReadWrite⟩

/-- The end of the region wraps to 0: the chunk is empty and the loop does not advance. -/
theorem filter_stuck :
    let s := listing [⟨0xFFE00000, 0⟩]
    Paged (holding topRegion) ∧ ReadsInside (holding topRegion) ∧ Listed s.candidates ∧
      ¬ Filtered s (holding topRegion) .unchanged := by
  intro s
  have paged : Paged (holding topRegion) := holding_paged (by decide) (by decide) (by decide)
  have listed : Listed s.candidates := by decide
  refine ⟨paged, holding_reads _, listed, not_filtered paged (holding_reads _) listed ?_⟩
  exact ⟨⟨0xFFE00000, 0⟩, List.mem_singleton_self _, by decide⟩

end MemoryFilter
