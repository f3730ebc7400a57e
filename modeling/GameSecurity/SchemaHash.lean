import GameSecurity.LinkedWalk
import GameSecurity.RuntimeConfig
import Mathlib.Data.FinEnum

/- hash_elements of analysis.cpp: the elements of a hash table in another process, from its
   buckets and from the free list of its memory pool. -/
namespace SchemaHash
open AsciiText RuntimeConfig LinkedWalk

abbrev Address := UInt64

/-- What reads of each size find at an address; none: read_raw fails. -/
structure ProcessMemory where
  int32 : Address → Option Int32
  uint64 : Address → Option UInt64

def readOrThrow {α : Type} (read : Address → Option α) (a : Address) : Except Text α :=
  match read a with
  | none =>
    .error (text "failed to read process memory at 0x" ++
      (numeral 16 a.toNat).map fun c => if islower c then c - 32 else c)
  | some value => .ok value

def plausibleUserPointer (p : Address) : Bool := p ≥ 0x10000 ∧ p < 0x0000800000000000

def hardCap : Nat := 1000000

def positive (raw : Int32) : Nat := raw.toInt.toNat

structure Collected where
  count : Nat
  result : List Address
  deriving DecidableEq, Repr

def Collected.push (c : Collected) (data : Address) : Collected :=
  if data ≠ 0 then ⟨c.count + 1, c.result ++ [data]⟩ else c

def Collected.open (c : Collected) (limit : Nat) : Prop := c.count < limit ∧ c.count < hardCap

instance (c : Collected) (limit : Nat) : Decidable (c.open limit) :=
  inferInstanceAs (Decidable (_ ∧ _))

section Table

variable (mem : ProcessMemory)

def readNode (dataOffset nextOffset node : Address) : Option (Address × Address) := do
  let data ← mem.uint64 (node + dataOffset)
  let next ← mem.uint64 (node + nextOffset)
  return (data, next)

/-- The chain of one bucket; the first number is what the guard still allows. -/
def walkChain (nodeData nodeNext : Address) (blocks : Nat) :
    Nat → Address → Collected → Collected
  | 0, _, c => c
  | guard + 1, cur, c =>
    if cur ≠ 0 ∧ c.open blocks then
      match readNode mem nodeData nodeNext cur with
      | none => c
      | some (data, next) => walkChain nodeData nodeNext blocks guard next (c.push data)
    else c

def walkBuckets (bucket : Address → Address) (nodeData nodeNext : Address) (blocks : Nat) :
    Nat → Address → Collected → Collected
  | 0, _, c => c
  | left + 1, i, c =>
    if c.open blocks then
      match mem.uint64 (bucket i) with
      | none => walkBuckets bucket nodeData nodeNext blocks left (i + 1) c
      | some cur =>
        walkBuckets bucket nodeData nodeNext blocks left (i + 1)
          (walkChain mem nodeData nodeNext blocks hardCap cur c)
    else c

def readBlob (l : LayoutConfig) (blob : Address) : Option (Address × Address) := do
  let data ← mem.uint64 (blob + (← (l.get (text "hash_blob.data")).toOption))
  let next ← mem.uint64 (blob + (← (l.get (text "hash_blob.next")).toOption))
  return (data, next)

/-- The free list has no guard; none: it has not ended within this many rounds. -/
def walkBlobs (l : LayoutConfig) (peak : Nat) : Nat → Address → Collected → Option Collected
  | 0, _, _ => none
  | rounds + 1, blob, c =>
    if blob ≠ 0 ∧ c.open peak then
      match readBlob mem l blob with
      | none => some c
      | some (data, next) => walkBlobs l peak rounds next (c.push data)
    else some c

def freeBlocksHead (entry : Address) (l : LayoutConfig) : Address :=
  (do mem.uint64 (entry + (← (l.get (text "memory_pool.free_blocks_head_next")).toOption))).getD 0

/-- remove_if at the end: implausible pointers and those seen before go. -/
def keepNew : List Address → List Address → List Address
  | _, [] => []
  | seen, p :: rest =>
    if plausibleUserPointer p = false ∨ p ∈ seen then keepNew seen rest
    else p :: keepNew (p :: seen) rest

/-- `.ok none`: the free list has not ended within this many rounds. -/
def hashElements (hashBase : Address) (l : LayoutConfig) (rounds : Nat) :
    Except Text (Option (List Address)) := do
  let entry := hashBase + (← l.get (text "hash.entry_mem"))
  let blocksRaw ← readOrThrow mem.int32 (entry + (← l.get (text "memory_pool.blocks_allocated")))
  let peakRaw ← readOrThrow mem.int32 (entry + (← l.get (text "memory_pool.peak_allocated")))
  let blocks := positive blocksRaw
  let peak := positive peakRaw
  let bucketBase := hashBase + (← l.get (text "hash.buckets"))
  let bucketCount ← l.get (text "hash.bucket_count")
  let bucketStride ← l.get (text "hash.bucket_stride")
  let firstUncommitted ← l.get (text "hash.bucket.first_uncommitted")
  let nodeNext ← l.get (text "hash_node.next")
  let nodeData ← l.get (text "hash_node.data")
  let bucket := fun i => bucketBase + i * bucketStride + firstUncommitted
  let allocated := walkBuckets mem bucket nodeData nodeNext blocks bucketCount.toNat 0 ⟨0, []⟩
  let free := walkBlobs mem l peak rounds (freeBlocksHead mem entry l) ⟨0, allocated.result⟩
  return free.map fun free => keepNew [] free.result

end Table

def neededKeys : List Text :=
  [text "hash.entry_mem", text "memory_pool.blocks_allocated", text "memory_pool.peak_allocated",
    text "hash.buckets", text "hash.bucket_count", text "hash.bucket_stride",
    text "hash.bucket.first_uncommitted", text "hash_node.next", text "hash_node.data"]

def HasKeys (l : LayoutConfig) : Prop := ∀ key ∈ neededKeys, ∃ value, l.values key = some value

def offset (l : LayoutConfig) (key : String) : Address := (l.values (text key)).getD 0

def entryMem (hashBase : Address) (l : LayoutConfig) : Address :=
  hashBase + offset l "hash.entry_mem"

def readBlocks (mem : ProcessMemory) (hashBase : Address) (l : LayoutConfig) : Option Int32 :=
  mem.int32 (entryMem hashBase l + offset l "memory_pool.blocks_allocated")

def readPeak (mem : ProcessMemory) (hashBase : Address) (l : LayoutConfig) : Option Int32 :=
  mem.int32 (entryMem hashBase l + offset l "memory_pool.peak_allocated")

def Allowed (mem : ProcessMemory) (hashBase : Address) (l : LayoutConfig) :
    Except Text (Option (List Address)) → Prop
  | .error _ => readBlocks mem hashBase l = none ∨ readPeak mem hashBase l = none
  | .ok none => False
  | .ok (some result) => result.Nodup ∧ ∀ p ∈ result, plausibleUserPointer p

def EndsWell (mem : ProcessMemory) (hashBase : Address) (l : LayoutConfig) : Prop :=
  ∃ rounds, Allowed mem hashBase l (hashElements mem hashBase l rounds)

/-- A blob's link to the next one; it weighs one if the blob carries data. -/
def blobLink (mem : ProcessMemory) (l : LayoutConfig) (blob : Address) : Option (Address × Nat) :=
  if blob = 0 then none
  else (readBlob mem l blob).map fun read => (read.2, if read.1 ≠ 0 then 1 else 0)

/-- Both counters can be read, and before the free list has given as many data pointers as
   the loop takes it comes to a cycle of blobs without data. -/
def CyclesEmpty (mem : ProcessMemory) (hashBase : Address) (l : LayoutConfig) : Prop :=
  readBlocks mem hashBase l ≠ none ∧ ∃ peak, readPeak mem hashBase l = some peak ∧
    EmptyCycle (blobLink mem l) (min (positive peak) hardCap)
      (freeBlocksHead mem (entryMem hashBase l) l)

variable {mem : ProcessMemory} {l : LayoutConfig} {hashBase : Address}

theorem open_iff {c : Collected} {limit : Nat} : c.open limit ↔ c.count < min limit hardCap := by
  unfold Collected.open
  omega

@[simp] theorem push_count (c : Collected) (data : Address) :
    (c.push data).count = c.count + if data ≠ 0 then 1 else 0 := by
  unfold Collected.push
  split <;> rfl

theorem blobLink_iff {blob next : Address} {w : Nat} :
    blobLink mem l blob = some (next, w) ↔
      blob ≠ 0 ∧ ∃ data, readBlob mem l blob = some (data, next) ∧
        w = if data ≠ 0 then 1 else 0 := by
  unfold blobLink
  by_cases null : blob = 0
  · simp [null]
  · rw [if_neg null]
    simp only [Option.map_eq_some_iff, Prod.exists, Prod.mk.injEq]
    constructor
    · rintro ⟨data, _, read, rfl, rfl⟩
      exact ⟨null, data, read, rfl⟩
    · rintro ⟨-, data, read, rfl⟩
      exact ⟨data, next, read, rfl, rfl⟩

theorem walkBlobs_succ_none_iff {peak rounds : Nat} {blob : Address} {c : Collected} :
    walkBlobs mem l peak (rounds + 1) blob c = none ↔
      c.open peak ∧ blob ≠ 0 ∧ ∃ data next, readBlob mem l blob = some (data, next) ∧
        walkBlobs mem l peak rounds next (c.push data) = none := by
  rw [walkBlobs]
  by_cases going : blob ≠ 0 ∧ c.open peak
  · rw [if_pos going]
    cases readBlob mem l blob with
    | none => simp
    | some read =>
      constructor
      · exact fun rest => ⟨going.2, going.1, read.1, read.2, rfl, rest⟩
      · rintro ⟨-, -, data, next, same, rest⟩
        cases same
        exact rest
  · rw [if_neg going]
    constructor
    · intro impossible
      cases impossible
    · exact fun stays => absurd ⟨stays.2.1, stays.1⟩ going

theorem walkBlobs_endless_iff {peak : Nat} {blob : Address} {c : Collected} :
    (∀ rounds, walkBlobs mem l peak rounds blob c = none) ↔
      ∀ n, ∃ b w, walk (blobLink mem l) n blob = some (b, w) ∧
        c.count + w < min peak hardCap := by
  constructor
  · intro never n
    induction n generalizing blob c with
    | zero =>
      have first := (walkBlobs_succ_none_iff.mp (never 1)).1
      exact ⟨blob, 0, rfl, open_iff.mp first⟩
    | succ n ih =>
      obtain ⟨-, some_, data, next, read, -⟩ := walkBlobs_succ_none_iff.mp (never 1)
      have later : ∀ rounds, walkBlobs mem l peak rounds next (c.push data) = none := by
        intro rounds
        obtain ⟨-, -, data', next', read', rest⟩ := walkBlobs_succ_none_iff.mp (never (rounds + 1))
        rw [read] at read'
        cases read'
        exact rest
      obtain ⟨b, w, walked, below⟩ := ih later
      rw [push_count, Nat.add_assoc] at below
      exact ⟨b, _, walk_succ_iff.mpr
        ⟨next, _, w, blobLink_iff.mpr ⟨some_, data, read, rfl⟩, walked, rfl⟩, below⟩
  · intro endless rounds
    induction rounds generalizing blob c with
    | zero => rfl
    | succ rounds ih =>
      obtain ⟨b, w, walked, below⟩ := endless 0
      cases walked
      obtain ⟨b', w', further, -⟩ := endless 1
      obtain ⟨next, weight, -, linked, -⟩ := walk_succ_iff.mp further
      obtain ⟨some_, data, read, rfl⟩ := blobLink_iff.mp linked
      refine walkBlobs_succ_none_iff.mpr ⟨open_iff.mpr below, some_, data, next, read, ih ?_⟩
      intro n
      obtain ⟨b, w, walked, below⟩ := endless (n + 1)
      obtain ⟨next', weight', more, linked', rest, rfl⟩ := walk_succ_iff.mp walked
      rw [linked] at linked'
      cases linked'
      rw [← Nat.add_assoc] at below
      exact ⟨b, more, rest, by rwa [push_count]⟩

theorem walkBlobs_never_iff {peak : Nat} {blob : Address} {result : List Address} :
    (∀ rounds, walkBlobs mem l peak rounds blob ⟨0, result⟩ = none) ↔
      EmptyCycle (blobLink mem l) (min peak hardCap) blob := by
  rw [← endless_iff, walkBlobs_endless_iff]
  simp only [Nat.zero_add]
  rfl

theorem keepNew_spec (seen pointers : List Address) :
    (keepNew seen pointers).Nodup ∧
      ∀ p ∈ keepNew seen pointers, plausibleUserPointer p = true ∧ p ∉ seen := by
  induction pointers generalizing seen with
  | nil => simp [keepNew]
  | cons p rest ih =>
    rw [keepNew]
    split
    · exact ih seen
    · rename_i kept
      rw [not_or, Bool.not_eq_false] at kept
      obtain ⟨distinct, fresh⟩ := ih (p :: seen)
      constructor
      · rw [List.nodup_cons]
        exact ⟨fun again => (fresh p again).2 (List.mem_cons_self ..), distinct⟩
      · intro q member
        rcases List.mem_cons.mp member with rfl | later
        · exact kept
        · exact ⟨(fresh q later).1, fun old => (fresh q later).2 (List.mem_cons_of_mem _ old)⟩

theorem get_offset {key : String} (keys : HasKeys l) (needed : text key ∈ neededKeys) :
    l.get (text key) = .ok (offset l key) := by
  obtain ⟨value, here⟩ := keys _ needed
  rw [LayoutConfig.get, offset, here]
  rfl

theorem readOrThrow_some {α : Type} {read : Address → Option α} {a : Address} {value : α}
    (here : read a = some value) : readOrThrow read a = .ok value := by
  rw [readOrThrow, here]

theorem readOrThrow_none {α : Type} {read : Address → Option α} {a : Address}
    (fails : read a = none) : ∃ message, readOrThrow read a = .error message := by
  rw [readOrThrow, fails]
  exact ⟨_, rfl⟩

theorem hashElements_throws (keys : HasKeys l) (rounds : Nat)
    (fails : readBlocks mem hashBase l = none ∨ readPeak mem hashBase l = none) :
    ∃ message, hashElements mem hashBase l rounds = .error message := by
  unfold hashElements
  simp only [get_offset keys (show text "hash.entry_mem" ∈ neededKeys by decide),
    get_offset keys (show text "memory_pool.blocks_allocated" ∈ neededKeys by decide),
    get_offset keys (show text "memory_pool.peak_allocated" ∈ neededKeys by decide), ok_bind]
  cases blocks : readBlocks mem hashBase l with
  | none =>
    obtain ⟨message, thrown⟩ := readOrThrow_none blocks
    rw [entryMem] at thrown
    rw [thrown]
    exact ⟨message, rfl⟩
  | some blocksRaw =>
    rw [blocks] at fails
    obtain ⟨message, thrown⟩ := readOrThrow_none (fails.resolve_left (by simp))
    rw [entryMem] at thrown
    have read : readOrThrow mem.int32 (hashBase + offset l "hash.entry_mem" +
        offset l "memory_pool.blocks_allocated") = .ok blocksRaw := readOrThrow_some blocks
    rw [read, ok_bind, thrown]
    exact ⟨message, rfl⟩

def bucketElements (mem : ProcessMemory) (hashBase : Address) (l : LayoutConfig) (blocks : Int32) :
    List Address :=
  let bucket := fun i => hashBase + offset l "hash.buckets" + i * offset l "hash.bucket_stride" +
    offset l "hash.bucket.first_uncommitted"
  (walkBuckets mem bucket (offset l "hash_node.data") (offset l "hash_node.next")
    (positive blocks) (offset l "hash.bucket_count").toNat 0 ⟨0, []⟩).result

theorem hashElements_eq (keys : HasKeys l) {blocks peak : Int32}
    (first : readBlocks mem hashBase l = some blocks)
    (second : readPeak mem hashBase l = some peak) (rounds : Nat) :
    hashElements mem hashBase l rounds =
      .ok ((walkBlobs mem l (positive peak) rounds (freeBlocksHead mem (entryMem hashBase l) l)
        ⟨0, bucketElements mem hashBase l blocks⟩).map fun free => keepNew [] free.result) := by
  have readFirst : readOrThrow mem.int32 (hashBase + offset l "hash.entry_mem" +
      offset l "memory_pool.blocks_allocated") = .ok blocks := readOrThrow_some first
  have readSecond : readOrThrow mem.int32 (hashBase + offset l "hash.entry_mem" +
      offset l "memory_pool.peak_allocated") = .ok peak := readOrThrow_some second
  unfold hashElements
  simp only [get_offset keys (show text "hash.entry_mem" ∈ neededKeys by decide),
    get_offset keys (show text "memory_pool.blocks_allocated" ∈ neededKeys by decide),
    get_offset keys (show text "memory_pool.peak_allocated" ∈ neededKeys by decide),
    get_offset keys (show text "hash.buckets" ∈ neededKeys by decide),
    get_offset keys (show text "hash.bucket_count" ∈ neededKeys by decide),
    get_offset keys (show text "hash.bucket_stride" ∈ neededKeys by decide),
    get_offset keys (show text "hash.bucket.first_uncommitted" ∈ neededKeys by decide),
    get_offset keys (show text "hash_node.next" ∈ neededKeys by decide),
    get_offset keys (show text "hash_node.data" ∈ neededKeys by decide), ok_bind, readFirst,
    readSecond]
  rfl

theorem ends_well_iff (keys : HasKeys l) :
    EndsWell mem hashBase l ↔ ¬ CyclesEmpty mem hashBase l := by
  by_cases fails : readBlocks mem hashBase l = none ∨ readPeak mem hashBase l = none
  · have calm : ¬ CyclesEmpty mem hashBase l := by
      rintro ⟨blocks, peak, readable, -⟩
      rcases fails with first | second
      · exact blocks first
      · rw [second] at readable
        cases readable
    obtain ⟨message, thrown⟩ := hashElements_throws keys 0 fails
    refine iff_of_true ⟨0, ?_⟩ calm
    rw [thrown]
    exact fails
  · rw [not_or] at fails
    obtain ⟨blocks, first⟩ := Option.ne_none_iff_exists'.mp fails.1
    obtain ⟨peak, second⟩ := Option.ne_none_iff_exists'.mp fails.2
    have run := hashElements_eq keys first second
    generalize bucketElements mem hashBase l blocks = allocated at run
    have cycles : CyclesEmpty mem hashBase l ↔ ∀ rounds, walkBlobs mem l (positive peak) rounds
        (freeBlocksHead mem (entryMem hashBase l) l) ⟨0, allocated⟩ = none := by
      rw [walkBlobs_never_iff, CyclesEmpty, second]
      simp [fails.1]
    rw [cycles, not_forall]
    unfold EndsWell
    apply exists_congr
    intro rounds
    rw [run]
    cases walkBlobs mem l (positive peak) rounds (freeBlocksHead mem (entryMem hashBase l) l)
      ⟨0, allocated⟩ with
    | none => simp [Allowed]
    | some free =>
      obtain ⟨distinct, kept⟩ := keepNew_spec [] free.result
      exact iff_of_true ⟨distinct, fun p member => (kept p member).1⟩ (by simp)

theorem defaults_keys : HasKeys .defaults := by
  have found : ∀ key ∈ neededKeys, (LayoutConfig.defaults.values key).isSome := by decide
  exact fun key needed => Option.isSome_iff_exists.mp (found key needed)

/-- A memory with empty buckets, one block at the peak, and a free list of one blob that
   leads back to itself. -/
def looped (data : Address) : ProcessMemory where
  int32 a := if a = 0x1000C then some 0 else if a = 0x10010 then some 1 else none
  uint64 a :=
    if a = 0x10020 then some 0x20000
    else if a = 0x20010 then some data
    else if a = 0x20000 then some 0x20000
    else none

theorem ends_well_looped :
    EndsWell (looped 0x30000) 0x10000 .defaults ∧
      ¬ CyclesEmpty (looped 0x30000) 0x10000 .defaults := by
  have ended : EndsWell (looped 0x30000) 0x10000 .defaults := by
    refine ⟨2, ?_⟩
    have run : hashElements (looped 0x30000) 0x10000 .defaults 2 = .ok (some [0x30000]) := by
      rw [hashElements_eq defaults_keys (show _ = some 0 by decide) (show _ = some 1 by decide)]
      decide +kernel
    rw [run]
    exact ⟨List.nodup_singleton _, fun p member => by rw [List.mem_singleton.mp member]; rfl⟩
  exact ⟨ended, (ends_well_iff defaults_keys).mp ended⟩

/-- A blob without data is never counted, and nothing else ends the loop. -/
theorem empty_blob_loops :
    HasKeys .defaults ∧ ¬ EndsWell (looped 0) 0x10000 .defaults := by
  refine ⟨defaults_keys, ?_⟩
  rintro ⟨rounds, ended⟩
  have cycle : EmptyCycle (blobLink (looped 0) .defaults) (min (positive 1) hardCap) 0x20000 :=
    ⟨0, 1, 0x20000, 0, rfl, by decide, by decide, by decide⟩
  have head : freeBlocksHead (looped 0) (entryMem 0x10000 .defaults) .defaults = 0x20000 := by
    decide
  rw [hashElements_eq defaults_keys (show _ = some 0 by decide) (show _ = some 1 by decide),
    head, walkBlobs_never_iff.mpr cycle rounds] at ended
  exact ended

end SchemaHash
