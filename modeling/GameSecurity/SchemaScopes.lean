import GameSecurity.SchemaBindings
import Mathlib.Data.List.Forall2

/- analysis.cpp: the type scopes of the schema system, each with two hash tables of bindings. -/
namespace SchemaScopes
open AsciiText RuntimeConfig ByteMemory DumperOutput SchemaHash SchemaBindings

structure TypeScope where
  moduleName : Text
  classes : List ClassBinding
  enums : List EnumBinding
  deriving DecidableEq, Repr

/-- Running to an exception or a result; none: a loop has not ended within its rounds. -/
abbrev Run := ExceptT Text Option

def Run.of {α : Type} (result : Except Text α) : Run α := some result

section Reading

variable (mem : Target) (l : LayoutConfig) (rounds : Nat)

def elements (hashBase : Address) : Run (List Address) :=
  match hashElements (processMemory mem) hashBase l rounds with
  | .error what => some (.error what)
  | .ok none => none
  | .ok (some found) => some (.ok found)

def readAll {α : Type} (read : Address → Except Text α) (pointers : List Address) : List α :=
  pointers.filterMap fun ptr => (read ptr).toOption

/-- One turn of the loop over the scopes; `.ok none`: nothing is pushed back. -/
def readTypeScope (slot : Address) : Run (Option TypeScope) := do
  let scope ← Run.of (readOrThrow (uint64 mem) slot)
  if scope = 0 then return none
  let name ← Run.of (l.get (text "type_scope.name"))
  let nameSize ← Run.of (l.get (text "type_scope.name_size"))
  let moduleName := readUtf8 mem (scope + name) nameSize.toNat
  let classBindings ← Run.of (l.get (text "type_scope.class_bindings"))
  let classes := readAll (readClassBinding mem l) (← elements mem l rounds (scope + classBindings))
  let enumBindings ← Run.of (l.get (text "type_scope.enum_bindings"))
  let enums := readAll (readEnumBinding mem l) (← elements mem l rounds (scope + enumBindings))
  return if classes ≠ [] ∨ enums ≠ [] then some ⟨moduleName, classes, enums⟩ else none

/-- The loop over the scopes, which catches what a turn throws. -/
def scopesFrom (slot : Nat → Address) : List Nat → Option (List TypeScope)
  | [] => some []
  | i :: later => do
    let turn ← (readTypeScope mem l rounds (slot i)).run
    let scopes ← scopesFrom slot later
    match turn with
    | .ok (some scope) => return scope :: scopes
    | _ => return scopes

def readTypeScopes (system : Address) : Run (List TypeScope) := do
  let vec := system + (← Run.of (l.get (text "schema_system.type_scopes")))
  let count ← Run.of (do readOrThrow (int32 mem) (vec + (← l.get (text "utl_vector.count"))))
  let data ← Run.of (do readOrThrow (uint64 mem) (vec + (← l.get (text "utl_vector.data"))))
  if count ≤ 0 ∨ 4096 < count ∨ data = 0 then return []
  ExceptT.lift (scopesFrom mem l rounds (fun i => data + i.toUInt64 * 8)
    (List.range count.toInt.toNat))

end Reading

/-- The nodes of a hash table, each with its place and the pointer it carries. -/
structure StoredTable where
  buckets : List (List (Address × Address))
  free : List (Address × Address)

def StoredTable.allocated (t : StoredTable) : List Address := t.buckets.flatten.map Prod.snd

def StoredTable.pointers (t : StoredTable) : List Address :=
  ((t.allocated ++ t.free.map Prod.snd).filter plausibleUserPointer).eraseDups

def carried (pointers : List Address) : List Address := pointers.filter (· ≠ 0)

section Image

variable (mem : Target) (l : LayoutConfig)

/-- A linked list of nodes that ends at the null pointer. -/
def ListAt (dataOffset nextOffset : Address) : Address → List (Address × Address) → Prop
  | cur, [] => cur = 0
  | cur, (place, data) :: rest =>
    cur = place ∧ cur ≠ 0 ∧ WordAt mem (cur + dataOffset) data ∧
      ∃ next, WordAt mem (cur + nextOffset) next ∧ ListAt dataOffset nextOffset next rest

def bucketSlot (hashBase i : Address) : Address :=
  hashBase + offset l "hash.buckets" + i * offset l "hash.bucket_stride" +
    offset l "hash.bucket.first_uncommitted"

/-- A table whose lists all end and whose pool counts at least the pointers in them. -/
structure TableAt (hashBase : Address) (t : StoredTable) : Prop where
  bucketCount : t.buckets.length = (offset l "hash.bucket_count").toNat
  buckets : ∀ (i : Nat) nodes, t.buckets[i]? = some nodes → nodes.length ≤ hardCap ∧
    ∃ head, WordAt mem (bucketSlot l hashBase i.toUInt64) head ∧
      ListAt mem (offset l "hash_node.data") (offset l "hash_node.next") head nodes
  free : ∃ head,
    WordAt mem (entryMem hashBase l + offset l "memory_pool.free_blocks_head_next") head ∧
      ListAt mem (offset l "hash_blob.data") (offset l "hash_blob.next") head t.free
  blocks : ∃ blocks : Int32,
    Holds mem (entryMem hashBase l + offset l "memory_pool.blocks_allocated")
      (toBytes 4 blocks.toUInt32.toNat) ∧
      (carried t.allocated).length ≤ min (positive blocks) hardCap
  peak : ∃ peak : Int32,
    Holds mem (entryMem hashBase l + offset l "memory_pool.peak_allocated")
      (toBytes 4 peak.toUInt32.toNat) ∧
      (carried (t.free.map Prod.snd)).length ≤ min (positive peak) hardCap

structure StoredScope where
  moduleName : Text
  classes : List StoredClass
  enums : List EnumBinding

def StoredScope.typeScope (s : StoredScope) : Option TypeScope :=
  if s.classes ≠ [] ∨ s.enums ≠ [] then
    some ⟨s.moduleName, s.classes.map StoredClass.binding, s.enums⟩
  else none

/-- A table with what its pointers lead to; its free list is not longer than the bound. -/
def BindingsAt {α : Type} (bound : Nat) (bindingAt : Address → α → Prop) (hashBase : Address)
    (xs : List α) : Prop :=
  ∃ t : StoredTable, TableAt mem l hashBase t ∧ t.free.length < bound ∧
    List.Forall₂ bindingAt t.pointers xs

structure ScopeAt (bound : Nat) (scope : Address) (s : StoredScope) : Prop where
  moduleName : TextAt mem (offset l "type_scope.name_size").toNat
    (scope + offset l "type_scope.name") s.moduleName
  classes : BindingsAt mem l bound (ClassAt mem l) (scope + offset l "type_scope.class_bindings")
    s.classes
  enums : BindingsAt mem l bound (EnumAt mem l) (scope + offset l "type_scope.enum_bindings")
    s.enums

def ScopeBehind (bound : Nat) (slot : Address) : Option StoredScope → Prop
  | none => WordAt mem slot 0
  | some s => ∃ scope, scope ≠ 0 ∧ WordAt mem slot scope ∧ ScopeAt mem l bound scope s

/-- The vector of the scopes, with null pointers between them. -/
structure SystemAt (bound : Nat) (system : Address) (scopes : List (Option StoredScope)) :
    Prop where
  few : scopes.length ≤ 4096
  count : Holds mem (system + offset l "schema_system.type_scopes" + offset l "utl_vector.count")
    (toBytes 4 scopes.length)
  data : ∃ data,
    WordAt mem (system + offset l "schema_system.type_scopes" + offset l "utl_vector.data") data ∧
      (scopes ≠ [] → data ≠ 0) ∧ ArrayAt (ScopeBehind mem l bound) data 8 scopes

end Image

def scopeKeys : List String :=
  ["schema_system.type_scopes", "utl_vector.count", "utl_vector.data", "type_scope.name",
    "type_scope.name_size", "type_scope.class_bindings", "type_scope.enum_bindings",
    "hash.entry_mem", "memory_pool.blocks_allocated", "memory_pool.peak_allocated",
    "hash.buckets", "hash.bucket_count", "hash.bucket_stride", "hash.bucket.first_uncommitted",
    "hash_node.next", "hash_node.data", "hash_blob.next", "hash_blob.data",
    "memory_pool.free_blocks_head_next"]

theorem hasKeys (known : Known l scopeKeys) : HasKeys l := by
  intro key needed
  have listed : ∀ key ∈ neededKeys, ∃ name ∈ scopeKeys, text name = key := by decide
  obtain ⟨name, member, rfl⟩ := listed key needed
  exact known name member

@[simp] theorem run_ok {α β : Type} (a : α) (f : α → Run β) : (Run.of (.ok a) >>= f) = f a := rfl

theorem keepNew_eq (seen pointers : List Address) : keepNew seen pointers =
    ((pointers.filter plausibleUserPointer).filter (· ∉ seen)).eraseDups := by
  induction pointers generalizing seen with
  | nil => rfl
  | cons p rest ih =>
    rw [keepNew]
    by_cases user : plausibleUserPointer p = true
    · rw [List.filter_cons_of_pos user]
      by_cases old : p ∈ seen
      · rw [if_pos (.inr old), ih, List.filter_cons_of_neg (by simpa using old)]
      · have kept : ¬ (plausibleUserPointer p = false ∨ p ∈ seen) := by simp [user, old]
        have split : ∀ qs : List Address, qs.filter (· ∉ p :: seen) =
            (qs.filter (· ∉ seen)).filter (!· == p) := by
          intro qs
          rw [List.filter_filter]
          apply List.filter_congr
          intro q _
          by_cases same : q = p <;> simp [same]
        rw [if_neg kept, ih, List.filter_cons_of_pos (by simpa using old), List.eraseDups_cons,
          split]
    · rw [if_pos (.inl (by simpa using user)), ih,
        List.filter_cons_of_neg user]

theorem plausible_carried (pointers : List Address) :
    (carried pointers).filter plausibleUserPointer = pointers.filter plausibleUserPointer := by
  rw [carried, List.filter_filter]
  apply List.filter_congr
  intro p _
  by_cases null : p = 0
  · rw [null]
    rfl
  · simp [null]

theorem foldl_push (c : Collected) (pointers : List Address) :
    pointers.foldl Collected.push c =
      ⟨c.count + (carried pointers).length, c.result ++ carried pointers⟩ := by
  induction pointers generalizing c with
  | nil => simp [carried]
  | cons p rest ih =>
    rw [List.foldl_cons, ih]
    by_cases null : p = 0
    · simp [carried, Collected.push, null]
    · simp [carried, Collected.push, null, Nat.add_assoc, Nat.add_comm 1]

theorem full_push {c : Collected} {limit : Nat} {pointers : List Address} (full : ¬ c.open limit)
    (fits : c.count + (carried pointers).length ≤ min limit hardCap) :
    pointers.foldl Collected.push c = c := by
  rw [open_iff, Nat.not_lt] at full
  have none_ : carried pointers = [] := List.length_eq_zero_iff.mp (by omega)
  rw [foldl_push, none_]
  simp

variable {mem : Target} {l : LayoutConfig} {cur hashBase : Address} {c : Collected}

theorem processMemory_uint64 {a value : Address} (here : WordAt mem a value) :
    (processMemory mem).uint64 a = some value := by
  change uint64 mem a = some value
  rw [uint64, number_of_holds value.toNat_lt here]
  simp

theorem fits_next {limit : Nat} {data : Address} {rest : List Address}
    (fits : c.count + (carried (data :: rest)).length ≤ limit) :
    (c.push data).count + (carried rest).length ≤ limit := by
  rw [push_count]
  by_cases null : data = 0
  · simpa [carried, null] using fits
  · simp only [carried, ne_eq, null, not_false_eq_true, decide_true, List.filter_cons_of_pos,
      List.length_cons, if_true] at fits ⊢
    omega

theorem walkChain_list {dataOffset nextOffset : Address} {blocks guard : Nat}
    {nodes : List (Address × Address)} (list : ListAt mem dataOffset nextOffset cur nodes)
    (enough : nodes.length ≤ guard)
    (fits : c.count + (carried (nodes.map Prod.snd)).length ≤ min blocks hardCap) :
    walkChain (processMemory mem) dataOffset nextOffset blocks guard cur c =
      (nodes.map Prod.snd).foldl Collected.push c := by
  induction nodes generalizing cur c guard with
  | nil =>
    have ended : cur = 0 := list
    cases guard with
    | zero => rfl
    | succ guard =>
      rw [walkChain, if_neg fun going => going.1 ended]
      rfl
  | cons node rest ih =>
    obtain ⟨place, data⟩ := node
    obtain ⟨rfl, solid, carries, next, linked, later⟩ := list
    cases guard with
    | zero => cases enough
    | succ guard =>
      rw [walkChain]
      by_cases more : c.open blocks
      · have read : readNode (processMemory mem) dataOffset nextOffset cur = some (data, next) := by
          rw [readNode, processMemory_uint64 carries, processMemory_uint64 linked]
          rfl
        rw [if_pos ⟨solid, more⟩, read]
        exact ih later (Nat.succ_le_succ_iff.mp enough) (fits_next fits)
      · rw [if_neg fun going => more going.2, full_push more fits]

theorem toUInt64_succ (k : Nat) : k.toUInt64 + 1 = (k + 1).toUInt64 := by
  rw [Nat.toUInt64_eq, Nat.toUInt64_eq, UInt64.ofNat_add]
  rfl

theorem walkBuckets_lists {dataOffset nextOffset : Address} {blocks k : Nat}
    {bucket : Address → Address} {buckets : List (List (Address × Address))}
    (lists : ∀ (j : Nat) nodes, buckets[j]? = some nodes → nodes.length ≤ hardCap ∧
      ∃ head, WordAt mem (bucket (k + j).toUInt64) head ∧
        ListAt mem dataOffset nextOffset head nodes)
    (fits : c.count + (carried (buckets.flatten.map Prod.snd)).length ≤ min blocks hardCap) :
    walkBuckets (processMemory mem) bucket dataOffset nextOffset blocks buckets.length
      k.toUInt64 c = (buckets.flatten.map Prod.snd).foldl Collected.push c := by
  induction buckets generalizing k c with
  | nil => rfl
  | cons nodes rest ih =>
    rw [List.length_cons, walkBuckets]
    by_cases more : c.open blocks
    · obtain ⟨short, head, slot, list⟩ := lists 0 nodes rfl
      rw [Nat.add_zero] at slot
      rw [List.flatten_cons, List.map_append, carried, List.filter_append, List.length_append]
        at fits
      rw [if_pos more, processMemory_uint64 slot]
      change walkBuckets (processMemory mem) bucket dataOffset nextOffset blocks rest.length
        (k.toUInt64 + 1) (walkChain _ _ _ _ _ head c) = _
      rw [walkChain_list list short (le_trans (Nat.add_le_add_left (Nat.le_add_right _ _) _) fits),
        toUInt64_succ, List.flatten_cons, List.map_append, List.foldl_append]
      apply ih
      · intro j nodes' later
        have shifted := lists (j + 1) nodes' later
        rwa [← Nat.add_assoc, Nat.add_right_comm] at shifted
      · rw [foldl_push, Nat.add_assoc]
        exact fits
    · rw [if_neg more, full_push more fits]

theorem readBlob_at (known : Known l scopeKeys) {blob data next : Address}
    (carries : WordAt mem (blob + offset l "hash_blob.data") data)
    (linked : WordAt mem (blob + offset l "hash_blob.next") next) :
    readBlob (processMemory mem) l blob = some (data, next) := by
  unfold readBlob
  simp only [get_known known (show "hash_blob.data" ∈ scopeKeys by decide),
    get_known known (show "hash_blob.next" ∈ scopeKeys by decide), Except.toOption,
    Option.bind_eq_bind, Option.bind_some, processMemory_uint64 carries,
    processMemory_uint64 linked]
  rfl

theorem walkBlobs_list (known : Known l scopeKeys) {peak rounds : Nat}
    {nodes : List (Address × Address)}
    (list : ListAt mem (offset l "hash_blob.data") (offset l "hash_blob.next") cur nodes)
    (enough : nodes.length < rounds)
    (fits : c.count + (carried (nodes.map Prod.snd)).length ≤ min peak hardCap) :
    walkBlobs (processMemory mem) l peak rounds cur c =
      some ((nodes.map Prod.snd).foldl Collected.push c) := by
  induction nodes generalizing cur c rounds with
  | nil =>
    have ended : cur = 0 := list
    cases rounds with
    | zero => cases enough
    | succ rounds =>
      rw [walkBlobs, if_neg fun going => going.1 ended]
      rfl
  | cons node rest ih =>
    obtain ⟨place, data⟩ := node
    obtain ⟨rfl, solid, carries, next, linked, later⟩ := list
    cases rounds with
    | zero => cases enough
    | succ rounds =>
      rw [walkBlobs]
      by_cases more : c.open peak
      · rw [if_pos ⟨solid, more⟩, readBlob_at known carries linked]
        exact ih later (Nat.succ_lt_succ_iff.mp enough) (fits_next fits)
      · rw [if_neg fun going => more going.2, full_push more fits]

/-- A table that stands in memory gives its plausible pointers, each once. -/
theorem hashElements_at (known : Known l scopeKeys) {t : StoredTable}
    (here : TableAt mem l hashBase t) {rounds : Nat} (enough : t.free.length < rounds) :
    hashElements (processMemory mem) hashBase l rounds = .ok (some t.pointers) := by
  obtain ⟨blocks, blocksAt, allocated⟩ := here.blocks
  obtain ⟨peak, peakAt, freed⟩ := here.peak
  obtain ⟨head, headAt, list⟩ := here.free
  have first : readBlocks (processMemory mem) hashBase l = some blocks := int32_some blocksAt
  have second : readPeak (processMemory mem) hashBase l = some peak := int32_some peakAt
  have start : freeBlocksHead (processMemory mem) (entryMem hashBase l) l = head := by
    unfold freeBlocksHead
    rw [get_known known (show "memory_pool.free_blocks_head_next" ∈ scopeKeys by decide)]
    change ((processMemory mem).uint64 _).getD 0 = head
    rw [processMemory_uint64 headAt]
    rfl
  have buckets : bucketElements (processMemory mem) hashBase l blocks = carried t.allocated := by
    have walked : walkBuckets (processMemory mem) (bucketSlot l hashBase)
        (offset l "hash_node.data") (offset l "hash_node.next") (positive blocks) t.buckets.length
        (0 : Nat).toUInt64 ⟨0, []⟩ = t.allocated.foldl Collected.push ⟨0, []⟩ := by
      refine walkBuckets_lists ?_ (by rwa [Nat.zero_add])
      intro j nodes listed
      rw [Nat.zero_add]
      exact here.buckets j nodes listed
    rw [foldl_push, here.bucketCount] at walked
    exact congrArg Collected.result walked
  rw [hashElements_eq (hasKeys known) first second, start, buckets,
    walkBlobs_list known list enough (by rwa [Nat.zero_add]), foldl_push, Option.map_some,
    keepNew_eq]
  congr 3
  rw [List.filter_eq_self.mpr (by simp), List.filter_append, plausible_carried, plausible_carried,
    ← List.filter_append]

theorem elements_at (known : Known l scopeKeys) {t : StoredTable}
    (here : TableAt mem l hashBase t) {rounds : Nat} (enough : t.free.length < rounds) :
    elements mem l rounds hashBase = Run.of (.ok t.pointers) := by
  rw [elements, hashElements_at known here enough]
  rfl

theorem readAll_at {α β : Type} {bindingAt : Address → α → Prop}
    {read : Address → Except Text β} {f : α → β} {pointers : List Address} {xs : List α}
    (here : List.Forall₂ bindingAt pointers xs) (reads : ∀ a x, bindingAt a x → read a = .ok (f x)) :
    readAll read pointers = xs.map f := by
  induction here with
  | nil => rfl
  | cons first _ ih =>
    rw [readAll, List.filterMap_cons, reads _ _ first, List.map_cons, ← ih]
    rfl

section Stored

variable (known : Known l scopeKeys) (bindings : Known l bindingKeys) {bound : Nat}
include known bindings

theorem readTypeScope_at {slot : Address} {s : Option StoredScope}
    (here : ScopeBehind mem l bound slot s) :
    readTypeScope mem l bound slot = Run.of (.ok (s.bind StoredScope.typeScope)) := by
  unfold readTypeScope
  simp only [get_known known (show "type_scope.name" ∈ scopeKeys by decide),
    get_known known (show "type_scope.name_size" ∈ scopeKeys by decide),
    get_known known (show "type_scope.class_bindings" ∈ scopeKeys by decide),
    get_known known (show "type_scope.enum_bindings" ∈ scopeKeys by decide), run_ok]
  cases s with
  | none =>
    rw [uint64_at here, run_ok, if_pos rfl]
    rfl
  | some s =>
    obtain ⟨scope, solid, slotAt, named, ⟨classTable, classesAt, shortClasses, classes⟩,
      enumTable, enumsAt, shortEnums, enums⟩ := here
    have readClasses := readAll_at classes fun _ _ => readClassBinding_at bindings
    have readEnums := readAll_at (f := id) enums fun _ _ => readEnumBinding_at bindings
    rw [uint64_at slotAt, run_ok, if_neg solid, elements_at known classesAt shortClasses, run_ok,
      elements_at known enumsAt shortEnums, run_ok, readClasses, readEnums, readUtf8_at named,
      List.map_id]
    simp only [ne_eq, List.map_eq_nil_iff]
    rfl

theorem scopesFrom_at {slot : Nat → Address} {scopes : List (Option StoredScope)} {k : Nat}
    (here : ∀ (j : Nat) s, scopes[j]? = some s → ScopeBehind mem l bound (slot (k + j)) s) :
    scopesFrom mem l bound slot (List.range' k scopes.length) =
      some (scopes.filterMap (·.bind StoredScope.typeScope)) := by
  induction scopes generalizing k with
  | nil => rfl
  | cons s rest ih =>
    have first := readTypeScope_at known bindings (here 0 s rfl)
    have later := ih (k := k + 1) fun j s' listed => by
      have shifted := here (j + 1) s' listed
      rwa [← Nat.add_assoc, Nat.add_right_comm] at shifted
    rw [List.length_cons, List.range'_succ, scopesFrom, ← Nat.add_zero k, first, Nat.add_zero k,
      later]
    cases turn : s.bind StoredScope.typeScope with
    | none => simp [Run.of, ExceptT.run, turn]
    | some scope => simp [Run.of, ExceptT.run, turn]

/-- The scopes that stand in memory are read, those with a class or an enum, in their order. -/
theorem readTypeScopes_at {system : Address} {scopes : List (Option StoredScope)}
    (here : SystemAt mem l bound system scopes) :
    readTypeScopes mem l bound system =
      Run.of (.ok (scopes.filterMap (·.bind StoredScope.typeScope))) := by
  obtain ⟨data, dataAt, solid, array⟩ := here.data
  obtain ⟨count, countRead, value⟩ := small_int32_at (lt_of_le_of_lt here.few (by decide)) here.count
  unfold readTypeScopes
  simp only [get_known known (show "schema_system.type_scopes" ∈ scopeKeys by decide),
    get_known known (show "utl_vector.count" ∈ scopeKeys by decide),
    get_known known (show "utl_vector.data" ∈ scopeKeys by decide), ok_bind, run_ok, countRead,
    uint64_at dataAt]
  have few : ¬ 4096 < count := by
    rw [Int32.lt_iff_toInt_lt, value]
    exact not_lt.mpr (Int.ofNat_le.mpr here.few)
  cases scopes with
  | nil =>
    have none_ : count ≤ 0 := by
      rw [Int32.le_iff_toInt_le, value]
      exact Int.le_refl 0
    rw [if_pos (.inl none_)]
    rfl
  | cons s rest =>
    have some_ : ¬ count ≤ 0 := by
      rw [Int32.le_iff_toInt_le, value]
      exact not_le.mpr (Int.ofNat_lt.mpr (Nat.succ_pos _))
    have going : ¬ (count ≤ 0 ∨ 4096 < count ∨ data = 0) := by
      simp [some_, few, solid (List.cons_ne_nil _ _)]
    have turns : scopesFrom mem l bound (fun i => data + i.toUInt64 * 8)
        (List.range' 0 (s :: rest).length) =
          some ((s :: rest).filterMap (·.bind StoredScope.typeScope)) := by
      refine scopesFrom_at known bindings ?_
      intro j s' listed
      rw [Nat.zero_add]
      exact array j s' listed
    rw [if_neg going, value, Int.toNat_natCast, List.range_eq_range', turns]
    rfl

end Stored

/-- Only the loop over a free list does not end. -/
def Endless (mem : Target) (l : LayoutConfig) (rounds : Nat) : Prop :=
  ∃ hashBase, hashElements (processMemory mem) hashBase l rounds = .ok none

end SchemaScopes
