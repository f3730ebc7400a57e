import GameSecurity.InterfaceLists
import GameSecurity.OffsetSignatures
import GameSecurity.SchemaScopes

/- analysis.cpp: what a dump reads from the target, put together. -/
namespace DumperAnalysis
open AsciiText RuntimeConfig ByteMemory SortedMap PortableExecutable SchemaHash SchemaBindings
open SchemaScopes DumperOutput LinkedChain TargetProcess InterfaceLists OffsetSignatures

def Analysis.ofRun {α : Type} : Run α → Analysis α
  | none => .error .endless
  | some (.error what) => .error (.thrown what)
  | some (.ok a) => .ok a

section Schemas

variable (process : Process) (signatures : SignatureDatabase) (l : LayoutConfig)

/-- The three reads of probe_schema_system and their bounds. -/
def probeReads (base : Address) : Except Text Bool := do
  let vec := base + (← l.get (text "schema_system.type_scopes"))
  let count ← readOrThrow (int32 process.memory) (vec + (← l.get (text "utl_vector.count")))
  let data ← readOrThrow (uint64 process.memory) (vec + (← l.get (text "utl_vector.data")))
  let registrations ← readOrThrow (int32 process.memory)
    (base + (← l.get (text "schema_system.registration_count")))
  return decide (0 < count ∧ count < 4096) && plausibleUserPointer data &&
    decide (0 < registrations ∧ registrations < 100000000)

def probeSchemaSystem (base : Address) : Bool :=
  match probeReads process l base with
  | .error _ => false
  | .ok passes => passes

def schemaSystemBySignature : Analysis Address := do
  let mv ← Analysis.of (loadModule process (text "schemasystem.dll"))
  let failure : Analysis Address :=
    .error (.thrown (text "unable to resolve a valid SchemaSystem_001 instance"))
  match ← resolveSignature mv signatures (text "__SchemaSystem") with
  | none => failure
  | some rva =>
    let base := mv.module.base + rva.toUInt64
    if probeSchemaSystem process l base then return base else failure

def resolveSchemaSystem : Analysis Address := do
  match ← findInterfaceInstance process (text "schemasystem.dll") (text "SchemaSystem_001") l with
  | none => schemaSystemBySignature process signatures l
  | some iface =>
    if probeSchemaSystem process l iface then return iface
    else schemaSystemBySignature process signatures l

def TypeScope.scope (s : TypeScope) : Scope where
  classes := s.classes.map ClassBinding.toClassInfo
  enums := s.enums.map EnumBinding.toEnumInfo

/-- The number of rounds is for the loops over free lists. -/
def analyzeSchemas (rounds : Nat) : Analysis SchemaMap := do
  let schemaSystem ← resolveSchemaSystem process signatures l
  let scopes ← Analysis.ofRun (readTypeScopes process.memory l rounds schemaSystem)
  let out : SchemaMap := ofList (scopes.map fun scope => (scope.moduleName, TypeScope.scope scope))
  if out.entries = [] then
    .error (.thrown (text ("SchemaSystem resolved but no class/enum scopes were readable; " ++
      "check layout.cfg")))
  else return out

end Schemas

section Buttons

variable (process : Process) (signatures : SignatureDatabase) (l : LayoutConfig)

/-- The loop over the list of buttons; the first number is what the guard still allows. -/
def walkButtons (base nameOff stateOff nextOff : Address) :
    Nat → List Address → Address → ButtonMap → Except Text ButtonMap
  | 0, _, _, out => .ok out
  | guard + 1, seen, cur, out =>
    if cur = 0 ∨ cur ∈ seen then .ok out
    else do
      let namePtr ← readOrThrow (uint64 process.memory) (cur + nameOff)
      let name := readUtf8 process.memory namePtr 64
      let out :=
        if name ≠ [] ∧ base ≤ cur then out.set name (cur - base + stateOff).toInt64 else out
      let next ← readOrThrow (uint64 process.memory) (cur + nextOff)
      walkButtons base nameOff stateOff nextOff guard (cur :: seen) next out

def analyzeButtons : Analysis ButtonMap := do
  let mv ← Analysis.of (loadModule process (text "client.dll"))
  match ← resolveSignature mv signatures (text "__ButtonList") with
  | none => .error (.thrown (text "button list signature did not match"))
  | some rva =>
    let cur ← Analysis.of (readOrThrow (uint64 process.memory) (mv.module.base + rva.toUInt64))
    let nameOff ← Analysis.of (l.get (text "button.name"))
    let stateOff ← Analysis.of (l.get (text "button.state"))
    let nextOff ← Analysis.of (l.get (text "button.next"))
    Analysis.of (walkButtons process mv.module.base nameOff stateOff nextOff maxNodes [] cur empty)

end Buttons

section Offsets

variable (process : Process) (signatures : SignatureDatabase) (l : LayoutConfig)

def setOffset (out : OffsetMap) (moduleName name : Text) (value : UInt32) : OffsetMap :=
  out.set moduleName (((out.find? moduleName).getD empty).set name value)

/-- A callback adds what a second signature gives to the value of the first. -/
def addSum (mv : ModuleView) (out : OffsetMap) (moduleName extraName sumName : Text)
    (value : Rva) : Analysis OffsetMap := do
  match ← resolveSignature mv signatures extraName with
  | none => return out
  | some extra => return setOffset out moduleName sumName (value.toUInt32 + extra.toUInt32)

def addCallback (mv : ModuleView) (out : OffsetMap) (moduleName : Text) (value : Rva) :
    SignatureCallback → Analysis OffsetMap
  | .none => .ok out
  | .viewAngles =>
    addSum signatures mv out moduleName (text "__ViewAngles") (text "dwViewAngles") value
  | .localPlayerPawn =>
    addSum signatures mv out moduleName (text "__LocalPlayerPawn") (text "dwLocalPlayerPawn") value

/-- The sensitivity's own offset comes from the layout; without its key the turn ends there. -/
def addSensitivity (out : OffsetMap) (moduleName name : Text) : OffsetMap :=
  if name = text "dwSensitivity" then
    match l.get (text "offset.dwSensitivity_sensitivity") with
    | .error _ => out
    | .ok value => setOffset out moduleName (text "dwSensitivity_sensitivity") value.toUInt32
  else out

/-- One turn of the loop over the groups, which catches every exception. -/
def addOffset (out : OffsetMap) (group : GroupKey × List SignatureCandidate) :
    Analysis OffsetMap :=
  match loadModule process group.1.module with
  | .error _ => .ok out
  | .ok mv => do
    match ← resolveSignature mv signatures group.1.name with
    | none => return out
    | some value =>
      let callback := (group.2.head?.map SignatureCandidate.callback).getD .none
      let out := setOffset out group.1.module group.1.name value.toUInt32
      let out ← addCallback signatures mv out group.1.module value callback
      return addSensitivity l out group.1.module group.1.name

def eraseOffset (values : Map Text UInt32) (name : Text) : Map Text UInt32 where
  entries := values.entries.filter (·.1 ≠ name)
  ascending := values.ascending.filter _

/-- The build number goes where it cannot be read or is implausible. -/
def validateBuild (base : Address) (m : Map Text UInt32) : Map Text UInt32 :=
  match m.find? (text "dwBuildNumber") with
  | none => m
  | some place =>
    match uint32 process.memory (base + place.toUInt64) with
    | none => eraseOffset m (text "dwBuildNumber")
    | some build =>
      if build < 1000 ∨ 10000000 < build then eraseOffset m (text "dwBuildNumber") else m

def implausibleSide (n : UInt32) : Bool := n < 200 ∨ 20000 < n

/-- The sides of the window go together, where both can be read. -/
def validateWindow (base : Address) (m : Map Text UInt32) : Map Text UInt32 :=
  match m.find? (text "dwWindowWidth"), m.find? (text "dwWindowHeight") with
  | some w, some h =>
    match uint32 process.memory (base + w.toUInt64), uint32 process.memory (base + h.toUInt64) with
    | some width, some height =>
      if implausibleSide width ∨ implausibleSide height then
        eraseOffset (eraseOffset m (text "dwWindowWidth")) (text "dwWindowHeight")
      else m
    | _, _ => m
  | _, _ => m

def validateRuntimeOffsets (out : OffsetMap) : OffsetMap :=
  match out.find? (text "engine2.dll") with
  | none => out
  | some m =>
    match process.moduleByName (text "engine2.dll") with
    | .error _ => out
    | .ok module =>
      out.set (text "engine2.dll")
        (validateWindow process module.base (validateBuild process module.base m))

def analyzeOffsets : Analysis OffsetMap := do
  let out ← signatures.offsetGroups.entries.foldlM (addOffset process signatures l) empty
  return validateRuntimeOffsets process out

end Offsets

/-- What a scope that stands in memory becomes in the schema map. -/
def storedScope (s : StoredScope) : Scope where
  classes := s.classes.map fun c => c.binding.toClassInfo
  enums := s.enums.map EnumBinding.toEnumInfo

def Filled (s : StoredScope) : Prop := s.classes ≠ [] ∨ s.enums ≠ []

variable {process : Process} {signatures : SignatureDatabase} {l : LayoutConfig}

theorem typeScope_iff {s : StoredScope} {moduleName : Text} {scope : Scope} :
    (s.typeScope.map fun t => (t.moduleName, TypeScope.scope t)) = some (moduleName, scope) ↔
      Filled s ∧ s.moduleName = moduleName ∧ scope = storedScope s := by
  unfold StoredScope.typeScope Filled
  by_cases filled : s.classes ≠ [] ∨ s.enums ≠ []
  · rw [if_pos filled, Option.map_some, Option.some.injEq, Prod.mk.injEq]
    have same : TypeScope.scope ⟨s.moduleName, s.classes.map StoredClass.binding, s.enums⟩ =
        storedScope s := by
      simp [TypeScope.scope, storedScope]
    rw [same, eq_comm (a := storedScope s)]
    exact ⟨fun both => ⟨filled, both⟩, fun all => all.2⟩
  · rw [if_neg filled]
    exact iff_of_false (by simp) fun all => filled all.1

/-- Classes and enums that stand in the target's memory, wherever the schema system is found,
   come out as they stand there: under each module name those of its last scope that has any.
   Fields keep their order and lose the spaces of their types, and neither null pointers between
   scopes, fields or metadata nor strings that cannot be read as a block disturb the rest. -/
theorem schemas_read {bound : Nat} {system : Address} {scopes : List (Option StoredScope)}
    (known : Known l scopeKeys) (bindings : Known l bindingKeys)
    (resolved : resolveSchemaSystem process signatures l = .ok system)
    (here : SystemAt process.memory l bound system scopes)
    (some_ : ∃ s, some s ∈ scopes ∧ Filled s) :
    ∃ out, analyzeSchemas process signatures l bound = .ok out ∧
      ∀ moduleName scope, out.find? moduleName = some scope ↔
        ∃ before s after, scopes = before ++ some s :: after ∧ s.moduleName = moduleName ∧
          Filled s ∧ scope = storedScope s ∧
          ∀ later, some later ∈ after → later.moduleName = moduleName → ¬ Filled later := by
  have entries : ((scopes.filterMap (·.bind StoredScope.typeScope)).map fun scope =>
      (scope.moduleName, TypeScope.scope scope)) =
      scopes.filterMap fun s => (s.bind StoredScope.typeScope).map fun t =>
        (t.moduleName, TypeScope.scope t) := List.map_filterMap
  have entry {s : Option StoredScope} {moduleName : Text} {scope : Scope} :
      ((s.bind StoredScope.typeScope).map fun t => (t.moduleName, TypeScope.scope t)) =
        some (moduleName, scope) ↔ ∃ s', s = some s' ∧ Filled s' ∧ s'.moduleName = moduleName ∧
          scope = storedScope s' := by
    cases s with
    | none => simp
    | some s => simpa using typeScope_iff
  have found (moduleName : Text) (scope : Scope) : (ofList (scopes.filterMap fun s =>
      (s.bind StoredScope.typeScope).map fun t => (t.moduleName, TypeScope.scope t))).find?
        moduleName = some scope ↔
      ∃ before s after, scopes = before ++ some s :: after ∧ s.moduleName = moduleName ∧
        Filled s ∧ scope = storedScope s ∧
        ∀ later, some later ∈ after → later.moduleName = moduleName → ¬ Filled later := by
    rw [find_filterMap_iff]
    constructor
    · rintro ⟨before, s, after, split, value, others⟩
      obtain ⟨s, rfl, filled, named, same⟩ := entry.mp value
      refine ⟨before, s, after, split, named, filled, same, fun later member named' filled' => ?_⟩
      exact others _ member _ (entry.mpr ⟨later, rfl, filled', named', rfl⟩)
    · rintro ⟨before, s, after, split, named, filled, same, others⟩
      refine ⟨before, some s, after, split, entry.mpr ⟨s, rfl, filled, named, same⟩, ?_⟩
      intro later member w value
      obtain ⟨later, rfl, filled', named', -⟩ := entry.mp value
      exact others later member named' filled'
  have filled : (ofList (scopes.filterMap fun s => (s.bind StoredScope.typeScope).map fun t =>
      (t.moduleName, TypeScope.scope t))).entries ≠ [] := by
    obtain ⟨s, member, filled⟩ := some_
    intro empty_
    have entered := entry.mpr ⟨s, rfl, filled, rfl, rfl⟩
    rw [ofList_eq_nil_iff, List.filterMap_eq_nil_iff] at empty_
    cases (empty_ _ member).symm.trans entered
  refine ⟨_, ?_, found⟩
  unfold analyzeSchemas
  rw [resolved, ok_bind, readTypeScopes_at known bindings here]
  change (if (ofList (List.map _ _)).entries = [] then _ else _) = _
  rw [entries, if_neg filled]
  rfl

def sampleSignatures : SignatureDatabase :=
  ⟨[⟨text "schemasystem.dll", text "__SchemaSystem", .rva, .none, text "5045'", false⟩,
    ⟨text "schemasystem.dll", text "__ButtonList", .rva, .none, text "5045[62]'", false⟩]⟩

def sampleLayout : LayoutConfig :=
  LayoutFile.LayoutConfig.set .defaults (text "hash.bucket_count") 1

def sampleClass : StoredClass :=
  ⟨text "C", [], none, [some ⟨text "f", text "i t", 16⟩], []⟩

theorem singletonArray {α : Type} {elementAt : Address → α → Prop} {base stride : Address} {x : α}
    (here : elementAt (base + 0 * stride) x) : ArrayAt elementAt base stride [x] := by
  intro i y listed
  cases i with
  | zero =>
    cases listed
    exact here
  | succ i => cases listed

theorem sample_class : ClassAt sampleMemory sampleLayout 0x41000 sampleClass := by
  have words : WordAt sampleMemory 0x41008 0x42000 ∧ WordAt sampleMemory 0x41018 0 ∧
      WordAt sampleMemory 0x41040 0 ∧ Holds sampleMemory 0x41024 (toBytes 2 1) ∧
      WordAt sampleMemory 0x41030 0x43000 ∧ Holds sampleMemory 0x41026 (toBytes 2 0) ∧
      WordAt sampleMemory 0x41048 0 ∧ WordAt sampleMemory 0x43000 0x44000 ∧
      Holds sampleMemory 0x43010 (toBytes 4 16) ∧ WordAt sampleMemory 0x43008 0x45000 ∧
      WordAt sampleMemory 0x45008 0x46000 := by decide +kernel
  have texts : Holds sampleMemory 0x42000 (text "C" ++ [0]) ∧
      Holds sampleMemory 0x44000 (text "f" ++ [0]) ∧
      Holds sampleMemory 0x46000 (text "i t" ++ [0]) := by decide +kernel
  obtain ⟨name, moduleName, bases, fieldCount, fields, metadataCount, metadata, fieldName, place,
    type, typeName⟩ := words
  obtain ⟨nameText, fieldText, typeText⟩ := texts
  refine ⟨by decide, ⟨_, name, .inr ⟨by decide, by decide, by decide, nameText⟩⟩,
    ⟨0, moduleName, .inl ⟨rfl, rfl⟩⟩, ⟨0, bases, .inl rfl⟩,
    ⟨by decide, fieldCount, _, fields, fun _ => by decide, singletonArray ?_⟩,
    ⟨by decide, metadataCount, 0, metadata, fun some_ => absurd rfl some_, ?_⟩⟩
  · exact ⟨⟨_, fieldName, .inr ⟨by decide, by decide, by decide, fieldText⟩⟩, place, _, by decide,
      type, _, typeName, .inr ⟨by decide, by decide, by decide, typeText⟩⟩
  · intro i x listed
    cases listed

theorem sample_tables :
    TableAt sampleMemory sampleLayout 0x30560 ⟨[[(0x40000, 0x41000)]], []⟩ ∧
      TableAt sampleMemory sampleLayout 0x31DD0 ⟨[[]], []⟩ := by
  have words : WordAt sampleMemory (bucketSlot sampleLayout 0x30560 0) 0x40000 ∧
      WordAt sampleMemory (0x40000 + offset sampleLayout "hash_node.data") 0x41000 ∧
      WordAt sampleMemory (0x40000 + offset sampleLayout "hash_node.next") 0 ∧
      WordAt sampleMemory (entryMem 0x30560 sampleLayout +
        offset sampleLayout "memory_pool.free_blocks_head_next") 0 ∧
      WordAt sampleMemory (bucketSlot sampleLayout 0x31DD0 0) 0 ∧
      WordAt sampleMemory (entryMem 0x31DD0 sampleLayout +
        offset sampleLayout "memory_pool.free_blocks_head_next") 0 := by decide +kernel
  have counts : Holds sampleMemory (entryMem 0x30560 sampleLayout +
        offset sampleLayout "memory_pool.blocks_allocated") (toBytes 4 1) ∧
      Holds sampleMemory (entryMem 0x30560 sampleLayout +
        offset sampleLayout "memory_pool.peak_allocated") (toBytes 4 0) ∧
      Holds sampleMemory (entryMem 0x31DD0 sampleLayout +
        offset sampleLayout "memory_pool.blocks_allocated") (toBytes 4 0) ∧
      Holds sampleMemory (entryMem 0x31DD0 sampleLayout +
        offset sampleLayout "memory_pool.peak_allocated") (toBytes 4 0) := by decide +kernel
  obtain ⟨head, data, next, free, empty_, free'⟩ := words
  obtain ⟨blocks, peak, blocks', peak'⟩ := counts
  constructor
  · refine ⟨by decide, ?_, ⟨0, free, rfl⟩, ⟨1, blocks, by decide⟩, ⟨0, peak, by decide⟩⟩
    rintro (_ | i) nodes listed
    · cases listed
      exact ⟨by decide, _, head, rfl, by decide, data, 0, next, rfl⟩
    · cases listed
  · refine ⟨by decide, ?_, ⟨0, free', rfl⟩, ⟨0, blocks', by decide⟩, ⟨0, peak', by decide⟩⟩
    rintro (_ | i) nodes listed
    · cases listed
      exact ⟨by decide, 0, empty_, rfl⟩
    · cases listed

def sampleScope : StoredScope := ⟨text "a", [sampleClass], []⟩

theorem sample_system : SystemAt sampleMemory sampleLayout 1 0x10042 [none, some sampleScope] := by
  have words : WordAt sampleMemory 0x101DA 0x20000 ∧ WordAt sampleMemory 0x20000 0 ∧
      WordAt sampleMemory 0x20008 0x30000 ∧ Holds sampleMemory 0x101D2 (toBytes 4 2) ∧
      Holds sampleMemory 0x30008 (text "a" ++ [0]) := by decide +kernel
  obtain ⟨data, null, scope, count, named⟩ := words
  have offsets : offset sampleLayout "type_scope.class_bindings" = 0x560 ∧
      offset sampleLayout "type_scope.enum_bindings" = 0x1DD0 := by decide
  refine ⟨by decide, count, _, data, fun _ => by decide, ?_⟩
  rintro (_ | _ | i) s listed
  · cases listed
    exact null
  · cases listed
    refine ⟨0x30000, by decide, scope, .inr ⟨by decide, by decide, by decide, named⟩, ?_, ?_⟩
    · rw [offsets.1]
      exact ⟨_, sample_tables.1, by decide, .cons sample_class .nil⟩
    · rw [offsets.2]
      exact ⟨_, sample_tables.2, by decide, .nil⟩
  · cases listed

theorem schemas_read_sample :
    ∃ out, analyzeSchemas sampleProcess sampleSignatures sampleLayout 1 = .ok out ∧
      out.find? (text "a") =
        some ⟨[⟨text "C", none, [], [⟨text "f", text "it", 16⟩]⟩], []⟩ := by
  obtain ⟨out, read, found⟩ := @schemas_read sampleProcess sampleSignatures sampleLayout 1 _ _
    (known_of_found (by decide)) (known_of_found (by decide))
    (show resolveSchemaSystem sampleProcess sampleSignatures sampleLayout = .ok 0x10042 by
      decide +kernel)
    sample_system ⟨sampleScope, by simp, .inl (by simp [sampleScope])⟩
  refine ⟨out, read, (found _ _).mpr ⟨[none], sampleScope, [], rfl, rfl,
    .inl (by simp [sampleScope]), by decide, fun later member => (by cases member)⟩⟩

section ButtonList

/-- The reads of a button, in this order; it carries its name. -/
def buttonLink (mem : Target) (nameOff nextOff cur : Address) : Option (Text × Address) := do
  let namePtr ← uint64 mem (cur + nameOff)
  let next ← uint64 mem (cur + nextOff)
  return (readUtf8 mem namePtr 64, next)

def buttonEntry (base stateOff : Address) (node : Address × Text) : Option (Text × Int64) :=
  if node.2 ≠ [] ∧ base ≤ node.1 then some (node.2, (node.1 - base + stateOff).toInt64) else none

/-- Behind these nodes the list goes on to one that cannot be read. -/
def Broken (link : Address → Option (Text × Address)) (rounds : Nat) (seen : List Address)
    (nodes : List (Address × Text)) (last : Address) : Prop :=
  nodes.length < rounds ∧ last ≠ 0 ∧ last ∉ seen ++ nodes.map Prod.fst ∧ link last = none

theorem broken_cons_iff {link : Address → Option (Text × Address)} {rounds : Nat}
    {seen : List Address} {nodes : List (Address × Text)} {cur last : Address} {name : Text} :
    Broken link (rounds + 1) seen ((cur, name) :: nodes) last ↔
      Broken link rounds (cur :: seen) nodes last := by
  unfold Broken
  simp only [List.length_cons, Nat.succ_lt_succ_iff, List.map_cons, List.cons_append, List.mem_append,
    List.mem_cons, not_or]
  tauto

theorem walkButtons_spec (process : Process) (base nameOff stateOff nextOff : Address) (guard : Nat)
    (seen : List Address) (cur : Address) (entries : List (Text × Int64)) :
    let link := buttonLink process.memory nameOff nextOff
    let nodes := visited link 0 guard seen cur
    let run := walkButtons process base nameOff stateOff nextOff guard seen cur (ofList entries)
    ∃ last, Path link cur nodes last ∧
      (Broken link guard seen nodes last ∧ (∃ what, run = .error what) ∨
        ¬ Broken link guard seen nodes last ∧
          run = .ok (ofList (entries ++ nodes.filterMap (buttonEntry base stateOff)))) := by
  intro link nodes run
  induction guard generalizing seen cur entries with
  | zero =>
    refine ⟨cur, rfl, .inr ⟨fun broken => Nat.not_lt_zero _ broken.1, ?_⟩⟩
    simp [run, nodes, walkButtons, visited]
  | succ guard ih =>
    by_cases stopped : cur = 0 ∨ cur ∈ seen
    · have none_ : nodes = [] := by simp only [nodes, visited, if_pos stopped]
      have ended : run = .ok (ofList entries) := by simp only [run, walkButtons, if_pos stopped]
      rw [none_, ended]
      refine ⟨cur, rfl, .inr ⟨?_, by simp⟩⟩
      rintro ⟨-, solid, fresh, -⟩
      rw [List.map_nil, List.append_nil] at fresh
      exact stopped.elim solid fresh
    · have turn : run = (do
          let namePtr ← readOrThrow (uint64 process.memory) (cur + nameOff)
          let name := readUtf8 process.memory namePtr 64
          let out := if name ≠ [] ∧ base ≤ cur then
              (ofList entries).set name (cur - base + stateOff).toInt64
            else ofList entries
          let next ← readOrThrow (uint64 process.memory) (cur + nextOff)
          walkButtons process base nameOff stateOff nextOff guard (cur :: seen) next out) := by
        simp only [run, walkButtons, if_neg stopped]
      have unread (failed : link cur = none) : nodes = [] ∧ Broken link (guard + 1) seen [] cur := by
        have solid := not_or.mp stopped
        exact ⟨visited_unread stopped failed, Nat.zero_lt_succ _, solid.1,
          by simpa using solid.2, failed⟩
      cases named : uint64 process.memory (cur + nameOff) with
      | none =>
        have failed : link cur = none := by simp only [link, buttonLink, named]; rfl
        obtain ⟨none_, broken⟩ := unread failed
        obtain ⟨what, thrown⟩ := readOrThrow_none named
        rw [none_, turn, thrown]
        exact ⟨cur, rfl, .inl ⟨broken, what, rfl⟩⟩
      | some namePtr =>
        rw [turn, readOrThrow_some named, ok_bind]
        cases linked : uint64 process.memory (cur + nextOff) with
        | none =>
          have failed : link cur = none := by simp only [link, buttonLink, named, linked]; rfl
          obtain ⟨none_, broken⟩ := unread failed
          obtain ⟨what, thrown⟩ := readOrThrow_none linked
          rw [none_, thrown]
          exact ⟨cur, rfl, .inl ⟨broken, what, rfl⟩⟩
        | some next =>
          have read : link cur = some (readUtf8 process.memory namePtr 64, next) := by
            simp only [link, buttonLink, named, linked]
            rfl
          have passed : nodes = _ := visited_next stopped read
          rw [readOrThrow_some linked, ok_bind, passed]
          obtain ⟨last, path, outcome⟩ := ih (cur :: seen) next
            (entries ++ (buttonEntry base stateOff (cur, readUtf8 process.memory namePtr 64)).toList)
          refine ⟨last, ⟨rfl, next, read, path⟩, ?_⟩
          have set : (if readUtf8 process.memory namePtr 64 ≠ [] ∧ base ≤ cur then
              (ofList entries).set (readUtf8 process.memory namePtr 64)
                (cur - base + stateOff).toInt64
              else ofList entries) = ofList (entries ++
                (buttonEntry base stateOff (cur, readUtf8 process.memory namePtr 64)).toList) := by
            unfold buttonEntry
            split
            · exact (ofList_append ..).symm
            · rw [Option.toList_none, List.append_nil]
          have listed : (entries ++ ((cur, readUtf8 process.memory namePtr 64) ::
              visited link 0 guard (cur :: seen) next).filterMap (buttonEntry base stateOff)) =
              entries ++ (buttonEntry base stateOff (cur, readUtf8 process.memory namePtr 64)).toList ++
                (visited link 0 guard (cur :: seen) next).filterMap (buttonEntry base stateOff) := by
            rw [List.filterMap_cons, List.append_assoc]
            cases buttonEntry base stateOff (cur, readUtf8 process.memory namePtr 64) <;> rfl
          rw [set, listed, broken_cons_iff]
          exact outcome

def buttonKeys : List String := ["button.name", "button.state", "button.next"]

def storedButton (mem : Target) (l : LayoutConfig) : Address → Option (Text × Address) :=
  buttonLink mem (offset l "button.name") (offset l "button.next")

/-- The list of buttons begins there, in a module at this base. -/
def ButtonsAt (process : Process) (signatures : SignatureDatabase) (base head : Address) : Prop :=
  ∃ mv rva, loadModule process (text "client.dll") = .ok mv ∧ mv.module.base = base ∧
    FirstResolves mv (signatures.candidates mv.module.name (text "__ButtonList")) rva ∧
    uint64 process.memory (base + rva.toUInt64) = some head

theorem loadModule_small {name : Text} {mv : ModuleView} (small : process.Small)
    (loaded : loadModule process name = .ok mv) : mv.bytes.length < 2 ^ 32 := by
  obtain ⟨named, long⟩ := loadModule_spec loaded
  rw [long]
  exact small.named name mv.module named

theorem analyzeButtons_eq (known : Known l buttonKeys) (small : process.Small)
    {base head : Address} (here : ButtonsAt process signatures base head) :
    analyzeButtons process signatures l = Analysis.of (walkButtons process base
      (offset l "button.name") (offset l "button.state") (offset l "button.next") maxNodes [] head
      empty) := by
  obtain ⟨mv, rva, loaded, rfl, resolves, read⟩ := here
  obtain ⟨found, resolved, first⟩ := resolveSignature_spec (loadModule_small small loaded)
    signatures (text "__ButtonList")
  cases (first rva).mpr resolves
  unfold analyzeButtons
  simp only [loaded, of_ok, ok_bind, resolved, readOrThrow_some read,
    get_known known (show "button.name" ∈ buttonKeys by decide),
    get_known known (show "button.state" ∈ buttonKeys by decide),
    get_known known (show "button.next" ∈ buttonKeys by decide)]

/-- The buttons of the target are those of its list, up to the null pointer, a button passed
   before or ten thousand buttons; one that cannot be read refuses them all. A name has the
   place of the last button of that name, and a button below the module has none. -/
theorem buttons_exact (known : Known l buttonKeys) (small : process.Small)
    {base head : Address} (here : ButtonsAt process signatures base head) :
    ∃ nodes last, Passed (storedButton process.memory l) 0 maxNodes [] head nodes ∧
      Path (storedButton process.memory l) head nodes last ∧
      (Broken (storedButton process.memory l) maxNodes [] nodes last →
        ∃ what, analyzeButtons process signatures l = .error (.thrown what)) ∧
      (¬ Broken (storedButton process.memory l) maxNodes [] nodes last →
        ∃ out, analyzeButtons process signatures l = .ok out ∧
          ∀ name value, out.find? name = some value ↔
            ∃ before button after, nodes = before ++ (button, name) :: after ∧ name ≠ [] ∧
              base ≤ button ∧ value = (button - base + offset l "button.state").toInt64 ∧
              ∀ later, (later, name) ∈ after → ¬ base ≤ later) := by
  have run := analyzeButtons_eq known small here
  obtain ⟨last, path, outcome⟩ := walkButtons_spec process base (offset l "button.name")
    (offset l "button.state") (offset l "button.next") maxNodes [] head []
  refine ⟨_, last, visited_passed 0 maxNodes [] head, path, fun broken => ?_, fun whole => ?_⟩
  · obtain ⟨-, what, thrown⟩ := outcome.resolve_right fun ended => ended.1 broken
    refine ⟨what, ?_⟩
    rw [run]
    exact congrArg Analysis.of thrown
  · obtain ⟨-, ended⟩ := outcome.resolve_left fun stopped => whole stopped.1
    refine ⟨_, by rw [run]; exact congrArg Analysis.of ended, fun name value => ?_⟩
    rw [List.nil_append, find_filterMap_iff]
    have entered {node : Address × Text} {w : Int64} :
        buttonEntry base (offset l "button.state") node = some (name, w) ↔ node.2 = name ∧
          name ≠ [] ∧ base ≤ node.1 ∧ w = (node.1 - base + offset l "button.state").toInt64 := by
      unfold buttonEntry
      rw [Option.ite_none_right_eq_some, Option.some.injEq, Prod.mk.injEq]
      constructor
      · rintro ⟨⟨named, low⟩, rfl, rfl⟩
        exact ⟨rfl, named, low, rfl⟩
      · rintro ⟨rfl, named, low, rfl⟩
        exact ⟨⟨named, low⟩, rfl, rfl⟩
    constructor
    · rintro ⟨before, ⟨button, title⟩, after, split, entry, others⟩
      obtain ⟨rfl, named, low, rfl⟩ := entered.mp entry
      refine ⟨before, button, after, split, named, low, rfl, fun later member low' => ?_⟩
      exact others _ member _ (entered.mpr ⟨rfl, named, low', rfl⟩)
    · rintro ⟨before, button, after, split, named, low, rfl, others⟩
      refine ⟨before, _, after, split, entered.mpr ⟨rfl, named, low, rfl⟩, ?_⟩
      rintro ⟨later, title⟩ member w entry
      obtain ⟨rfl, -, low', -⟩ := entered.mp entry
      exact others later member low'

theorem sample_buttons : ButtonsAt sampleProcess sampleSignatures 0x10000 0x47000 := by
  have loaded : ∃ mv, loadModule sampleProcess (text "client.dll") = .ok mv ∧
      mv.module = sampleModule ∧
      resolveSignature mv sampleSignatures (text "__ButtonList") = .ok (some 0x80) := by
    have valid : ((loadModule sampleProcess (text "client.dll")).toOption.map fun mv =>
        (mv.module, resolveSignature mv sampleSignatures (text "__ButtonList"))) =
        some (sampleModule, .ok (some 0x80)) := by decide +kernel
    obtain ⟨mv, found, same⟩ := Option.map_eq_some_iff.mp valid
    cases loaded : loadModule sampleProcess (text "client.dll") with
    | error what =>
      rw [loaded] at found
      cases found
    | ok mv' =>
      rw [loaded] at found
      cases found
      exact ⟨mv, rfl, congrArg Prod.fst same, congrArg Prod.snd same⟩
  obtain ⟨mv, loaded, named, resolved⟩ := loaded
  obtain ⟨found, resolved', first⟩ := resolveSignature_spec (loadModule_small sample_small loaded)
    sampleSignatures (text "__ButtonList")
  rw [resolved] at resolved'
  cases resolved'
  exact ⟨mv, 0x80, loaded, by rw [named]; rfl, (first _).mp rfl, by decide +kernel⟩

theorem buttons_exact_sample :
    ∃ nodes last, Passed (storedButton sampleMemory .defaults) 0 maxNodes [] 0x47000 nodes ∧
      Path (storedButton sampleMemory .defaults) 0x47000 nodes last ∧
      (Broken (storedButton sampleMemory .defaults) maxNodes [] nodes last →
        ∃ what, analyzeButtons sampleProcess sampleSignatures .defaults =
          .error (.thrown what)) ∧
      (¬ Broken (storedButton sampleMemory .defaults) maxNodes [] nodes last →
        ∃ out, analyzeButtons sampleProcess sampleSignatures .defaults = .ok out ∧
          ∀ name value, out.find? name = some value ↔
            ∃ before button after, nodes = before ++ (button, name) :: after ∧ name ≠ [] ∧
              0x10000 ≤ button ∧
              value = (button - 0x10000 + offset .defaults "button.state").toInt64 ∧
              ∀ later, (later, name) ∈ after → ¬ 0x10000 ≤ later) :=
  buttons_exact (known_of_found (by decide)) sample_small sample_buttons

end ButtonList

section Soundness

variable {endless : Prop}

/-- Where an offset may come from: a signature of its name, the sum of a signature and the one
   of its callback, or the layout. -/
def Sourced (process : Process) (signatures : SignatureDatabase) (l : LayoutConfig)
    (moduleName name : Text) (value : UInt32) : Prop :=
  ∃ mv, loadModule process moduleName = .ok mv ∧
    let resolves := fun name v => FirstResolves mv (signatures.candidates mv.module.name name) v
    (∃ v, resolves name v ∧ value = v.toUInt32) ∨
    (∃ first v extraName extra, resolves first v ∧ resolves extraName extra ∧
      (extraName, name) ∈ [(text "__ViewAngles", text "dwViewAngles"),
        (text "__LocalPlayerPawn", text "dwLocalPlayerPawn")] ∧
      value = v.toUInt32 + extra.toUInt32) ∨
    name = text "dwSensitivity_sensitivity" ∧
      ∃ place, l.get (text "offset.dwSensitivity_sensitivity") = .ok place ∧ value = place.toUInt32

def AllSourced (process : Process) (signatures : SignatureDatabase) (l : LayoutConfig)
    (out : OffsetMap) : Prop :=
  ∀ module ∈ out.entries, ∀ entry ∈ module.2.entries,
    Sourced process signatures l module.1 entry.1 entry.2

def Has (out : OffsetMap) (moduleName name : Text) : Prop :=
  ∃ values value, out.find? moduleName = some values ∧ values.find? name = some value

/-- The module of a group can be loaded and a signature of the group resolves in it. -/
def Resolves (process : Process) (signatures : SignatureDatabase) (group : GroupKey) : Prop :=
  ∃ mv v, loadModule process group.module = .ok mv ∧
    FirstResolves mv (signatures.candidates mv.module.name group.name) v

/-- Every offset comes from somewhere, those of earlier turns stay, and the groups among these
   whose signature resolves have theirs. -/
structure Collected (process : Process) (signatures : SignatureDatabase) (l : LayoutConfig)
    (groups : List (GroupKey × List SignatureCandidate)) (before out : OffsetMap) : Prop where
  sourced : AllSourced process signatures l out
  kept : ∀ moduleName name, Has before moduleName name → Has out moduleName name
  found : ∀ group ∈ groups, Resolves process signatures group.1 →
    Has out group.1.module group.1.name

theorem Collected.refl {out : OffsetMap} (sourced : AllSourced process signatures l out) :
    Collected process signatures l [] out out :=
  ⟨sourced, fun _ _ has => has, fun group member => (by cases member)⟩

theorem Collected.trans {groups groups' : List (GroupKey × List SignatureCandidate)}
    {before mid out : OffsetMap} (first : Collected process signatures l groups before mid)
    (rest : Collected process signatures l groups' mid out) :
    Collected process signatures l (groups ++ groups') before out := by
  refine ⟨rest.sourced, fun moduleName name has => rest.kept _ _ (first.kept _ _ has), ?_⟩
  intro group member resolves
  rcases List.mem_append.mp member with earlier | later
  · exact rest.kept _ _ (first.found group earlier resolves)
  · exact rest.found group later resolves

/-- The build number that the offset leads to can be read and is plausible. -/
def BuildPlausible (process : Process) (base : Address) (m : Map Text UInt32) : Prop :=
  ∃ place build, m.find? (text "dwBuildNumber") = some place ∧
    uint32 process.memory (base + place.toUInt64) = some build ∧ 1000 ≤ build ∧ build ≤ 10000000

/-- Both sides of the window can be read and one of them is implausible. -/
def WindowImplausible (process : Process) (base : Address) (m : Map Text UInt32) : Prop :=
  ∃ w h width height, m.find? (text "dwWindowWidth") = some w ∧
    m.find? (text "dwWindowHeight") = some h ∧
    uint32 process.memory (base + w.toUInt64) = some width ∧
    uint32 process.memory (base + h.toUInt64) = some height ∧
    ¬ (200 ≤ width ∧ width ≤ 20000 ∧ 200 ≤ height ∧ height ≤ 20000)

/-- The offsets of the engine that its own values speak against. -/
def Refused (process : Process) (base : Address) (m : Map Text UInt32) (name : Text) : Prop :=
  name = text "dwBuildNumber" ∧ ¬ BuildPlausible process base m ∨
  (name = text "dwWindowWidth" ∨ name = text "dwWindowHeight") ∧ WindowImplausible process base m

/-- What a part gives by itself, and nothing where it throws. -/
def PartOf {α : Type} (part : Analysis α) (blank value : α) : Prop :=
  part = .ok value ∨ (∃ what, part = .error (.thrown what)) ∧ value = blank

/-- Whatever becomes of the others, each part of a dump is what its own analysis gives. -/
structure Apart (process : Process) (signatures : SignatureDatabase) (l : LayoutConfig)
    (rounds : Nat) (result : AnalysisResult) : Prop where
  buttons : PartOf (analyzeButtons process signatures l) empty result.buttons
  interfaces : PartOf (analyzeInterfaces process l) empty result.interfaces
  offsets : PartOf (analyzeOffsets process signatures l) empty result.offsets
  schemas : PartOf (analyzeSchemas process signatures l rounds) empty result.schemas

end Soundness

end DumperAnalysis
