import GameSecurity.LinkedChain
import GameSecurity.TargetProcess

/- analysis.cpp: the interfaces that the modules of the target register in linked lists. -/
namespace InterfaceLists
open AsciiText RuntimeConfig ByteMemory SortedMap PortableExecutable SchemaHash SchemaBindings
open DumperOutput LinkedChain TargetProcess
open PortableExports (exportRva exportRva_ofBytes Exported)

def addSigned (a : Address) (b : Int64) : Address := a + b.toUInt64

def displacement (code : List UInt8) (i : Nat) : Int64 :=
  (ofBytes ((code.drop i).take 4)).toUInt32.toInt32.toInt64

def relative (code : List UInt8) (i : Nat) : Bool :=
  code.getD i 0 &&& 0xF0 = 0x40 ∧ (code.getD (i + 1) 0 = 0x8D ∨ code.getD (i + 1) 0 = 0x8B) ∧
    code.getD (i + 2) 0 &&& 0xC7 = 0x05

section Decoding

variable (mem : Target)

/-- The first number is how many of the five levels are left. -/
def decodeFactoryTarget : Nat → Address → Option Address
  | 0, _ => none
  | levels + 1, fn =>
    if fn = 0 then none
    else
      match block mem 16 fn with
      | none => none
      | some code =>
        if code.getD 0 0 = 0xE9 then
          decodeFactoryTarget levels (addSigned (fn + 5) (displacement code 1))
        else if code.getD 0 0 = 0xEB then
          decodeFactoryTarget levels (addSigned (fn + 2) (code.getD 1 0).toInt8.toInt64)
        else if relative code 0 then
          let slotOrObject := addSigned (fn + 7) (displacement code 3)
          if code.getD 1 0 = 0x8D then some slotOrObject
          else
            match uint64 mem slotOrObject with
            | none => some slotOrObject
            | some loaded => if plausibleUserPointer loaded then some loaded else some slotOrObject
        else
          let imm := (ofBytes ((code.drop 2).take 8)).toUInt64
          if code.getD 0 0 = 0x48 ∧ code.getD 1 0 = 0xB8 ∧ plausibleUserPointer imm then some imm
          else none

def loadsHead (code : List UInt8) (i : Nat) : Bool :=
  code.getD i 0 &&& 0xF0 = 0x40 ∧ code.getD (i + 1) 0 = 0x8B ∧ code.getD (i + 2) 0 &&& 0xC7 = 0x05

/-- The function behind a jump, with its first instructions. -/
def followJump (fn : Address) (code : List UInt8) : Option (Address × List UInt8) :=
  if code.getD 0 0 = 0xE9 then
    let target := addSigned (fn + 5) (displacement code 1)
    (block mem 24 target).map fun code => (target, code)
  else some (fn, code)

def decodeCreateInterfaceList (exportFn : Address) : Option Address := do
  if exportFn = 0 then none
  let code ← block mem 24 exportFn
  let (fn, code) ← followJump mem exportFn code
  match (List.range 18).find? (loadsHead code) with
  | some i => some (addSigned (fn + i.toUInt64 + 7) (displacement code (i + 3)))
  | none =>
    let candidate := addSigned (fn + 7) (displacement code 3)
    if plausibleUserPointer candidate then some candidate else none

/-- The reads of a node, in this order; none: one of them throws. It carries the function that
   creates the interface, and its name. -/
def interfaceLink (createOff nameOff nextOff : Address) (cur : Address) :
    Option ((Address × Text) × Address) := do
  let createFn ← uint64 mem (cur + createOff)
  let namePtr ← uint64 mem (cur + nameOff)
  let next ← uint64 mem (cur + nextOff)
  return ((createFn, readUtf8 mem namePtr 256), next)

def interfaceEntry (carried : Address × Text) : Option (Text × Address) :=
  if carried.2 = [] then none
  else
    match decodeFactoryTarget mem 5 carried.1 with
    | none => none
    | some instance_ => if plausibleUserPointer instance_ then some (carried.2, instance_) else none

def maxNodes : Nat := 10000

/-- The loop over the list; the first number is what the guard still allows. -/
def walkInterfaces (link : Address → Option ((Address × Text) × Address)) :
    Nat → List Address → Address → Map Text Address → Map Text Address
  | 0, _, _, out => out
  | guard + 1, seen, cur, out =>
    if cur = 0 ∨ cur ∈ seen then out
    else
      match link cur with
      | none => out
      | some (carried, next) =>
        let out :=
          match interfaceEntry mem carried with
          | none => out
          | some (name, instance_) => out.set name instance_
        walkInterfaces link guard (cur :: seen) next out

end Decoding

def lookupExport (pe : PeImage) (name : Text) : Analysis (Option Rva) :=
  match exportRva pe name with
  | .error _ => .error .fault
  | .ok rva => .ok rva

/-- read_module_interfaces up to the read of the list's head; none: it returns no interfaces. -/
def interfaceListHead (process : Process) (module : ModuleInfo) : Analysis (Option Address) := do
  let bytes ← Analysis.of (readBytes process.memory module.base module.size.toNat)
  if (PeImage.ofBytes (span bytes)).valid = false then return none
  match ← lookupExport (PeImage.ofBytes (span bytes)) (text "CreateInterface") with
  | none => return none
  | some createInterface =>
    match decodeCreateInterfaceList process.memory (module.base + createInterface.toUInt64) with
    | none => return none
    | some listSlot => return uint64 process.memory listSlot

def readModuleInterfaces (process : Process) (module : ModuleInfo) (l : LayoutConfig) :
    Analysis (Map Text Address) := do
  match ← interfaceListHead process module with
  | none => return empty
  | some cur =>
    let createOff ← Analysis.of (l.get (text "interface.create_fn"))
    let nameOff ← Analysis.of (l.get (text "interface.name"))
    let nextOff ← Analysis.of (l.get (text "interface.next"))
    return walkInterfaces process.memory (interfaceLink process.memory createOff nameOff nextOff)
      maxNodes [] cur empty

def findInterfaceInstance (process : Process) (moduleName interfaceName : Text)
    (l : LayoutConfig) : Analysis (Option Address) := do
  let module ← Analysis.of (process.moduleByName moduleName)
  let interfaces ← readModuleInterfaces process module l
  return interfaces.find? interfaceName

def moduleRvas (module : ModuleInfo) (interfaces : Map Text Address) : Map Text UInt64 :=
  ofList (interfaces.entries.filterMap fun entry =>
    if module.base ≤ entry.2 ∧ entry.2 < module.base + module.size then
      some (entry.1, entry.2 - module.base)
    else none)

/-- One turn of the loop over the modules, which catches every exception. -/
def addModule (process : Process) (l : LayoutConfig) (out : InterfaceMap) (module : ModuleInfo) :
    Analysis InterfaceMap :=
  if module.name = text "crashandler64.dll" then .ok out
  else
    Analysis.catchWith (do
      let interfaces ← readModuleInterfaces process module l
      let rvas := moduleRvas module interfaces
      return if rvas.entries ≠ [] then out.set module.name rvas else out) out

def analyzeInterfaces (process : Process) (l : LayoutConfig) : Analysis InterfaceMap := do
  let modules ← Analysis.of process.moduleList
  modules.foldlM (addModule process l) empty

def interfaceKeys : List String := ["interface.create_fn", "interface.name", "interface.next"]

def storedLink (mem : Target) (l : LayoutConfig) :
    Address → Option ((Address × Text) × Address) :=
  interfaceLink mem (offset l "interface.create_fn") (offset l "interface.name")
    (offset l "interface.next")

/-- The module's exported function leads to a list that begins there. -/
def HeadAt (process : Process) (module : ModuleInfo) (head : Address) : Prop :=
  ∃ bytes createInterface listSlot,
    readBytes process.memory module.base module.size.toNat = .ok bytes ∧
    Exported (span bytes) (text "CreateInterface") createInterface ∧
    decodeCreateInterfaceList process.memory (module.base + createInterface.toUInt64) =
      some listSlot ∧
    uint64 process.memory listSlot = some head

/-- The module's list has a node of this name whose function gives this instance, and behind
   it none of this name that gives one. -/
def Registers (process : Process) (l : LayoutConfig) (module : ModuleInfo) (name : Text)
    (instance_ : Address) : Prop :=
  ∃ head before node after, HeadAt process module head ∧
    Passed (storedLink process.memory l) 0 maxNodes [] head (before ++ node :: after) ∧
    interfaceEntry process.memory node.2 = some (name, instance_) ∧
    ∀ later ∈ after, ∀ other, interfaceEntry process.memory later.2 ≠ some (name, other)

def Located (process : Process) (l : LayoutConfig) (module : ModuleInfo) (name : Text)
    (rva : UInt64) : Prop :=
  module.name ≠ text "crashandler64.dll" ∧ ∃ instance_, Registers process l module name instance_ ∧
    module.base ≤ instance_ ∧ instance_ < module.base + module.size ∧
    rva = instance_ - module.base

variable {process : Process} {l : LayoutConfig} {module : ModuleInfo} {name : Text}

theorem walkInterfaces_eq (mem : Target) (link : Address → Option ((Address × Text) × Address))
    (guard : Nat) (seen : List Address) (cur : Address) (entries : List (Text × Address)) :
    walkInterfaces mem link guard seen cur (ofList entries) =
      ofList (entries ++ (visited link 0 guard seen cur).filterMap fun node =>
        interfaceEntry mem node.2) := by
  induction guard generalizing seen cur entries with
  | zero => simp [walkInterfaces, visited]
  | succ guard ih =>
    rw [walkInterfaces, visited]
    by_cases stopped : cur = 0 ∨ cur ∈ seen
    · simp [stopped]
    · rw [if_neg stopped, if_neg stopped]
      cases linked : link cur with
      | none => simp
      | some read =>
        obtain ⟨carried, next⟩ := read
        rw [List.filterMap_cons]
        cases entered : interfaceEntry mem carried with
        | none => simpa [entered] using ih (cur :: seen) next entries
        | some entry =>
          have later := ih (cur :: seen) next (entries ++ [entry])
          rw [ofList_append, List.append_assoc] at later
          simpa [entered] using later

theorem lookupExport_spec {bytes : List UInt8} (small : bytes.length < 2 ^ 32) {wanted : Text}
    (some_ : wanted ≠ []) :
    ∃ result, lookupExport (PeImage.ofBytes (span bytes)) wanted = .ok result ∧
      ∀ rva, result = some rva ↔ Exported (span bytes) wanted rva := by
  obtain ⟨result, found, exported⟩ := @exportRva_ofBytes wanted (span bytes) small some_
  refine ⟨result, ?_, exported⟩
  rw [lookupExport, found]

theorem interfaceListHead_spec (small : module.size.toNat < 2 ^ 32) :
    (∃ what, interfaceListHead process module = .error (.thrown what) ∧
      ∀ head, ¬ HeadAt process module head) ∨
    ∃ result, interfaceListHead process module = .ok result ∧
      ∀ head, result = some head ↔ HeadAt process module head := by
  unfold interfaceListHead
  cases read : readBytes process.memory module.base module.size.toNat with
  | error what =>
    refine .inl ⟨what, rfl, ?_⟩
    rintro head ⟨bytes, _, _, readable, -⟩
    rw [read] at readable
    cases readable
  | ok bytes =>
    right
    have known (head : Address) : HeadAt process module head ↔ ∃ createInterface listSlot,
        Exported (span bytes) (text "CreateInterface") createInterface ∧
        decodeCreateInterfaceList process.memory (module.base + createInterface.toUInt64) =
          some listSlot ∧
        uint64 process.memory listSlot = some head := by
      constructor
      · rintro ⟨bytes', createInterface, listSlot, readable, rest⟩
        rw [read] at readable
        cases readable
        exact ⟨createInterface, listSlot, rest⟩
      · rintro ⟨createInterface, listSlot, rest⟩
        exact ⟨bytes, createInterface, listSlot, read, rest⟩
    obtain ⟨result, looked, exported⟩ := @lookupExport_spec bytes
      (by rwa [readBytes_length read]) _ (show text "CreateInterface" ≠ [] by decide)
    rw [of_ok, ok_bind]
    by_cases invalid : (PeImage.ofBytes (span bytes)).valid = false
    · rw [if_pos invalid]
      refine ⟨none, rfl, fun head => iff_of_false (Option.some_ne_none _).symm ?_⟩
      rw [known]
      rintro ⟨_, _, exported', -⟩
      have valid := ofBytes_wellFormed
        (show bytes.length < 2 ^ 32 by rwa [readBytes_length read]) exported'.1
      exact Bool.false_ne_true (invalid.symm.trans valid)
    rw [if_neg invalid, looked, ok_bind]
    cases result with
    | none =>
      refine ⟨none, rfl, fun head => iff_of_false (Option.some_ne_none _).symm ?_⟩
      rw [known]
      rintro ⟨createInterface, _, exported', -⟩
      cases (exported createInterface).mpr exported'
    | some createInterface =>
      have only {other : Rva} (there : Exported (span bytes)
          (text "CreateInterface") other) : createInterface = other :=
        Option.some.inj ((exported other).mpr there)
      have here := (exported createInterface).mp rfl
      dsimp only
      cases decoded : decodeCreateInterfaceList process.memory
          (module.base + createInterface.toUInt64) with
      | none =>
        refine ⟨none, rfl, fun head => iff_of_false (Option.some_ne_none _).symm ?_⟩
        rw [known]
        rintro ⟨other, listSlot, exported', decoded', -⟩
        rw [← only exported', decoded] at decoded'
        cases decoded'
      | some listSlot =>
        refine ⟨_, rfl, fun head => ?_⟩
        rw [known]
        constructor
        · exact fun loaded => ⟨createInterface, listSlot, here, decoded, loaded⟩
        · rintro ⟨other, listSlot', exported', decoded', loaded⟩
          rw [← only exported', decoded] at decoded'
          cases decoded'
          exact loaded

/-- Reading a module's interfaces ends with an exception, or it gives what the module registers;
   it does not look outside the module's bytes. -/
theorem readModuleInterfaces_spec (known : Known l interfaceKeys)
    (small : module.size.toNat < 2 ^ 32) :
    (∃ what, readModuleInterfaces process module l = .error (.thrown what) ∧
      ∀ name instance_, ¬ Registers process l module name instance_) ∨
    ∃ out, readModuleInterfaces process module l = .ok out ∧
      ∀ name instance_, out.find? name = some instance_ ↔
        Registers process l module name instance_ := by
  unfold readModuleInterfaces
  rcases @interfaceListHead_spec process module small with
    ⟨what, thrown, none_⟩ | ⟨result, found, heads⟩
  · refine .inl ⟨what, by rw [thrown]; rfl, ?_⟩
    rintro name instance_ ⟨head, _, _, _, headAt, -⟩
    exact none_ head headAt
  · right
    rw [found, ok_bind]
    cases result with
    | none =>
      refine ⟨empty, rfl, fun name instance_ => iff_of_false (by simp [empty, Map.find?, lookup]) ?_⟩
      rintro ⟨head, _, _, _, headAt, -⟩
      cases (heads head).mpr headAt
    | some cur =>
      have walked := walkInterfaces_eq process.memory (storedLink process.memory l) maxNodes [] cur []
      simp only [get_known known (show "interface.create_fn" ∈ interfaceKeys by decide),
        get_known known (show "interface.name" ∈ interfaceKeys by decide),
        get_known known (show "interface.next" ∈ interfaceKeys by decide), of_ok, ok_bind]
      refine ⟨_, rfl, fun name instance_ => ?_⟩
      change (walkInterfaces _ (storedLink process.memory l) maxNodes [] cur (ofList [])).find? name =
        some instance_ ↔ _
      rw [walked, List.nil_append, find_filterMap_iff]
      constructor
      · rintro ⟨before, node, after, split, entered, others⟩
        exact ⟨cur, before, node, after, (heads cur).mp rfl, visited_eq_iff.mp split, entered, others⟩
      · rintro ⟨head, before, node, after, headAt, passed, entered, others⟩
        cases (heads head).mpr headAt
        exact ⟨before, node, after, visited_eq_iff.mpr passed, entered, others⟩

theorem moduleRvas_iff {interfaces : Map Text Address} {rva : UInt64} :
    (moduleRvas module interfaces).find? name = some rva ↔
      ∃ instance_, interfaces.find? name = some instance_ ∧ module.base ≤ instance_ ∧
        instance_ < module.base + module.size ∧ rva = instance_ - module.base := by
  rw [moduleRvas, find_filterMap_iff]
  constructor
  · rintro ⟨before, ⟨key, instance_⟩, after, split, here, -⟩
    dsimp only at here
    split at here
    · rename_i inside
      cases here
      have entry : (name, instance_) ∈ interfaces.entries := by
        rw [split]
        exact List.mem_append_right _ List.mem_cons_self
      exact ⟨instance_, find_iff_mem.mpr entry, inside.1, inside.2, rfl⟩
    · cases here
  · rintro ⟨instance_, found, low, high, rfl⟩
    obtain ⟨before, after, split⟩ := List.append_of_mem (find_iff_mem.mp found)
    have ordered := interfaces.ascending
    rw [split] at ordered
    obtain ⟨-, apart, -⟩ := List.pairwise_append.mp ordered
    refine ⟨before, _, after, split, if_pos ⟨low, high⟩, fun later member w there => ?_⟩
    have behind := (List.pairwise_cons.mp apart).1 later member
    split at there
    · cases there
      exact Std.Irrefl.irrefl (r := fun a b : Text => a < b) later.1 behind
    · cases there

def moduleTable (process : Process) (l : LayoutConfig) (module : ModuleInfo) : Map Text UInt64 :=
  if module.name = text "crashandler64.dll" then empty
  else
    match readModuleInterfaces process module l with
    | .error _ => empty
    | .ok interfaces => moduleRvas module interfaces

def moduleEntry (process : Process) (l : LayoutConfig) (module : ModuleInfo) :
    Option (Text × Map Text UInt64) :=
  if (moduleTable process l module).entries = [] then none
  else some (module.name, moduleTable process l module)

theorem moduleEntry_iff {moduleName : Text} {table : Map Text UInt64} :
    moduleEntry process l module = some (moduleName, table) ↔ module.name = moduleName ∧
      moduleTable process l module = table ∧ table.entries ≠ [] := by
  unfold moduleEntry
  by_cases none_ : (moduleTable process l module).entries = []
  · rw [if_pos none_]
    refine iff_of_false (Option.some_ne_none _).symm ?_
    rintro ⟨-, rfl, some_⟩
    exact some_ none_
  · rw [if_neg none_, Option.some.injEq, Prod.mk.injEq]
    refine and_congr_right fun _ => ⟨?_, fun same => same.1⟩
    rintro rfl
    exact ⟨rfl, none_⟩

theorem moduleTable_iff (known : Known l interfaceKeys) (small : module.size.toNat < 2 ^ 32)
    {rva : UInt64} : (moduleTable process l module).find? name = some rva ↔
      Located process l module name rva := by
  unfold moduleTable Located
  by_cases skipped : module.name = text "crashandler64.dll"
  · rw [if_pos skipped]
    exact iff_of_false (by simp [empty, Map.find?, lookup]) fun located => located.1 skipped
  · rw [if_neg skipped]
    simp only [ne_eq, skipped, not_false_eq_true, true_and]
    rcases @readModuleInterfaces_spec process l module known small with
      ⟨what, thrown, none_⟩ | ⟨out, read, registered⟩
    · rw [thrown]
      refine iff_of_false (by simp [empty, Map.find?, lookup]) ?_
      rintro ⟨instance_, registers, -⟩
      exact none_ name instance_ registers
    · rw [read]
      simp only [moduleRvas_iff, registered]

theorem addModule_eq (known : Known l interfaceKeys) (small : module.size.toNat < 2 ^ 32)
    (entries : List (Text × Map Text UInt64)) :
    addModule process l (ofList entries) module =
      .ok (ofList (entries ++ (moduleEntry process l module).toList)) := by
  unfold addModule moduleEntry moduleTable
  by_cases skipped : module.name = text "crashandler64.dll"
  · simp [skipped, empty]
  · rw [if_neg skipped, if_neg skipped]
    rcases @readModuleInterfaces_spec process l module known small with
      ⟨what, thrown, -⟩ | ⟨out, read, -⟩
    · rw [thrown, error_bind]
      simp [Analysis.catchWith, empty]
    · rw [read, ok_bind]
      by_cases none_ : (moduleRvas module out).entries = []
      · simp [none_, Analysis.catchWith, pure, Except.pure]
      · simp [none_, Analysis.catchWith, pure, Except.pure, ofList_append]

theorem foldlM_addModule (known : Known l interfaceKeys) {modules : List ModuleInfo}
    (small : ∀ m ∈ modules, m.size.toNat < 2 ^ 32) (entries : List (Text × Map Text UInt64)) :
    modules.foldlM (addModule process l) (ofList entries) =
      .ok (ofList (entries ++ modules.filterMap (moduleEntry process l))) := by
  induction modules generalizing entries with
  | nil => simp [pure, Except.pure]
  | cons m rest ih =>
    rw [List.forall_mem_cons] at small
    rw [List.foldlM_cons, addModule_eq known small.1, ok_bind, ih small.2, List.append_assoc,
      List.filterMap_cons]
    cases moduleEntry process l m <;> rfl

/-- The interfaces of the target are those that the lists of its modules name, each at its
   place in the module: the last node of a name in a list counts, and of modules of one name
   the last that has an interface. A list is followed to its null pointer, to a node that
   cannot be read or was passed before, or for ten thousand nodes. A module that cannot be read
   takes nothing from the others, and no module is looked at outside its bytes. -/
theorem interfaces_exact (known : Known l interfaceKeys) (small : process.Small)
    {modules : List ModuleInfo} (listed : process.moduleList = .ok modules) :
    ∃ out, analyzeInterfaces process l = .ok out ∧ ∀ moduleName name rva,
      (out.find? moduleName).bind (·.find? name) = some rva ↔
        ∃ before module after, modules = before ++ module :: after ∧ module.name = moduleName ∧
          Located process l module name rva ∧
          ∀ later ∈ after, later.name = moduleName →
            ∀ name rva, ¬ Located process l later name rva := by
  have folded := @foldlM_addModule process l known modules (small.listed modules listed) []
  refine ⟨_, by rw [analyzeInterfaces, listed, of_ok, ok_bind]; exact folded, ?_⟩
  intro moduleName name rva
  have within : ∀ m ∈ modules, m.size.toNat < 2 ^ 32 := small.listed modules listed
  rw [List.nil_append, Option.bind_eq_some_iff]
  constructor
  · rintro ⟨table, found, value⟩
    obtain ⟨before, m, after, rfl, entry, others⟩ := find_filterMap_iff.mp found
    obtain ⟨named, rfl, -⟩ := moduleEntry_iff.mp entry
    have inside : m ∈ before ++ m :: after := List.mem_append_right _ List.mem_cons_self
    refine ⟨before, m, after, rfl, named, (moduleTable_iff known (within m inside)).mp value, ?_⟩
    intro later member same name' rva' located
    have among : later ∈ before ++ m :: after :=
      List.mem_append_right _ (List.mem_cons_of_mem _ member)
    have entered := find_iff_mem.mp ((moduleTable_iff known (within later among)).mpr located)
    exact others later member _ (moduleEntry_iff.mpr ⟨same, rfl, List.ne_nil_of_mem entered⟩)
  · rintro ⟨before, m, after, rfl, named, located, others⟩
    have inside : m ∈ before ++ m :: after := List.mem_append_right _ List.mem_cons_self
    have value := (moduleTable_iff known (within m inside)).mpr located
    have some_ := List.ne_nil_of_mem (find_iff_mem.mp value)
    refine ⟨_, find_filterMap_iff.mpr ⟨before, m, after, rfl,
      moduleEntry_iff.mpr ⟨named, rfl, some_⟩, fun later member table entry => ?_⟩, value⟩
    obtain ⟨same, rfl, entered⟩ := moduleEntry_iff.mp entry
    obtain ⟨⟨name', rva'⟩, found⟩ := List.exists_mem_of_ne_nil _ entered
    have among : later ∈ before ++ m :: after :=
      List.mem_append_right _ (List.mem_cons_of_mem _ member)
    exact others later member same name' rva'
      ((moduleTable_iff known (within later among)).mp (find_iff_mem.mpr found))

/-- A module that exports CreateInterface, at 0x180; its list, whose head is stored at 0x1A8,
   has one node, at 0x1B0, and the node's function, at 0x1D0, gives the instance at 0x1F0. -/
def engineBytes : List (Nat × List UInt8) :=
  [(0x00, [0x4D, 0x5A]), (0x3C, [0x40]), (0x40, [0x50, 0x45]), (0x58, [0x0B, 0x02]),
    (0xC8, [0x00, 0x01]), (0xCC, [0x28]), (0x114, [0x01]), (0x118, [0x01]),
    (0x11C, [0x50, 0x01]), (0x120, [0x54, 0x01]), (0x124, [0x58, 0x01]), (0x150, [0x80, 0x01]),
    (0x154, [0x60, 0x01]), (0x160, text "CreateInterface"), (0x180, [0x48, 0x8B, 0x05, 0x21]),
    (0x1A8, [0xB0, 0x01, 0x02]), (0x1B0, [0xD0, 0x01, 0x02]), (0x1B8, [0xC8, 0x01, 0x02]),
    (0x1C8, text "Source2"), (0x1D0, [0x48, 0x8D, 0x05, 0x19])]

def engineByte (i : Nat) : UInt8 :=
  match engineBytes.find? fun piece => decide (piece.1 ≤ i ∧ i < piece.1 + piece.2.length) with
  | none => 0
  | some piece => piece.2.getD (i - piece.1) 0

def engineModule : ModuleInfo := ⟨text "engine2.dll", 0x20000, 0x200⟩

def engineProcess : Process where
  memory a := if 0x20000 ≤ a ∧ a < 0x20200 then some (engineByte (a - 0x20000).toNat) else none
  moduleList := .ok [engineModule]
  moduleByName _ := .ok engineModule

theorem interfaces_exact_engine :
    ∃ out, analyzeInterfaces engineProcess .defaults = .ok out ∧
      (out.find? (text "engine2.dll")).bind (·.find? (text "Source2")) = some 0x1F0 ∧
      Located engineProcess .defaults engineModule (text "Source2") 0x1F0 := by
  have small : engineProcess.Small := by
    constructor
    · rintro _ ⟨⟩ m member
      rw [List.mem_singleton.mp member]
      decide
    · rintro _ _ ⟨⟩
      decide
  obtain ⟨out, ran, found⟩ := @interfaces_exact engineProcess .defaults
    (known_of_found (by decide)) small _ rfl
  have value : (analyzeInterfaces engineProcess .defaults).toOption.map (fun out =>
      (out.find? (text "engine2.dll")).bind (·.find? (text "Source2"))) = some (some 0x1F0) := by
    decide +kernel
  rw [ran] at value
  have here := Option.some.inj value
  refine ⟨out, ran, here, ?_⟩
  obtain ⟨before, m, after, split, -, located, -⟩ := (found _ _ _).mp here
  have only : m ∈ [engineModule] := by
    rw [split]
    exact List.mem_append_right _ List.mem_cons_self
  exact List.mem_singleton.mp only ▸ located

section Soundness

variable {endless : Prop}

def Inside (process : Process) (entry : Text × Map Text UInt64) : Prop :=
  entry.2.entries ≠ [] ∧ ∃ modules module, process.moduleList = .ok modules ∧ module ∈ modules ∧
    module.name = entry.1 ∧
    ∀ interface ∈ entry.2.entries, interface.1 ≠ [] ∧ Plain 256 interface.1 ∧
      interface.2 < module.size

end Soundness

end InterfaceLists
