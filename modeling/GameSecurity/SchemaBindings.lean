import GameSecurity.ByteMemory
import GameSecurity.DumperOutput
import GameSecurity.SchemaHash

/- analysis.cpp: the classes and enums of a schema as they stand in another process, and what
   reading them gives. -/
namespace SchemaBindings
open AsciiText RuntimeConfig ByteMemory DumperOutput SchemaHash

/-- The bytes of the target that can be read: read_raw fails where one of them is missing. -/
abbrev Target := Address → Option UInt8

def uint8 (mem : Target) (a : Address) : Option UInt8 := (number mem 1 a).map Nat.toUInt8

def uint16 (mem : Target) (a : Address) : Option UInt16 := (number mem 2 a).map Nat.toUInt16

def uint32 (mem : Target) (a : Address) : Option UInt32 := (number mem 4 a).map Nat.toUInt32

def uint64 (mem : Target) (a : Address) : Option UInt64 := (number mem 8 a).map Nat.toUInt64

def int16 (mem : Target) (a : Address) : Option Int16 := (uint16 mem a).map UInt16.toInt16

def int32 (mem : Target) (a : Address) : Option Int32 := (uint32 mem a).map UInt32.toInt32

def processMemory (mem : Target) : ProcessMemory where
  int32 := int32 mem
  uint64 := uint64 mem

/-- read_utf8 as it is called, with lossy set: where the block cannot be read as a whole, it
   is read byte by byte. -/
def readUtf8 (mem : Target) (a : Address) (maxLen : Nat) : Text :=
  if a = 0 ∨ maxLen = 0 then []
  else
    match block mem maxLen a with
    | none => cString mem maxLen a
    | some buf => buf.takeWhile (· ≠ 0)

/-- The part of a ClassInfo that no header or file shows. -/
structure ClassBinding extends ClassInfo where
  moduleName : Text
  deriving DecidableEq, Repr

structure EnumBinding extends EnumInfo where
  size : UInt16
  deriving DecidableEq, Repr

def withoutSpaces (s : Text) : Text := s.filter (· ≠ 32)

def dll : Text := text ".dll"

def moduleFile (name : Text) : Text :=
  if name ≠ [] ∧ dll.isSuffixOf name = false then name ++ dll else name

/-- A loop over an array whose turns may throw or continue: what the others push back. -/
def eachElement {α : Type} (count : Nat) (read : Address → Except Text (Option α))
    (base stride : Address) : List α :=
  (List.range count).filterMap fun i =>
    match read (base + i.toUInt64 * stride) with
    | .error _ => none
    | .ok element => element

section Reading

variable (mem : Target) (l : LayoutConfig)

def readParent (bases : Address) : Except Text (Option Text) := do
  let parent ← readOrThrow (uint64 mem) (bases + (← l.get (text "base_class_info.class")))
  if parent = 0 then return none
  let parentName ← readOrThrow (uint64 mem) (parent + (← l.get (text "base_class.name")))
  let name := readUtf8 mem parentName 4096
  return if name = [] then none else some name

/-- One turn of the loop over the fields; `.ok none`: it has no type. -/
def readField (f : Address) : Except Text (Option ClassField) := do
  let namePtr ← readOrThrow (uint64 mem) (f + (← l.get (text "field.name")))
  let typePtr ← readOrThrow (uint64 mem) (f + (← l.get (text "field.type")))
  if typePtr = 0 then return none
  let offset ← readOrThrow (int32 mem) (f + (← l.get (text "field.offset")))
  let typeNamePtr ← readOrThrow (uint64 mem) (typePtr + (← l.get (text "schema_type.name")))
  let typeName := withoutSpaces (readUtf8 mem typeNamePtr 256)
  return some ⟨readUtf8 mem namePtr 4096, typeName, offset⟩

/-- One turn of the loop over the metadata; `.ok none`: it has no network value. -/
def readMetadata (md : Address) : Except Text (Option ClassMetadata) := do
  let namePtr ← readOrThrow (uint64 mem) (md + (← l.get (text "metadata.name")))
  let nv ← readOrThrow (uint64 mem) (md + (← l.get (text "metadata.network_value")))
  if nv = 0 then return none
  let name := readUtf8 mem namePtr 4096
  if name = text "MNetworkChangeCallback" then
    let value ← readOrThrow (uint64 mem) (nv + (← l.get (text "network_value.name_ptr")))
    return some ⟨.networkChangeCallback, readUtf8 mem value 4096, []⟩
  else if name = text "MNetworkVarNames" then
    let varName ← readOrThrow (uint64 mem) (nv + (← l.get (text "network_value.var_name")))
    let varType ← readOrThrow (uint64 mem) (nv + (← l.get (text "network_value.var_type")))
    let typeName := withoutSpaces (readUtf8 mem varType 256)
    return some ⟨.networkVarNames, readUtf8 mem varName 4096, typeName⟩
  else
    return some ⟨.unknown, name, []⟩

/-- The turns of a loop whose count is a short, if the array is there. -/
def shortArray {α : Type} (count : Int16) (base : Address) (stride : Except Text Address)
    (read : Address → Except Text (Option α)) : Except Text (List α) := do
  if base ≠ 0 ∧ 0 < count ∧ count < 32767 then
    return eachElement count.toInt.toNat read base (← stride)
  else
    return []

def readClassBinding (ptr : Address) : Except Text ClassBinding := do
  let namePtr ← readOrThrow (uint64 mem) (ptr + (← l.get (text "class.name")))
  let modulePtr ← readOrThrow (uint64 mem) (ptr + (← l.get (text "class.module_name")))
  let name := readUtf8 mem namePtr 4096
  let moduleName := moduleFile (readUtf8 mem modulePtr 256)
  if name = [] then throw (text "empty class name")
  let bases ← readOrThrow (uint64 mem) (ptr + (← l.get (text "class.base_classes")))
  let parentName :=
    if bases = 0 then none
    else
      match readParent mem l bases with
      | .error _ => none
      | .ok parent => parent
  let fieldCount ← readOrThrow (int16 mem) (ptr + (← l.get (text "class.field_count")))
  let fields ← readOrThrow (uint64 mem) (ptr + (← l.get (text "class.fields")))
  let fieldList ← shortArray fieldCount fields (l.get (text "field.stride")) (readField mem l)
  let metadataCount ← readOrThrow (int16 mem) (ptr + (← l.get (text "class.metadata_count")))
  let metadata ← readOrThrow (uint64 mem) (ptr + (← l.get (text "class.metadata")))
  let metadataList ← shortArray metadataCount metadata (l.get (text "metadata.stride"))
    (readMetadata mem l)
  return { name, parentName, metadata := metadataList, fields := fieldList, moduleName }

def readMember (e : Address) : Except Text (Option EnumMember) := do
  let namePtr ← readOrThrow (uint64 mem) (e + (← l.get (text "enumerator.name")))
  let value ← readOrThrow (uint64 mem) (e + (← l.get (text "enumerator.value")))
  return some ⟨readUtf8 mem namePtr 4096, value.toInt64⟩

def readEnumBinding (ptr : Address) : Except Text EnumBinding := do
  let namePtr ← readOrThrow (uint64 mem) (ptr + (← l.get (text "enum.name")))
  let name := readUtf8 mem namePtr 4096
  if name = [] then throw (text "empty enum name")
  let alignment ← readOrThrow (uint8 mem) (ptr + (← l.get (text "enum.alignment")))
  let size ← readOrThrow (uint16 mem) (ptr + (← l.get (text "enum.enumerator_count")))
  let enumerators ← readOrThrow (uint64 mem) (ptr + (← l.get (text "enum.enumerators")))
  if enumerators ≠ 0 ∧ 0 < size then
    let stride ← l.get (text "enumerator.stride")
    return { name, alignment, size, members := eachElement size.toNat (readMember mem l) enumerators stride }
  else
    return { name, alignment, size, members := [] }

end Reading

/-- A class as it stands in memory; a field without a type and a metadata entry without a
   network value are none. -/
structure StoredClass where
  name : Text
  moduleName : Text
  parentName : Option Text
  fields : List (Option ClassField)
  metadata : List (Option ClassMetadata)
  deriving DecidableEq, Repr

def plainField (field : ClassField) : ClassField :=
  { field with typeName := withoutSpaces field.typeName }

def plainMetadata (md : ClassMetadata) : ClassMetadata :=
  { md with typeName := withoutSpaces md.typeName }

/-- What the dumper knows of the class. -/
def StoredClass.binding (c : StoredClass) : ClassBinding where
  name := c.name
  moduleName := moduleFile c.moduleName
  parentName := c.parentName.filter (· ≠ [])
  fields := c.fields.filterMap (·.map plainField)
  metadata := c.metadata.filterMap (·.map plainMetadata)

section Image

variable (mem : Target) (l : LayoutConfig)

def WordAt (a value : Address) : Prop := Holds mem a (toBytes 8 value.toNat)

instance (a value : Address) : Decidable (WordAt mem a value) :=
  inferInstanceAs (Decidable (Holds _ _ _))

/-- The text that a pointer leads to; its null byte stands within the limit. -/
def TextAt (limit : Nat) (p : Address) (s : Text) : Prop :=
  p = 0 ∧ s = [] ∨ p ≠ 0 ∧ 0 ∉ s ∧ s.length < limit ∧ Holds mem p (s ++ [0])

def TextBehind (limit : Nat) (a : Address) (s : Text) : Prop :=
  ∃ p, WordAt mem a p ∧ TextAt mem limit p s

def ArrayAt {α : Type} (elementAt : Address → α → Prop) (base stride : Address) (xs : List α) :
    Prop :=
  ∀ (i : Nat) x, xs[i]? = some x → elementAt (base + i.toUInt64 * stride) x

/-- An array with its count in one place and its address in another. -/
def ShortArrayAt {α : Type} (count base stride : Address) (elementAt : Address → α → Prop)
    (xs : List α) : Prop :=
  xs.length < 32767 ∧ Holds mem count (toBytes 2 xs.length) ∧
    ∃ array, WordAt mem base array ∧ (xs ≠ [] → array ≠ 0) ∧ ArrayAt elementAt array stride xs

def FieldAt (f : Address) : Option ClassField → Prop
  | none =>
    (∃ p, WordAt mem (f + offset l "field.name") p) ∧ WordAt mem (f + offset l "field.type") 0
  | some field =>
    TextBehind mem 4096 (f + offset l "field.name") field.name ∧
      Holds mem (f + offset l "field.offset") (toBytes 4 field.offset.toUInt32.toNat) ∧
      ∃ type, type ≠ 0 ∧ WordAt mem (f + offset l "field.type") type ∧
        TextBehind mem 256 (type + offset l "schema_type.name") field.typeName

/-- What stands in a network value, and the name of the entry it belongs to. -/
def NetworkValueAt (name nv : Address) (md : ClassMetadata) : Prop :=
  match md.kind with
  | .networkChangeCallback =>
    TextBehind mem 4096 name (text "MNetworkChangeCallback") ∧
      TextBehind mem 4096 (nv + offset l "network_value.name_ptr") md.name ∧ md.typeName = []
  | .networkVarNames =>
    TextBehind mem 4096 name (text "MNetworkVarNames") ∧
      TextBehind mem 4096 (nv + offset l "network_value.var_name") md.name ∧
      TextBehind mem 256 (nv + offset l "network_value.var_type") md.typeName
  | .unknown =>
    TextBehind mem 4096 name md.name ∧ md.name ≠ text "MNetworkChangeCallback" ∧
      md.name ≠ text "MNetworkVarNames" ∧ md.typeName = []

def MetadataAt (a : Address) : Option ClassMetadata → Prop
  | none =>
    (∃ p, WordAt mem (a + offset l "metadata.name") p) ∧
      WordAt mem (a + offset l "metadata.network_value") 0
  | some md =>
    ∃ nv, nv ≠ 0 ∧ WordAt mem (a + offset l "metadata.network_value") nv ∧
      NetworkValueAt mem l (a + offset l "metadata.name") nv md

def ParentAt (bases : Address) : Option Text → Prop
  | none => bases = 0 ∨ WordAt mem (bases + offset l "base_class_info.class") 0
  | some name =>
    bases ≠ 0 ∧ ∃ parent, parent ≠ 0 ∧
      WordAt mem (bases + offset l "base_class_info.class") parent ∧
      TextBehind mem 4096 (parent + offset l "base_class.name") name

structure ClassAt (ptr : Address) (c : StoredClass) : Prop where
  named : c.name ≠ []
  name : TextBehind mem 4096 (ptr + offset l "class.name") c.name
  moduleName : TextBehind mem 256 (ptr + offset l "class.module_name") c.moduleName
  parent : ∃ bases, WordAt mem (ptr + offset l "class.base_classes") bases ∧
    ParentAt mem l bases c.parentName
  fields : ShortArrayAt mem (ptr + offset l "class.field_count") (ptr + offset l "class.fields")
    (offset l "field.stride") (FieldAt mem l) c.fields
  metadata : ShortArrayAt mem (ptr + offset l "class.metadata_count")
    (ptr + offset l "class.metadata") (offset l "metadata.stride") (MetadataAt mem l) c.metadata

def MemberAt (e : Address) (member : EnumMember) : Prop :=
  TextBehind mem 4096 (e + offset l "enumerator.name") member.name ∧
    WordAt mem (e + offset l "enumerator.value") member.value.toUInt64

structure EnumAt (ptr : Address) (en : EnumBinding) : Prop where
  named : en.name ≠ []
  name : TextBehind mem 4096 (ptr + offset l "enum.name") en.name
  alignment : Holds mem (ptr + offset l "enum.alignment") (toBytes 1 en.alignment.toNat)
  counted : en.size.toNat = en.members.length
  size : Holds mem (ptr + offset l "enum.enumerator_count") (toBytes 2 en.size.toNat)
  members : ∃ array, WordAt mem (ptr + offset l "enum.enumerators") array ∧
    (en.members ≠ [] → array ≠ 0) ∧
    ArrayAt (MemberAt mem l) array (offset l "enumerator.stride") en.members

end Image

/-- The keys that reading a class or an enum needs. -/
def bindingKeys : List String :=
  ["class.name", "class.module_name", "class.field_count", "class.metadata_count",
    "class.fields", "class.base_classes", "class.metadata", "base_class_info.class",
    "base_class.name", "field.stride", "field.name", "field.type", "field.offset",
    "schema_type.name", "metadata.stride", "metadata.name", "metadata.network_value",
    "network_value.name_ptr", "network_value.var_name", "network_value.var_type", "enum.name",
    "enum.alignment", "enum.enumerator_count", "enum.enumerators", "enumerator.stride",
    "enumerator.name", "enumerator.value"]

def Known (l : LayoutConfig) (keys : List String) : Prop :=
  ∀ key ∈ keys, ∃ value, l.values (text key) = some value

variable {mem : Target} {l : LayoutConfig} {a p : Address} {s : Text} {limit : Nat}

theorem get_known {keys : List String} (known : Known l keys) {key : String}
    (listed : key ∈ keys) : l.get (text key) = .ok (offset l key) := by
  obtain ⟨value, here⟩ := known key listed
  rw [LayoutConfig.get, offset, here]
  rfl

theorem known_of_found {keys : List String}
    (found : ∀ key ∈ keys, (l.values (text key)).isSome) : Known l keys :=
  fun key listed => Option.isSome_iff_exists.mp (found key listed)

@[simp] theorem uint64_at {value : Address} (here : WordAt mem a value) :
    readOrThrow (uint64 mem) a = .ok value := by
  refine readOrThrow_some ?_
  rw [uint64, number_of_holds value.toNat_lt here]
  simp

theorem int32_some {value : Int32} (here : Holds mem a (toBytes 4 value.toUInt32.toNat)) :
    int32 mem a = some value := by
  rw [int32, uint32, number_of_holds value.toUInt32.toNat_lt here]
  simp

theorem int32_at {value : Int32} (here : Holds mem a (toBytes 4 value.toUInt32.toNat)) :
    readOrThrow (int32 mem) a = .ok value :=
  readOrThrow_some (int32_some here)

theorem small_int32_at {n : Nat} (short : n < 2 ^ 31) (here : Holds mem a (toBytes 4 n)) :
    ∃ count : Int32, readOrThrow (int32 mem) a = .ok count ∧ count.toInt = n := by
  have small : n < 2 ^ 32 := by omega
  have low : n.toUInt32.toNat = n := UInt32.toNat_ofNat_of_lt' small
  refine ⟨n.toUInt32.toInt32, int32_at (by simpa [low] using here), ?_⟩
  have word : n.toUInt32.toInt32.toInt = (n.toUInt32.toNat : Int).bmod (2 ^ 32) := by
    rw [← Int32.toInt_toBitVec, UInt32.toBitVec_toInt32, BitVec.toInt_eq_toNat_bmod]
    rfl
  rw [word, low, Int.bmod_eq_of_le (by omega) (by omega)]

theorem uint16_at {value : UInt16} (here : Holds mem a (toBytes 2 value.toNat)) :
    uint16 mem a = some value := by
  rw [uint16, number_of_holds value.toNat_lt here]
  simp

theorem uint8_at {value : UInt8} (here : Holds mem a (toBytes 1 value.toNat)) :
    readOrThrow (uint8 mem) a = .ok value := by
  refine readOrThrow_some ?_
  rw [uint8, number_of_holds value.toNat_lt here]
  simp

/-- Reading the block at once or byte by byte makes no difference. -/
theorem readUtf8_eq (mem : Target) (p : Address) (limit : Nat) :
    readUtf8 mem p limit = if p = 0 then [] else cString mem limit p := by
  unfold readUtf8
  by_cases null : p = 0
  · simp [null]
  · by_cases none_ : limit = 0
    · simp [none_, cString]
    · simp only [null, none_, or_self, if_false]
      cases whole : block mem limit p with
      | none => rfl
      | some buf => exact block_cString whole

theorem readUtf8_at (here : TextAt mem limit p s) : readUtf8 mem p limit = s := by
  rw [readUtf8_eq]
  rcases here with ⟨null, empty⟩ | ⟨solid, plain, short, holds⟩
  · rw [if_pos null, empty]
  · rw [if_neg solid, cString_of_holds plain short holds]

/-- A loop over an array gives what its turns give at the elements, in order. -/
theorem eachElement_at {α β : Type} {elementAt : Address → α → Prop} {base stride : Address}
    {xs : List α} {read : Address → Except Text (Option β)} {f : α → Option β}
    (here : ArrayAt elementAt base stride xs)
    (reads : ∀ a x, elementAt a x → read a = .ok (f x)) :
    eachElement xs.length read base stride = xs.filterMap f := by
  have turns : (List.range xs.length).map (fun i : Nat => read (base + i.toUInt64 * stride)) =
      xs.map fun x => .ok (f x) := by
    apply List.ext_getElem
    · simp
    · intro i low _
      rw [List.length_map, List.length_range] at low
      simp only [List.getElem_map, List.getElem_range]
      exact reads _ _ (here i _ (List.getElem?_eq_getElem low))
  have whole := congrArg (List.filterMap fun turn : Except Text (Option β) =>
    match turn with
    | .error _ => none
    | .ok element => element) turns
  rw [List.filterMap_map, List.filterMap_map] at whole
  exact whole

theorem int16_at {n : Nat} (short : n < 32768) (here : Holds mem a (toBytes 2 n)) :
    ∃ count : Int16, readOrThrow (int16 mem) a = .ok count ∧ count.toInt = n := by
  have small : n < 2 ^ 16 := by omega
  have low : n.toUInt16.toNat = n := UInt16.toNat_ofNat_of_lt' small
  have read : uint16 mem a = some n.toUInt16 := uint16_at (by rwa [low])
  refine ⟨n.toUInt16.toInt16, readOrThrow_some ?_, ?_⟩
  · rw [int16, read]
    rfl
  · have word : n.toUInt16.toInt16.toInt = (n.toUInt16.toNat : Int).bmod (2 ^ 16) := by
      rw [← Int16.toInt_toBitVec, UInt16.toBitVec_toInt16, BitVec.toInt_eq_toNat_bmod]
      rfl
    rw [word, low, Int.bmod_eq_of_le (by omega) (by omega)]

theorem shortArray_at {α β : Type} {elementAt : Address → α → Prop}
    {countAt baseAt stride : Address} {xs : List α} {read : Address → Except Text (Option β)}
    {f : α → Option β} (here : ShortArrayAt mem countAt baseAt stride elementAt xs)
    (reads : ∀ a x, elementAt a x → read a = .ok (f x)) :
    ∃ count base, readOrThrow (int16 mem) countAt = .ok count ∧
      readOrThrow (uint64 mem) baseAt = .ok base ∧
      shortArray count base (.ok stride) read = .ok (xs.filterMap f) := by
  obtain ⟨short, counted, array, based, solid, elements⟩ := here
  obtain ⟨count, readCount, value⟩ := int16_at (by omega) counted
  refine ⟨count, array, readCount, uint64_at based, ?_⟩
  unfold shortArray
  cases xs with
  | nil =>
    have none_ : ¬ (0 : Int16) < count := by
      rw [Int16.lt_iff_toInt_lt, value]
      simp
    rw [if_neg fun going => none_ going.2.1]
    rfl
  | cons x rest =>
    have going : array ≠ 0 ∧ 0 < count ∧ count < 32767 := by
      refine ⟨solid (by simp), ?_, ?_⟩
      · rw [Int16.lt_iff_toInt_lt, value]
        simp
      · rw [Int16.lt_iff_toInt_lt, value]
        exact Int.ofNat_lt.mpr short
    have many : count.toInt.toNat = (x :: rest).length := by rw [value, Int.toNat_natCast]
    rw [if_pos going, many]
    exact congrArg Except.ok (eachElement_at elements reads)

section Stored

variable (known : Known l bindingKeys)
include known

theorem readField_at {f : Address} {field : Option ClassField} (here : FieldAt mem l f field) :
    readField mem l f = .ok (field.map plainField) := by
  unfold readField
  simp only [get_known known (show "field.name" ∈ bindingKeys by decide),
    get_known known (show "field.type" ∈ bindingKeys by decide),
    get_known known (show "field.offset" ∈ bindingKeys by decide),
    get_known known (show "schema_type.name" ∈ bindingKeys by decide), ok_bind]
  cases field with
  | none =>
    obtain ⟨⟨p, named⟩, untyped⟩ := here
    rw [uint64_at named, ok_bind, uint64_at untyped, ok_bind, if_pos rfl]
    rfl
  | some field =>
    obtain ⟨⟨p, named, name⟩, placed, type, solid, typed, q, titled, title⟩ := here
    rw [uint64_at named, ok_bind, uint64_at typed, ok_bind, if_neg solid, int32_at placed, ok_bind,
      uint64_at titled, ok_bind, readUtf8_at name, readUtf8_at title]
    rfl

theorem readMetadata_at {md : Address} {entry : Option ClassMetadata}
    (here : MetadataAt mem l md entry) :
    readMetadata mem l md = .ok (entry.map plainMetadata) := by
  unfold readMetadata
  simp only [get_known known (show "metadata.name" ∈ bindingKeys by decide),
    get_known known (show "metadata.network_value" ∈ bindingKeys by decide),
    get_known known (show "network_value.name_ptr" ∈ bindingKeys by decide),
    get_known known (show "network_value.var_name" ∈ bindingKeys by decide),
    get_known known (show "network_value.var_type" ∈ bindingKeys by decide), ok_bind]
  cases entry with
  | none =>
    obtain ⟨⟨p, named⟩, unset⟩ := here
    rw [uint64_at named, ok_bind, uint64_at unset, ok_bind, if_pos rfl]
    rfl
  | some entry =>
    obtain ⟨nv, solid, set, value⟩ := here
    obtain ⟨kind, name, typeName⟩ := entry
    cases kind with
    | networkChangeCallback =>
      obtain ⟨⟨p, named, title⟩, ⟨q, called, callback⟩, rfl⟩ := value
      rw [uint64_at named, ok_bind, uint64_at set, ok_bind, if_neg solid, readUtf8_at title,
        if_pos rfl, uint64_at called, ok_bind, readUtf8_at callback]
      rfl
    | networkVarNames =>
      obtain ⟨⟨p, named, title⟩, ⟨q, called, variable_⟩, r, typed, type⟩ := value
      rw [uint64_at named, ok_bind, uint64_at set, ok_bind, if_neg solid, readUtf8_at title,
        if_neg (by decide), if_pos rfl, uint64_at called, ok_bind, uint64_at typed, ok_bind,
        readUtf8_at variable_, readUtf8_at type]
      rfl
    | unknown =>
      obtain ⟨⟨p, named, title⟩, noCallback, noNames, rfl⟩ := value
      rw [uint64_at named, ok_bind, uint64_at set, ok_bind, if_neg solid, readUtf8_at title,
        if_neg noCallback, if_neg noNames]
      rfl

theorem readParent_at {bases : Address} {parentName : Option Text}
    (here : ParentAt mem l bases parentName) :
    (if bases = 0 then none
      else
        match readParent mem l bases with
        | .error _ => none
        | .ok parent => parent) = parentName.filter (· ≠ []) := by
  unfold readParent
  simp only [get_known known (show "base_class_info.class" ∈ bindingKeys by decide),
    get_known known (show "base_class.name" ∈ bindingKeys by decide), ok_bind]
  cases parentName with
  | none =>
    rcases here with null | unset
    · rw [if_pos null]
      rfl
    · rw [uint64_at unset, ok_bind, if_pos rfl]
      exact ite_self _
  | some name =>
    obtain ⟨solid, parent, real, based, p, named, title⟩ := here
    rw [if_neg solid, uint64_at based, ok_bind, if_neg real, uint64_at named, ok_bind,
      readUtf8_at title]
    by_cases empty : name = []
    · simp [empty, Option.filter, pure, Except.pure]
    · simp [empty, Option.filter, pure, Except.pure]

/-- A class that stands in memory is read as it is. -/
theorem readClassBinding_at {ptr : Address} {c : StoredClass} (here : ClassAt mem l ptr c) :
    readClassBinding mem l ptr = .ok c.binding := by
  obtain ⟨p, named, name⟩ := here.name
  obtain ⟨q, moduled, moduleName⟩ := here.moduleName
  obtain ⟨bases, based, parent⟩ := here.parent
  obtain ⟨fieldCount, fields, readCount, readFields, fieldList⟩ :=
    shortArray_at here.fields fun _ _ => readField_at known
  obtain ⟨metadataCount, metadata, readCount', readMetadata_, metadataList⟩ :=
    shortArray_at here.metadata fun _ _ => readMetadata_at known
  unfold readClassBinding
  simp only [get_known known (show "class.name" ∈ bindingKeys by decide),
    get_known known (show "class.module_name" ∈ bindingKeys by decide),
    get_known known (show "class.base_classes" ∈ bindingKeys by decide),
    get_known known (show "class.field_count" ∈ bindingKeys by decide),
    get_known known (show "class.fields" ∈ bindingKeys by decide),
    get_known known (show "class.metadata_count" ∈ bindingKeys by decide),
    get_known known (show "class.metadata" ∈ bindingKeys by decide),
    get_known known (show "field.stride" ∈ bindingKeys by decide),
    get_known known (show "metadata.stride" ∈ bindingKeys by decide), ok_bind,
    uint64_at named, uint64_at moduled, uint64_at based, readUtf8_at name, readUtf8_at moduleName,
    if_neg here.named, readParent_at known parent, readCount, readFields, fieldList, readCount',
    readMetadata_, metadataList]
  rfl

theorem readMember_at {e : Address} {member : EnumMember} (here : MemberAt mem l e member) :
    readMember mem l e = .ok (some member) := by
  obtain ⟨⟨p, named, name⟩, valued⟩ := here
  unfold readMember
  simp only [get_known known (show "enumerator.name" ∈ bindingKeys by decide),
    get_known known (show "enumerator.value" ∈ bindingKeys by decide), ok_bind,
    uint64_at named, uint64_at valued, readUtf8_at name]
  rfl

theorem readEnumBinding_at {ptr : Address} {en : EnumBinding} (here : EnumAt mem l ptr en) :
    readEnumBinding mem l ptr = .ok en := by
  obtain ⟨p, named, name⟩ := here.name
  obtain ⟨array, based, solid, elements⟩ := here.members
  unfold readEnumBinding
  simp only [get_known known (show "enum.name" ∈ bindingKeys by decide),
    get_known known (show "enum.alignment" ∈ bindingKeys by decide),
    get_known known (show "enum.enumerator_count" ∈ bindingKeys by decide),
    get_known known (show "enum.enumerators" ∈ bindingKeys by decide),
    get_known known (show "enumerator.stride" ∈ bindingKeys by decide), ok_bind,
    uint64_at named, readUtf8_at name, if_neg here.named, uint8_at here.alignment,
    readOrThrow_some (uint16_at here.size), uint64_at based]
  by_cases empty : en.members = []
  · have none_ : ¬ (0 : UInt16) < en.size := by
      rw [UInt16.lt_iff_toNat_lt, here.counted, empty]
      exact Nat.lt_irrefl 0
    rw [if_neg fun going => none_ going.2, ← empty]
    rfl
  · have going : array ≠ 0 ∧ 0 < en.size := by
      refine ⟨solid empty, ?_⟩
      rw [UInt16.lt_iff_toNat_lt, here.counted]
      exact List.length_pos_iff.mpr empty
    have members := eachElement_at elements fun _ _ => readMember_at known
    rw [if_pos going, here.counted, members, List.filterMap_some]
    rfl

end Stored

/-- A text without a null byte, of at most so many bytes. -/
def Plain (limit : Nat) (s : Text) : Prop := 0 ∉ s ∧ s.length ≤ limit

end SchemaBindings
