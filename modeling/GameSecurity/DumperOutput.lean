import GameSecurity.AsciiText
import GameSecurity.SortedMap

/- output.cpp: the headers and JSON files that a dump writes. What a formatter's calls write
   is their value. -/
namespace DumperOutput
open AsciiText SortedMap

inductive ClassMetadataKind where
  | unknown
  | networkChangeCallback
  | networkVarNames
  deriving DecidableEq, Repr

structure ClassMetadata where
  kind : ClassMetadataKind
  name : Text
  typeName : Text
  deriving DecidableEq, Repr

structure ClassField where
  name : Text
  typeName : Text
  offset : Int32
  deriving DecidableEq, Repr

structure ClassInfo where
  name : Text
  parentName : Option Text
  metadata : List ClassMetadata
  fields : List ClassField
  deriving DecidableEq, Repr

structure EnumMember where
  name : Text
  value : Int64
  deriving DecidableEq, Repr

structure EnumInfo where
  name : Text
  alignment : UInt8
  members : List EnumMember
  deriving DecidableEq, Repr

structure Scope where
  classes : List ClassInfo
  enums : List EnumInfo
  deriving DecidableEq, Repr

abbrev ButtonMap := Map Text Int64
abbrev InterfaceMap := Map Text (Map Text UInt64)
abbrev OffsetMap := Map Text (Map Text UInt32)
abbrev SchemaMap := Map Text Scope

structure AnalysisResult where
  buttons : ButtonMap
  interfaces : InterfaceMap
  offsets : OffsetMap
  schemas : SchemaMap

structure Formatter where
  indentSize : Nat
  level : Nat

/-- The pieces between newlines. -/
def pieces : Text → List Text
  | [] => [[]]
  | c :: s =>
    if c = 10 then [] :: pieces s
    else
      match pieces s with
      | [] => [[c]]
      | piece :: rest => (c :: piece) :: rest

def Formatter.part (f : Formatter) (part : Text) : Text :=
  (if part = [] then [] else List.replicate (f.level * f.indentSize) 32 ++ part) ++ [10]

def Formatter.line (f : Formatter) (s : Text) : Text :=
  if s = [] then [10] else (pieces s).flatMap f.part

def Formatter.block (f : Formatter) (heading : Text) (semicolon : Bool)
    (fn : Formatter → Text) : Text :=
  f.line (heading ++ text " \x7b") ++ fn { f with level := f.level + 1 } ++
    f.line (if semicolon then text "\x7d;" else text "\x7d")

/-- std::to_string. -/
def toString (n : Int) : Text := if n < 0 then 45 :: numeral 10 n.natAbs else numeral 10 n.natAbs

def upperHex (n : UInt64) : Text :=
  text "0x" ++ (numeral 16 n.toNat).map fun c => if islower c then c - 32 else c

def hex (value : Int64) : Text := upperHex value.toUInt64

def escape (c : UInt8) : Text :=
  if c = 34 then text "\\\""
  else if c = 92 then text "\\\\"
  else if c = 8 then text "\\b"
  else if c = 12 then text "\\f"
  else if c = 10 then text "\\n"
  else if c = 13 then text "\\r"
  else if c = 9 then text "\\t"
  else if c < 32 then text "\\u00" ++ [digit (c.toNat / 16), digit (c.toNat % 16)]
  else [c]

def jsonEscape (s : Text) : Text := s.flatMap escape

def q (s : Text) : Text := 34 :: (jsonEscape s ++ [34])

/-- The loop of snake_case, behind what it has put out. -/
def snakeFrom (out : Text) : Text → Text
  | [] => out
  | c :: s =>
    if isupper c then
      snakeFrom ((if out ≠ [] ∧ out.getLast? ≠ some 95 then out ++ [95] else out) ++ [tolower c]) s
    else snakeFrom (out ++ [c]) s

def snakeCase (s : Text) : Text := snakeFrom [] s

def slugify (input : Text) : Text :=
  let slug := input.map fun c => if isalnum c ∨ c = 95 then c else 95
  match slug with
  | [] => [95]
  | c :: s => if isdigit c then 95 :: c :: s else c :: s

def banner (f : Formatter) (timestamp : Text) : Text :=
  f.line (text "// Generated by cs2-dumper-cpp-standalone") ++
    f.line (text "// " ++ timestamp) ++ f.line []

def writeMetadataLine (f : Formatter) (m : ClassMetadata) : Text :=
  match m.kind with
  | .networkChangeCallback => f.line (text "// NetworkChangeCallback: " ++ m.name)
  | .networkVarNames =>
    f.line (text "// NetworkVarNames: " ++ m.name ++ text " (" ++ m.typeName ++ text ")")
  | .unknown => f.line (text "// " ++ m.name)

def writeMetadata (f : Formatter) (metadata : List ClassMetadata) : Text :=
  if metadata = [] then []
  else f.line (text "// Metadata:") ++ metadata.flatMap (writeMetadataLine f)

/-- The entries of a JSON list, the first behind `first`, the others behind `next`. -/
def separated {α : Type} (first next : Text) (entry : α → Text) : List α → Text
  | [] => []
  | a :: rest => first ++ entry a ++ rest.flatMap fun b => next ++ entry b

def buttonsJson (map : ButtonMap) : Text :=
  text "\x7b\n  \"client.dll\": \x7b" ++
    separated (text "\n") (text ",\n")
      (fun entry => text "    " ++ q entry.1 ++ text ": " ++ toString entry.2.toInt) map.entries ++
    (if map.entries ≠ [] then text "\n" else []) ++ text "  \x7d\n\x7d"

def buttonsHpp (map : ButtonMap) (indent : Nat) (timestamp : Text) : Text :=
  let f : Formatter := ⟨indent, 0⟩
  banner f timestamp ++ f.line (text "#pragma once") ++ f.line [] ++
    f.line (text "#include <cstddef>") ++ f.line [] ++
    f.block (text "namespace cs2_dumper") false fun f =>
      f.block (text "namespace buttons") false fun f =>
        map.entries.flatMap fun entry =>
          f.line (text "inline constexpr std::ptrdiff_t " ++ slugify entry.1 ++ text " = " ++
            hex entry.2 ++ text ";")

def nestedJsonModule (entry : Text × Map Text UInt64) : Text :=
  text "  " ++ q entry.1 ++ text ": \x7b" ++
    separated (text "\n") (text ",\n")
      (fun value => text "    " ++ q value.1 ++ text ": " ++ toString value.2.toNat)
      entry.2.entries ++
    (if entry.2.entries ≠ [] then text "\n" else []) ++ text "  \x7d"

def nestedJson (map : InterfaceMap) : Text :=
  text "\x7b" ++ separated (text "\n") (text ",\n") nestedJsonModule map.entries ++
    (if map.entries ≠ [] then text "\n" else []) ++ text "\x7d"

/-- `wide[module][name] = value`, so a module without values makes no entry. -/
def widen (map : OffsetMap) : InterfaceMap :=
  map.entries.foldl
    (fun wide entry => entry.2.entries.foldl
      (fun wide value =>
        wide.set entry.1 (((wide.find? entry.1).getD empty).set value.1 value.2.toUInt64)) wide)
    empty

def offsetsJson (map : OffsetMap) : Text := nestedJson (widen map)

def nestedHpp (map : InterfaceMap) (rootName : Text) (indent : Nat) (timestamp : Text) : Text :=
  let f : Formatter := ⟨indent, 0⟩
  banner f timestamp ++ f.line (text "#pragma once") ++ f.line [] ++
    f.line (text "#include <cstddef>") ++ f.line (text "#include <cstdint>") ++ f.line [] ++
    f.block (text "namespace cs2_dumper") false fun f =>
      f.block (text "namespace " ++ rootName) false fun f =>
        map.entries.flatMap fun entry =>
          f.line (text "// Module: " ++ entry.1) ++
            f.block (text "namespace " ++ snakeCase (slugify entry.1)) false fun f =>
              entry.2.entries.flatMap fun value =>
                f.line (text "inline constexpr std::uintptr_t " ++ slugify value.1 ++ text " = " ++
                  hex value.2.toInt64 ++ text ";")

def offsetsHpp (map : OffsetMap) (indent : Nat) (timestamp : Text) : Text :=
  nestedHpp (widen map) (text "offsets") indent timestamp

def enumCppType (alignment : UInt8) : Text :=
  if alignment = 1 then text "std::uint8_t"
  else if alignment = 2 then text "std::uint16_t"
  else if alignment = 4 then text "std::uint32_t"
  else if alignment = 8 then text "std::uint64_t"
  else []

def enumHex (value : Int64) (alignment : UInt8) : Text :=
  let wide := value.toUInt64
  upperHex
    (if alignment = 1 then wide.toUInt8.toUInt64
    else if alignment = 2 then wide.toUInt16.toUInt64
    else if alignment = 4 then wide.toUInt32.toUInt64
    else wide)

def kindName : ClassMetadataKind → Text
  | .networkChangeCallback => text "NetworkChangeCallback"
  | .networkVarNames => text "NetworkVarNames"
  | .unknown => text "Unknown"

def schemasJsonMetadata (md : ClassMetadata) : Text :=
  text "\n          \x7b\"type\": " ++ q (kindName md.kind) ++ text ", \"name\": " ++ q md.name ++
    (if md.kind = .networkVarNames then text ", \"type_name\": " ++ q md.typeName else []) ++
    text "\x7d"

/-- The map of the fields' offsets. -/
def sortedFields (fields : List ClassField) : Map Text Int32 :=
  fields.foldl (fun sorted field => sorted.set field.name field.offset) empty

def schemasJsonClass (cls : ClassInfo) : Text :=
  let sorted := (sortedFields cls.fields).entries
  text "\n      " ++ q cls.name ++ text ": \x7b\n" ++
    text "        \"parent\": " ++
    (match cls.parentName with
      | some parent => q parent
      | none => text "null") ++ text ",\n" ++
    text "        \"fields\": \x7b" ++
    separated [] (text ",")
      (fun field => text "\n          " ++ q field.1 ++ text ": " ++ toString field.2.toInt) sorted ++
    (if sorted ≠ [] then text "\n        " else []) ++ text "\x7d,\n        \"metadata\": [" ++
    separated [] (text ",") schemasJsonMetadata cls.metadata ++
    (if cls.metadata ≠ [] then text "\n        " else []) ++ text "]\n      \x7d"

def schemasJsonEnum (en : EnumInfo) : Text :=
  text "\n      " ++ q en.name ++ text ": \x7b\n" ++
    text "        \"alignment\": " ++ toString en.alignment.toNat ++ text ",\n" ++
    text "        \"members\": \x7b" ++
    separated [] (text ",")
      (fun member => text "\n          " ++ q member.name ++ text ": " ++ toString member.value.toInt)
      en.members ++
    (if en.members ≠ [] then text "\n        " else []) ++ text "\x7d\n      \x7d"

def schemasJsonModule (entry : Text × Scope) : Text :=
  text "  " ++ q entry.1 ++ text ": \x7b\n    \"classes\": \x7b" ++
    separated [] (text ",") schemasJsonClass entry.2.classes ++
    (if entry.2.classes ≠ [] then text "\n    " else []) ++ text "\x7d,\n    \"enums\": \x7b" ++
    separated [] (text ",") schemasJsonEnum entry.2.enums ++
    (if entry.2.enums ≠ [] then text "\n    " else []) ++ text "\x7d\n  \x7d"

def schemasJson (map : SchemaMap) : Text :=
  text "\x7b\n" ++ separated [] (text ",\n") schemasJsonModule map.entries ++ text "\n\x7d"

def schemasHppEnum (f : Formatter) (en : EnumInfo) : Text :=
  let type := enumCppType en.alignment
  if type = [] then []
  else
    f.line (text "// Alignment: " ++ toString en.alignment.toNat) ++
      f.block (text "enum class " ++ slugify en.name ++ text " : " ++ type) true fun f =>
        en.members.flatMap fun member =>
          f.line (slugify member.name ++ text " = " ++ enumHex member.value en.alignment ++ text ",")

def schemasHppClass (f : Formatter) (cls : ClassInfo) : Text :=
  f.line (text "// Parent: " ++ cls.parentName.getD (text "None")) ++
    writeMetadata f cls.metadata ++
    f.block (text "namespace " ++ slugify cls.name) false fun f =>
      cls.fields.flatMap fun field =>
        f.line (text "inline constexpr std::ptrdiff_t " ++ slugify field.name ++ text " = " ++
          hex field.offset.toInt64 ++ text "; // " ++ field.typeName)

def schemasHppModule (f : Formatter) (entry : Text × Scope) : Text :=
  f.line (text "// Module: " ++ entry.1) ++
    f.line (text "// Class count: " ++ toString entry.2.classes.length) ++
    f.line (text "// Enum count: " ++ toString entry.2.enums.length) ++
    f.block (text "namespace " ++ snakeCase (slugify entry.1)) false fun f =>
      entry.2.enums.flatMap (schemasHppEnum f) ++ entry.2.classes.flatMap (schemasHppClass f)

def schemasHpp (map : SchemaMap) (indent : Nat) (timestamp : Text) : Text :=
  let f : Formatter := ⟨indent, 0⟩
  banner f timestamp ++ f.line (text "#pragma once") ++ f.line [] ++
    f.line (text "#include <cstddef>") ++ f.line (text "#include <cstdint>") ++ f.line [] ++
    f.block (text "namespace cs2_dumper") false fun f =>
      f.block (text "namespace schemas") false fun f =>
        map.entries.flatMap (schemasHppModule f)

structure File where
  name : Text
  data : Text
  deriving DecidableEq, Repr

/-- The files of one directory; `timestampBanner` and `timestampRfc3339` are of the same time. -/
structure Output where
  fileTypes : List Text
  indentSize : Nat
  result : AnalysisResult
  timestampRfc3339 : Text
  timestampBanner : Text

def Output.hppFiles (o : Output) : List File :=
  [⟨text "buttons.hpp", buttonsHpp o.result.buttons o.indentSize o.timestampBanner⟩,
    ⟨text "interfaces.hpp",
      nestedHpp o.result.interfaces (text "interfaces") o.indentSize o.timestampBanner⟩,
    ⟨text "offsets.hpp", offsetsHpp o.result.offsets o.indentSize o.timestampBanner⟩]

def Output.jsonFiles (o : Output) : List File :=
  [⟨text "buttons.json", buttonsJson o.result.buttons⟩,
    ⟨text "interfaces.json", nestedJson o.result.interfaces⟩,
    ⟨text "offsets.json", offsetsJson o.result.offsets⟩]

/-- The first loop; an unsupported type ends it. -/
def Output.dumpTypes (o : Output) : List Text → List File × Except Text Unit
  | [] => ([], .ok ())
  | type :: rest =>
    if type = text "hpp" then
      let later := o.dumpTypes rest
      (o.hppFiles ++ later.1, later.2)
    else if type = text "json" then
      let later := o.dumpTypes rest
      (o.jsonFiles ++ later.1, later.2)
    else ([], .error (text "unsupported output type: " ++ type))

/-- The map of one entry. -/
def one (entry : Text × Scope) : SchemaMap := ⟨[entry], List.pairwise_singleton _ _⟩

def Output.schemaFile (o : Output) (entry : Text × Scope) (type : Text) : List File :=
  if type = text "hpp" then
    [⟨slugify entry.1 ++ text ".hpp", schemasHpp (one entry) o.indentSize o.timestampBanner⟩]
  else if type = text "json" then
    [⟨slugify entry.1 ++ text ".json", schemasJson (one entry)⟩]
  else []

/-- The build number, read in the first module that has one which can be read. -/
def Output.build (o : Output) (readBuild : Text → UInt32 → Option UInt32) : Option UInt32 :=
  o.result.offsets.entries.findSome? fun entry =>
    (entry.2.find? (text "dwBuildNumber")).bind (readBuild entry.1)

def Output.info (o : Output) (readBuild : Text → UInt32 → Option UInt32) : Text :=
  text "\x7b\n  \"timestamp\": " ++ q o.timestampRfc3339 ++
    (match o.build readBuild with
      | some build => text ",\n  \"build_number\": " ++ toString build.toNat
      | none => text ",\n  \"build_number\": null") ++ text "\n\x7d"

/-- dump_all: the files in the order in which they are written. `readBuild` is what the process
   gives at an offset of a module, nothing where that throws. -/
def Output.dumpAll (o : Output) (readBuild : Text → UInt32 → Option UInt32) :
    List File × Except Text Unit :=
  match o.dumpTypes o.fileTypes with
  | (files, .error what) => (files, .error what)
  | (files, .ok ()) =>
    (files ++ o.result.schemas.entries.flatMap (fun entry => o.fileTypes.flatMap (o.schemaFile entry)) ++
      [⟨text "info.json", o.info readBuild⟩], .ok ())

/-- The part of `widen` for one module. -/
def widenModule (wide : InterfaceMap) (module : Text) (values : List (Text × UInt32)) : InterfaceMap :=
  values.foldl
    (fun wide value =>
      wide.set module (((wide.find? module).getD empty).set value.1 value.2.toUInt64)) wide

def wideValue (value : Text × UInt32) : Text × UInt64 := (value.1, value.2.toUInt64)

theorem lookup_before {V : Type} {entries : List (Text × V)} {k : Text}
    (before : ∀ entry ∈ entries, entry.1 < k) : lookup k entries = none := by
  induction entries with
  | nil => rfl
  | cons first rest ih =>
    have differs : first.1 ≠ k := by
      intro same
      exact Std.Irrefl.irrefl k (same ▸ before first List.mem_cons_self)
    rw [lookup_cons, if_neg differs]
    exact ih fun entry member => before entry (List.mem_cons_of_mem first member)

/-- Behind the modules before it a module gets one entry, with its first value. -/
theorem widenModule_entries {wide : InterfaceMap} {module : Text}
    (before : ∀ entry ∈ wide.entries, entry.1 < module) {values : List (Text × UInt32)}
    (ascending : values.Pairwise fun a b => a.1 < b.1) (any : values ≠ []) :
    ∃ row : Map Text UInt64, row.entries = values.map wideValue ∧
      (widenModule wide module values).entries = wide.entries ++ [(module, row)] := by
  induction values using List.reverseRecOn with
  | nil => exact absurd rfl any
  | append_singleton values value ih =>
    obtain ⟨earlier, -, last⟩ := List.pairwise_append.mp ascending
    have behind : ∀ row : Map Text UInt64, row.entries = values.map wideValue →
        (row.set value.1 value.2.toUInt64).entries = (values ++ [value]).map wideValue := by
      intro row same
      have least : ∀ entry ∈ row.entries, entry.1 < value.1 := by
        rw [same]
        intro entry member
        obtain ⟨v, listed, rfl⟩ := List.mem_map.mp member
        exact last v listed value (List.mem_singleton_self value)
      change insertEntry value.1 value.2.toUInt64 row.entries = _
      rw [insertEntry_last least, same, List.map_append]
      rfl
    have next : widenModule wide module (values ++ [value]) =
        (widenModule wide module values).set module
          ((((widenModule wide module values).find? module).getD empty).set value.1
            value.2.toUInt64) := by
      rw [widenModule, List.foldl_append]
      rfl
    rw [next]
    by_cases none_ : values = []
    · subst none_
      have absent : (widenModule wide module []).find? module = none := lookup_before before
      refine ⟨_, behind empty rfl, ?_⟩
      rw [absent]
      exact insertEntry_last before
    · obtain ⟨row, same, entries⟩ := ih earlier none_
      have found : (widenModule wide module values).find? module = some row := by
        rw [Map.find?, entries]
        exact (insertEntry_replace (v := row) before).2
      refine ⟨_, behind row same, ?_⟩
      rw [found]
      change insertEntry module _ (widenModule wide module values).entries = _
      rw [entries]
      exact (insertEntry_replace before).1

def widenAll (entries : List (Text × Map Text UInt32)) : InterfaceMap :=
  entries.foldl (fun wide entry => widenModule wide entry.1 entry.2.entries) empty

theorem widenAll_entries {entries : List (Text × Map Text UInt32)}
    (ascending : entries.Pairwise fun a b => a.1 < b.1) : (widenAll entries).entries =
      (entries.filter fun entry => decide (entry.2.entries ≠ [])).map fun entry =>
        (entry.1, entry.2.mapValues UInt32.toUInt64) := by
  induction entries using List.reverseRecOn with
  | nil => rfl
  | append_singleton entries entry ih =>
    obtain ⟨earlier, -, last⟩ := List.pairwise_append.mp ascending
    have done := ih earlier
    have next : widenAll (entries ++ [entry]) =
        widenModule (widenAll entries) entry.1 entry.2.entries := by
      rw [widenAll, List.foldl_append]
      rfl
    rw [next, List.filter_append, List.map_append, ← done]
    by_cases any : entry.2.entries = []
    · have dropped : [entry].filter (fun entry => decide (entry.2.entries ≠ [])) = [] :=
        List.filter_cons_of_neg (by simp [any])
      rw [dropped, any, List.map_nil, List.append_nil]
      rfl
    · have before : ∀ e ∈ (widenAll entries).entries, e.1 < entry.1 := by
        rw [done]
        intro e member
        obtain ⟨old, listed, rfl⟩ := List.mem_map.mp member
        exact last old (List.mem_of_mem_filter listed) entry (List.mem_singleton_self entry)
      obtain ⟨row, same, written⟩ := widenModule_entries before entry.2.ascending any
      have kept : [entry].filter (fun entry => decide (entry.2.entries ≠ [])) = [entry] :=
        List.filter_cons_of_pos (by simp [any])
      have whole : row = entry.2.mapValues UInt32.toUInt64 := map_ext same
      rw [whole] at written
      rw [kept]
      exact written

/-- The map that offsets.json is written of: the modules that have values, with all of them. -/
theorem widen_entries (map : OffsetMap) : (widen map).entries =
    (map.entries.filter fun entry => decide (entry.2.entries ≠ [])).map fun entry =>
      (entry.1, entry.2.mapValues UInt32.toUInt64) := widenAll_entries map.ascending

end DumperOutput
