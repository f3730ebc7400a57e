import GameSecurity.HeaderTree

/- The trees of the headers that a dump writes. -/
namespace DumpHeaders
open AsciiText SortedMap DumperOutput CppTokens HeaderWords HeaderTree

theorem spaced (s : Text) : (s ++ text "; ").getLast? = some 32 := by
  rw [List.getLast?_append]
  rfl

def space (comments : List Text) (name : Text) (identifier : Identifier name)
    (body : List Decl) : Decl :=
  .block comments
    ⟨text "namespace ", name, [], ⟨by decide, .inr rfl⟩, identifier, ⟨by decide, .inl rfl⟩⟩
    false body

def buttonDecl (entry : Text × Int64) : Decl :=
  .line (.assign (text "inline constexpr std::ptrdiff_t ") (slugify entry.1) (hex entry.2)
    (text ";") ⟨by decide, .inr rfl⟩ (slugify_identifier _) (hex_code _) (by decide)) [] (.inl rfl)

/-- The two namespaces around everything. -/
def nest (rootName : Text) (identifier : Identifier rootName) (body : List Decl) : List Decl :=
  [space [] (text "cs2_dumper") (by decide) [space [] rootName identifier body]]

def buttonsDecls (map : ButtonMap) : List Decl :=
  nest (text "buttons") (by decide) (map.entries.map buttonDecl)

def valueDecl (value : Text × UInt64) : Decl :=
  .line (.assign (text "inline constexpr std::uintptr_t ") (slugify value.1) (hex value.2.toInt64)
    (text ";") ⟨by decide, .inr rfl⟩ (slugify_identifier _) (hex_code _) (by decide)) [] (.inl rfl)

def moduleDecl (entry : Text × Map Text UInt64) : Decl :=
  space [text "// Module: " ++ entry.1] (namespaceName entry.1) (namespaceName_identifier _)
    (entry.2.entries.map valueDecl)

def nestedDecls (map : InterfaceMap) (rootName : Text) (identifier : Identifier rootName) :
    List Decl :=
  nest rootName identifier (map.entries.map moduleDecl)

def memberDecl (alignment : UInt8) (member : EnumMember) : Decl :=
  .line (.assign [] (slugify member.name) (enumHex member.value alignment) (text ",")
    ⟨by decide, .inl rfl⟩ (slugify_identifier _) (enumHex_code _ _) (by decide)) [] (.inl rfl)

def emitted (en : EnumInfo) : Bool := decide (enumCppType en.alignment ≠ [])

def enumDecl (en : EnumInfo) : Decl :=
  .block [text "// Alignment: " ++ DumperOutput.toString en.alignment.toNat]
    ⟨text "enum class ", slugify en.name, text " : " ++ enumCppType en.alignment,
      ⟨by decide, .inr rfl⟩, slugify_identifier _,
      ⟨(show Code (text " : ") by decide).append (enumCppType_code _), .inr rfl⟩⟩ true
    (en.members.map (memberDecl en.alignment))

def fieldDecl (field : ClassField) : Decl :=
  .line (.assign (text "inline constexpr std::ptrdiff_t ") (slugify field.name)
    (hex field.offset.toInt64) (text "; ") ⟨by decide, .inr rfl⟩ (slugify_identifier _)
    (hex_code _) (by decide)) (text "// " ++ field.typeName) (.inr (spaced _))

def metadataComment (md : ClassMetadata) : Text :=
  match md.kind with
  | .networkChangeCallback => text "// NetworkChangeCallback: " ++ md.name
  | .networkVarNames =>
    text "// NetworkVarNames: " ++ md.name ++ text " (" ++ md.typeName ++ text ")"
  | .unknown => text "// " ++ md.name

def classComments (cls : ClassInfo) : List Text :=
  (text "// Parent: " ++ cls.parentName.getD (text "None")) ::
    (if cls.metadata = [] then [] else text "// Metadata:" :: cls.metadata.map metadataComment)

def classDecl (cls : ClassInfo) : Decl :=
  space (classComments cls) (slugify cls.name) (slugify_identifier _) (cls.fields.map fieldDecl)

def scopeDecls (s : Scope) : List Decl :=
  (s.enums.filter emitted).map enumDecl ++ s.classes.map classDecl

def schemaModuleDecl (entry : Text × Scope) : Decl :=
  space [text "// Module: " ++ entry.1,
      text "// Class count: " ++ DumperOutput.toString entry.2.classes.length,
      text "// Enum count: " ++ DumperOutput.toString entry.2.enums.length]
    (namespaceName entry.1) (namespaceName_identifier _) (scopeDecls entry.2)

def schemasDecls (map : SchemaMap) : List Decl :=
  nest (text "schemas") (by decide) (map.entries.map schemaModuleDecl)

def supported (type : Text) : Bool := type = text "hpp" ∨ type = text "json"

/-- The types up to the first that is not supported. -/
def active (o : Output) : List Text := o.fileTypes.takeWhile supported

/-- No type ends the run. -/
def complete (o : Output) : Bool := o.fileTypes.all supported

def stddef : List Text := [text "#include <cstddef>"]

def stdint : List Text := stddef ++ [text "#include <cstdint>"]

def header (o : Output) (base : Text) (includes : List Text)
    (plain : ∀ line ∈ includes, Code line) (decls : List Decl) : Header where
  name := base ++ text ".hpp"
  timestamp := o.timestampBanner
  includes := includes
  plain := plain
  indent := o.indentSize
  decls := decls

theorem stddef_code : ∀ line ∈ stddef, Code line := by decide

theorem stdint_code : ∀ line ∈ stdint, Code line := by decide

def baseHeaders (o : Output) : List Header :=
  [header o (text "buttons") stddef stddef_code (buttonsDecls o.result.buttons),
    header o (text "interfaces") stdint stdint_code
      (nestedDecls o.result.interfaces (text "interfaces") (by decide)),
    header o (text "offsets") stdint stdint_code
      (nestedDecls (widen o.result.offsets) (text "offsets") (by decide))]

def schemaHeader (o : Output) (entry : Text × Scope) : Header :=
  header o (slugify entry.1) stdint stdint_code (schemasDecls (one entry))

/-- The headers of a run, in the order in which they are written. -/
def headers (o : Output) : List Header :=
  ((active o).filter fun type => decide (type = text "hpp")).flatMap (fun _ => baseHeaders o) ++
    if complete o then
      o.result.schemas.entries.flatMap fun entry =>
        (o.fileTypes.filter fun type => decide (type = text "hpp")).map fun _ =>
          schemaHeader o entry
    else []

theorem renderAll_append (f : Formatter) (a b : List Decl) :
    renderAll f (a ++ b) = renderAll f a ++ renderAll f b := by
  induction a with
  | nil => rfl
  | cons decl a ih => rw [List.cons_append, renderAll, renderAll, ih, List.append_assoc]

theorem renderAll_map {α : Type} (f : Formatter) (decl : α → Decl) (l : List α) :
    renderAll f (l.map decl) = l.flatMap fun a => (decl a).render f := by
  induction l with
  | nil => rfl
  | cons a l ih => rw [List.map_cons, renderAll, ih, List.flatMap_cons]

theorem render_space (f : Formatter) (comments : List Text) (name : Text)
    (identifier : Identifier name) (body : List Decl) :
    (space comments name identifier body).render f = comments.flatMap f.line ++
      f.block (text "namespace " ++ name) false fun f => renderAll f body := by
  rw [space, Decl.render, Heading.words, List.append_nil]

/-- A tree of two namespaces around the declarations is what the emitters put around them. -/
theorem render_nest (f : Formatter) (rootName : Text) (identifier : Identifier rootName)
    (body : List Decl) :
    renderAll f (nest rootName identifier body) =
      f.block (text "namespace cs2_dumper") false fun f =>
        f.block (text "namespace " ++ rootName) false fun f => renderAll f body := by
  simp only [nest, renderAll, render_space, List.flatMap_nil, List.nil_append, List.append_nil]
  rfl

theorem render_assign (f : Formatter) {before name value ending comment : Text}
    (lead : Code before ∧ (before = [] ∨ before.getLast? = some 32))
    (identifier : Identifier name) (code : Code value) (ends : Code ending) (apart) :
    (Decl.line (.assign before name value ending lead identifier code ends) comment apart).render
      f = f.line (before ++ name ++ text " = " ++ value ++ ending ++ comment) := by
  rw [Decl.render, Heading.words]
  simp only [Heading.assign, List.append_assoc]

theorem buttonsHpp_eq (map : ButtonMap) (indent : Nat) (timestamp : Text) :
    buttonsHpp map indent timestamp = banner ⟨indent, 0⟩ timestamp ++ preface ⟨indent, 0⟩ stddef ++
      renderAll ⟨indent, 0⟩ (buttonsDecls map) := by
  rw [buttonsDecls, render_nest]
  simp only [renderAll_map, buttonDecl, render_assign, buttonsHpp, preface, stddef,
    List.flatMap_cons, List.flatMap_nil, List.append_nil, List.append_assoc]
  rfl

theorem render_module (f : Formatter) (entry : Text × Map Text UInt64) :
    (moduleDecl entry).render f = f.line (text "// Module: " ++ entry.1) ++
      f.block (text "namespace " ++ snakeCase (slugify entry.1)) false fun f =>
        entry.2.entries.flatMap fun value =>
          f.line (text "inline constexpr std::uintptr_t " ++ slugify value.1 ++ text " = " ++
            hex value.2.toInt64 ++ text ";") := by
  rw [moduleDecl, render_space]
  simp only [renderAll_map, valueDecl, render_assign, namespaceName, List.flatMap_cons,
    List.flatMap_nil, List.append_nil, List.append_assoc]

theorem nestedHpp_eq (map : InterfaceMap) (rootName : Text) (identifier : Identifier rootName)
    (indent : Nat) (timestamp : Text) :
    nestedHpp map rootName indent timestamp =
      banner ⟨indent, 0⟩ timestamp ++ preface ⟨indent, 0⟩ stdint ++
        renderAll ⟨indent, 0⟩ (nestedDecls map rootName identifier) := by
  rw [nestedDecls, render_nest]
  simp only [renderAll_map, render_module, nestedHpp, preface, stdint, stddef, List.flatMap_cons,
    List.flatMap_nil, List.append_nil, List.append_assoc, List.cons_append, List.nil_append]

theorem render_enum (f : Formatter) {en : EnumInfo} (typed : enumCppType en.alignment ≠ []) :
    (enumDecl en).render f = schemasHppEnum f en := by
  rw [enumDecl, Decl.render, schemasHppEnum, if_neg typed]
  simp only [renderAll_map, memberDecl, render_assign, Heading.words, List.flatMap_cons,
    List.flatMap_nil, List.append_nil, List.append_assoc, List.nil_append]

/-- Enums of another alignment are left out. -/
theorem render_enums (f : Formatter) (enums : List EnumInfo) :
    renderAll f ((enums.filter emitted).map enumDecl) = enums.flatMap (schemasHppEnum f) := by
  induction enums with
  | nil => rfl
  | cons en enums ih =>
    rw [List.flatMap_cons]
    by_cases typed : enumCppType en.alignment = []
    · have skipped : schemasHppEnum f en = [] := if_pos typed
      rw [List.filter_cons_of_neg (by simp [emitted, typed]), ih, skipped, List.nil_append]
    · rw [List.filter_cons_of_pos (by simp [emitted, typed]), List.map_cons, renderAll, ih,
        render_enum f typed]

theorem line_metadata (f : Formatter) (md : ClassMetadata) :
    f.line (metadataComment md) = writeMetadataLine f md := by
  obtain ⟨kind, name, typeName⟩ := md
  cases kind <;> rfl

theorem lines_class (f : Formatter) (cls : ClassInfo) : (classComments cls).flatMap f.line =
    f.line (text "// Parent: " ++ cls.parentName.getD (text "None")) ++
      writeMetadata f cls.metadata := by
  rw [classComments, List.flatMap_cons, writeMetadata]
  by_cases none_ : cls.metadata = []
  · rw [if_pos none_, if_pos none_, List.flatMap_nil]
  · rw [if_neg none_, if_neg none_, List.flatMap_cons, List.flatMap_map]
    simp only [line_metadata]

theorem render_field (f : Formatter) (field : ClassField) : (fieldDecl field).render f =
    f.line (text "inline constexpr std::ptrdiff_t " ++ slugify field.name ++ text " = " ++
      hex field.offset.toInt64 ++ text "; // " ++ field.typeName) := by
  rw [fieldDecl, render_assign, List.append_assoc _ (text "; "), ← List.append_assoc (text "; ")]
  simp only [List.append_assoc]
  rfl

theorem render_class (f : Formatter) (cls : ClassInfo) :
    (classDecl cls).render f = schemasHppClass f cls := by
  rw [classDecl, render_space, lines_class, schemasHppClass]
  simp only [renderAll_map, render_field, List.append_assoc]

theorem render_scope (f : Formatter) (s : Scope) : renderAll f (scopeDecls s) =
    s.enums.flatMap (schemasHppEnum f) ++ s.classes.flatMap (schemasHppClass f) := by
  rw [scopeDecls, renderAll_append, render_enums, renderAll_map]
  simp only [render_class]

theorem render_schemaModule (f : Formatter) (entry : Text × Scope) :
    (schemaModuleDecl entry).render f = schemasHppModule f entry := by
  rw [schemaModuleDecl, render_space]
  simp only [render_scope, schemasHppModule, namespaceName, List.flatMap_cons, List.flatMap_nil,
    List.append_nil, List.append_assoc]

theorem schemasHpp_eq (map : SchemaMap) (indent : Nat) (timestamp : Text) :
    schemasHpp map indent timestamp = banner ⟨indent, 0⟩ timestamp ++ preface ⟨indent, 0⟩ stdint ++
      renderAll ⟨indent, 0⟩ (schemasDecls map) := by
  rw [schemasDecls, render_nest]
  simp only [renderAll_map, render_schemaModule, schemasHpp, preface, stdint, stddef,
    List.flatMap_cons, List.flatMap_nil, List.append_nil, List.append_assoc, List.cons_append,
    List.nil_append]
  rfl

section Runs

variable (o : Output) (readBuild : Text → UInt32 → Option UInt32)

/-- The files of one type. -/
def typeFiles (type : Text) : List File := if type = text "hpp" then o.hppFiles else o.jsonFiles

theorem dumpTypes_eq (types : List Text) :
    (o.dumpTypes types).1 = (types.takeWhile supported).flatMap (typeFiles o) ∧
      ((o.dumpTypes types).2 = .ok () ↔ types.all supported = true) := by
  induction types with
  | nil => exact ⟨rfl, iff_of_true rfl rfl⟩
  | cons type rest ih =>
    rw [Output.dumpTypes]
    by_cases hpp : type = text "hpp"
    · have here : supported type = true := by simp [supported, hpp]
      rw [if_pos hpp, List.takeWhile_cons_of_pos here, List.flatMap_cons, typeFiles, if_pos hpp,
        ← ih.1, List.all_cons, here]
      exact ⟨rfl, ih.2⟩
    · by_cases json : type = text "json"
      · have here : supported type = true := by simp [supported, json]
        rw [if_neg hpp, if_pos json, List.takeWhile_cons_of_pos here, List.flatMap_cons, typeFiles,
          if_neg hpp, ← ih.1, List.all_cons, here]
        exact ⟨rfl, ih.2⟩
      · have other : supported type = false := by simp [supported, hpp, json]
        rw [if_neg hpp, if_neg json, List.takeWhile_cons_of_neg (by simp [other]), List.all_cons,
          other]
        exact ⟨rfl, iff_of_false nofun nofun⟩

/-- The files of a run. -/
theorem dumpAll_files : (o.dumpAll readBuild).1 = (active o).flatMap (typeFiles o) ++
    if complete o then
      o.result.schemas.entries.flatMap (fun entry => o.fileTypes.flatMap (o.schemaFile entry)) ++
        [⟨text "info.json", o.info readBuild⟩]
    else [] := by
  obtain ⟨files, ends⟩ := dumpTypes_eq o o.fileTypes
  rw [Output.dumpAll]
  split
  · next written what failed =>
    rw [failed] at files ends
    have stopped : ¬ complete o = true := fun all => nomatch ends.mpr all
    rw [if_neg stopped, List.append_nil]
    exact files
  · next written done =>
    rw [done] at files ends
    have all : complete o = true := ends.mp rfl
    have written_ : written = (active o).flatMap (typeFiles o) := files
    rw [if_pos all, ← List.append_assoc, written_]

/-- What a text ends in tells what its last character is. -/
theorem not_suffix_of_last {a b s : Text} {c d : UInt8} (differ : c ≠ d) :
    ¬ (a ++ [c]) <:+ (s ++ (b ++ [d])) := by
  rintro ⟨t, same⟩
  have last := congrArg List.getLast? same
  rw [← List.append_assoc, ← List.append_assoc, List.getLast?_concat, List.getLast?_concat] at last
  exact differ (Option.some.inj last)

def isHeader (file : File) : Bool := decide (text ".hpp" <:+ file.name)

theorem header_file (h : Header) (base : Text) (named : h.name = base ++ text ".hpp") :
    isHeader h.file = true := decide_eq_true ⟨base, named.symm⟩

theorem json_not_header (base data : Text) : isHeader ⟨base ++ text ".json", data⟩ = false :=
  decide_eq_false (not_suffix_of_last (a := text ".hp") (b := text ".jso") (by decide))

theorem flatMap_if {α β : Type} (p : α → Bool) (f : α → List β) (l : List α) :
    (l.flatMap fun a => if p a = true then f a else []) = (l.filter p).flatMap f := by
  induction l with
  | nil => rfl
  | cons a l ih =>
    rw [List.flatMap_cons, ih]
    by_cases holds : p a = true
    · rw [if_pos holds, List.filter_cons_of_pos holds, List.flatMap_cons]
    · rw [if_neg holds, List.filter_cons_of_neg holds, List.nil_append]

theorem typeFiles_headers (type : Text) : (typeFiles o type).filter isHeader =
    if decide (type = text "hpp") = true then (baseHeaders o).map Header.file else [] := by
  rw [typeFiles]
  by_cases hpp : type = text "hpp"
  · have written : o.hppFiles = (baseHeaders o).map Header.file := by
      rw [Output.hppFiles, buttonsHpp_eq, nestedHpp_eq, offsetsHpp, nestedHpp_eq]
      rfl
    rw [if_pos hpp, if_pos (decide_eq_true hpp), written]
    refine List.filter_eq_self.mpr fun file member => ?_
    obtain ⟨h, listed, rfl⟩ := List.mem_map.mp member
    simp only [baseHeaders, List.mem_cons, List.not_mem_nil, or_false] at listed
    rcases listed with rfl | rfl | rfl <;> exact header_file _ _ rfl
  · have other : ¬ decide (type = text "hpp") = true := by simp [hpp]
    rw [if_neg hpp, if_neg other]
    refine List.filter_eq_nil_iff.mpr fun file member => ?_
    simp only [Output.jsonFiles, List.mem_cons, List.not_mem_nil, or_false] at member
    rcases member with rfl | rfl | rfl
    · exact Bool.eq_false_iff.mp (json_not_header (text "buttons") _)
    · exact Bool.eq_false_iff.mp (json_not_header (text "interfaces") _)
    · exact Bool.eq_false_iff.mp (json_not_header (text "offsets") _)

theorem schemaFile_headers (entry : Text × Scope) (type : Text) :
    (o.schemaFile entry type).filter isHeader =
      if decide (type = text "hpp") = true then [(schemaHeader o entry).file] else [] := by
  rw [Output.schemaFile]
  by_cases hpp : type = text "hpp"
  · have written : (⟨slugify entry.1 ++ text ".hpp",
        schemasHpp (one entry) o.indentSize o.timestampBanner⟩ : File) =
          (schemaHeader o entry).file := by
      rw [schemasHpp_eq]
      rfl
    rw [if_pos hpp, if_pos (decide_eq_true hpp), written]
    exact List.filter_cons_of_pos (header_file _ (slugify entry.1) rfl)
  · have other : ¬ decide (type = text "hpp") = true := by simp [hpp]
    rw [if_neg hpp, if_neg other]
    split
    · exact List.filter_cons_of_neg (Bool.eq_false_iff.mp (json_not_header _ _))
    · rfl

/-- The headers that a run writes are the texts of the trees. -/
theorem dumpAll_headers :
    (o.dumpAll readBuild).1.filter isHeader = (headers o).map Header.file := by
  have base : ((active o).flatMap (typeFiles o)).filter isHeader =
      (((active o).filter fun type => decide (type = text "hpp")).flatMap
        fun _ => baseHeaders o).map Header.file := by
    rw [List.filter_flatMap, List.map_flatMap, ← flatMap_if]
    exact congrArg (List.flatMap · (active o)) (funext (typeFiles_headers o))
  have each : ∀ entry, (o.fileTypes.flatMap (o.schemaFile entry)).filter isHeader =
      ((o.fileTypes.filter fun type => decide (type = text "hpp")).map
        fun _ => schemaHeader o entry).map Header.file := by
    intro entry
    rw [List.filter_flatMap, List.map_map, ← List.flatMap_pure_eq_map, ← flatMap_if]
    exact congrArg (List.flatMap · o.fileTypes) (funext (schemaFile_headers o entry))
  rw [dumpAll_files, headers, List.filter_append, List.map_append, base]
  congr 1
  split
  · have info : [(⟨text "info.json", o.info readBuild⟩ : File)].filter isHeader = [] :=
      List.filter_cons_of_neg (Bool.eq_false_iff.mp (json_not_header (text "info") _))
    rw [List.filter_append, List.filter_flatMap, info, List.append_nil, List.map_flatMap]
    exact congrArg (List.flatMap · o.result.schemas.entries) (funext each)
  · rfl

end Runs

end DumpHeaders
