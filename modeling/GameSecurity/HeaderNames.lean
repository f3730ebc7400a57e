import Mathlib.Data.List.Nodup
import GameSecurity.DumpHeaders

/- The names that the headers of a dump declare, and the names of its files. -/
namespace HeaderNames
open AsciiText SortedMap DumperOutput CppTokens HeaderWords HeaderTree DumpHeaders

def keywords : List Text :=
  ["alignas", "alignof", "and", "and_eq", "asm", "auto", "bitand", "bitor", "bool", "break", "case",
    "catch", "char", "char8_t", "char16_t", "char32_t", "class", "compl", "concept", "const",
    "consteval", "constexpr", "constinit", "const_cast", "continue", "co_await", "co_return",
    "co_yield", "decltype", "default", "delete", "do", "double", "dynamic_cast", "else", "enum",
    "explicit", "export", "extern", "false", "float", "for", "friend", "goto", "if", "inline", "int",
    "long", "mutable", "namespace", "new", "noexcept", "not", "not_eq", "nullptr", "operator", "or",
    "or_eq", "private", "protected", "public", "register", "reinterpret_cast", "requires", "return",
    "short", "signed", "sizeof", "static", "static_assert", "static_cast", "struct", "switch",
    "template", "this", "thread_local", "throw", "true", "try", "typedef", "typeid", "typename",
    "union", "unsigned", "using", "virtual", "void", "volatile", "wchar_t", "while", "xor",
    "xor_eq"].map text

/-- Names that one scope may declare. -/
structure Fit (names : List Text) : Prop where
  distinct : names.Nodup
  legal : ∀ name ∈ names, Identifier name ∧ name ∉ keywords

section Names

/-- Equal, but for bytes that are neither letters nor digits. -/
def Alike (a b : Text) : Prop :=
  List.Forall₂ (fun x y => x = y ∨ (isalnum x = false ∧ isalnum y = false)) (led a) (led b)

instance (a b : Text) : Decidable (Alike a b) :=
  inferInstanceAs (Decidable (List.Forall₂ _ (led a) (led b)))

theorem plain_eq_iff (x y : UInt8) :
    plain x = plain y ↔ x = y ∨ (isalnum x = false ∧ isalnum y = false) := by
  have mark : isalnum 95 = false := by decide
  cases left : isalnum x with
  | true =>
    cases right : isalnum y with
    | true =>
      rw [plain_alnum left, plain_alnum right]
      simp
    | false =>
      rw [plain_alnum left, plain_other right]
      have noMark : x ≠ 95 := fun same => Bool.false_ne_true (mark.symm.trans (same ▸ left))
      have differ : x ≠ y := fun same => Bool.false_ne_true (right.symm.trans (same ▸ left))
      simp [noMark, differ]
  | false =>
    cases right : isalnum y with
    | true =>
      rw [plain_other left, plain_alnum right]
      have noMark : 95 ≠ y := fun same => Bool.false_ne_true (mark.symm.trans (same ▸ right))
      have differ : x ≠ y := fun same => Bool.false_ne_true (left.symm.trans (same ▸ right))
      simp [noMark, differ]
    | false =>
      rw [plain_other left, plain_other right]
      simp

theorem slugify_eq_iff (a b : Text) : slugify a = slugify b ↔ Alike a b := by
  rw [slugify_led, slugify_led, ← List.forall₂_eq_eq_eq, List.forall₂_map_left_iff,
    List.forall₂_map_right_iff, Alike]
  simp only [plain_eq_iff]

/-- Names that stay apart, and free of keywords, as identifiers. -/
structure Apart (names : List Text) : Prop where
  distinct : names.Pairwise fun a b => ¬ Alike a b
  free : ∀ name ∈ names, ∀ word ∈ keywords, ¬ Alike name word

instance (names : List Text) : Decidable (Apart names) :=
  decidable_of_iff (names.Pairwise (fun a b => ¬ Alike a b) ∧
      ∀ name ∈ names, ∀ word ∈ keywords, ¬ Alike name word)
    ⟨fun both => ⟨both.1, both.2⟩, fun apart => ⟨apart.distinct, apart.free⟩⟩

structure ApartSpaces (modules : List Text) : Prop where
  distinct : modules.Pairwise fun a b => namespaceName a ≠ namespaceName b
  free : ∀ module ∈ modules, namespaceName module ∉ keywords

instance (modules : List Text) : Decidable (ApartSpaces modules) :=
  decidable_of_iff (modules.Pairwise (fun a b => namespaceName a ≠ namespaceName b) ∧
      ∀ module ∈ modules, namespaceName module ∉ keywords)
    ⟨fun both => ⟨both.1, both.2⟩, fun apart => ⟨apart.distinct, apart.free⟩⟩

theorem slug_mem_iff {words : List Text} (slugs : ∀ word ∈ words, slugify word = word)
    (name : Text) : slugify name ∈ words ↔ ∃ word ∈ words, Alike name word := by
  constructor
  · intro member
    refine ⟨_, member, ?_⟩
    rw [← slugify_eq_iff, slugs _ member]
  · rintro ⟨word, member, alike⟩
    rw [(slugify_eq_iff name word).mpr alike, slugs word member]
    exact member

theorem slug_nodup_iff (names : List Text) :
    (names.map slugify).Nodup ↔ names.Pairwise fun a b => ¬ Alike a b := by
  rw [List.Nodup, List.pairwise_map]
  simp only [Ne, slugify_eq_iff]

theorem keywords_slugs : ∀ word ∈ keywords, slugify word = word := by decide +kernel

theorem fit_slugs (names : List Text) : Fit (names.map slugify) ↔ Apart names := by
  constructor
  · intro fit
    refine ⟨(slug_nodup_iff names).mp fit.distinct, fun name member word listed alike => ?_⟩
    refine (fit.legal _ (List.mem_map_of_mem member)).2 ?_
    exact (slug_mem_iff keywords_slugs name).mpr ⟨word, listed, alike⟩
  · intro apart
    refine ⟨(slug_nodup_iff names).mpr apart.distinct, fun slug member => ?_⟩
    obtain ⟨name, listed, rfl⟩ := List.mem_map.mp member
    refine ⟨slugify_identifier name, fun keyword => ?_⟩
    obtain ⟨word, among, alike⟩ := (slug_mem_iff keywords_slugs name).mp keyword
    exact apart.free name listed word among alike

theorem fit_spaces (modules : List Text) :
    Fit (modules.map namespaceName) ↔ ApartSpaces modules := by
  constructor
  · intro fit
    refine ⟨List.pairwise_map.mp fit.distinct, fun module member => ?_⟩
    exact (fit.legal _ (List.mem_map_of_mem member)).2
  · intro apart
    refine ⟨List.pairwise_map.mpr apart.distinct, fun name member => ?_⟩
    obtain ⟨module, listed, rfl⟩ := List.mem_map.mp member
    exact ⟨namespaceName_identifier module, apart.free module listed⟩

theorem fit_word {name : Text} (slug : slugify name = name) (free : name ∉ keywords) :
    Fit [name] where
  distinct := List.nodup_singleton name
  legal := by
    intro other member
    rw [List.mem_singleton.mp member]
    exact ⟨slug ▸ slugify_identifier name, free⟩

end Names

section Scopes

def WellNamed (decls : List Decl) : Prop := ∀ names ∈ scopes decls, Fit names

theorem innerScopes_append (a b : List Decl) :
    innerScopes (a ++ b) = innerScopes a ++ innerScopes b := by
  induction a with
  | nil => rfl
  | cons decl a ih => rw [List.cons_append, innerScopes, innerScopes, ih, List.append_assoc]

theorem innerScopes_map {α : Type} (decl : α → Decl) (l : List α) :
    innerScopes (l.map decl) = l.flatMap fun a => (decl a).scopes := by
  induction l with
  | nil => rfl
  | cons a l ih => rw [List.map_cons, innerScopes, ih, List.flatMap_cons]

theorem innerScopes_lines {α : Type} (decl : α → Decl) (lines : ∀ a, (decl a).scopes = [])
    (l : List α) : innerScopes (l.map decl) = [] := by
  rw [innerScopes_map]
  exact List.flatMap_eq_nil_iff.mpr fun a _ => lines a

theorem wellNamed_nest {rootName : Text} (root : Fit [rootName]) (identifier : Identifier rootName)
    (body : List Decl) : WellNamed (nest rootName identifier body) ↔ WellNamed body := by
  have outer : Fit [text "cs2_dumper"] := fit_word (by decide) (by decide +kernel)
  have all : scopes (nest rootName identifier body) =
      [text "cs2_dumper"] :: [rootName] :: scopes body := by
    simp [scopes, nest, space, innerScopes, Decl.scopes, Decl.name]
  rw [WellNamed, all, List.forall_mem_cons, List.forall_mem_cons]
  exact ⟨fun fit => fit.2.2, fun fit => ⟨outer, root, fit⟩⟩

theorem wellNamed_buttons (map : ButtonMap) :
    WellNamed (buttonsDecls map) ↔ Apart (map.entries.map Prod.fst) := by
  rw [buttonsDecls, wellNamed_nest (fit_word (by decide) (by decide +kernel)), WellNamed,
    scopes, innerScopes_lines buttonDecl fun _ => rfl, List.forall_mem_singleton, ← fit_slugs,
    List.map_map, List.map_map]
  exact Iff.rfl

/-- What a map of modules has to be for its header. -/
structure ModulesApart {V : Type} (entries : List (Text × Map Text V)) : Prop where
  modules : ApartSpaces (entries.map Prod.fst)
  values : ∀ entry ∈ entries, Apart (entry.2.entries.map Prod.fst)

instance {V : Type} (entries : List (Text × Map Text V)) : Decidable (ModulesApart entries) :=
  decidable_of_iff (ApartSpaces (entries.map Prod.fst) ∧
      ∀ entry ∈ entries, Apart (entry.2.entries.map Prod.fst))
    ⟨fun both => ⟨both.1, both.2⟩, fun apart => ⟨apart.modules, apart.values⟩⟩

theorem fit_blocks {α : Type} {decl : α → Decl} {inside : α → List Text}
    (opens : ∀ a, (decl a).scopes = [inside a]) (l : List α) :
    (∀ names ∈ innerScopes (l.map decl), Fit names) ↔ ∀ a ∈ l, Fit (inside a) := by
  rw [innerScopes_map]
  constructor
  · intro fit a member
    refine fit (inside a) (List.mem_flatMap.mpr ⟨a, member, ?_⟩)
    rw [opens]
    exact List.mem_singleton_self _
  · intro fit names member
    obtain ⟨a, listed, among⟩ := List.mem_flatMap.mp member
    rw [opens, List.mem_singleton] at among
    exact among ▸ fit a listed

theorem scopes_block {α : Type} (comments : List Text) (heading : Heading) (semicolon : Bool)
    {decl : α → Decl} (lines : ∀ a, (decl a).scopes = []) (l : List α) :
    (Decl.block comments heading semicolon (l.map decl)).scopes =
      [l.map fun a => (decl a).name] := by
  rw [Decl.scopes, innerScopes_lines decl lines, List.map_map]
  rfl

theorem wellNamed_nested (map : InterfaceMap) {rootName : Text} (root : Fit [rootName])
    (identifier : Identifier rootName) :
    WellNamed (nestedDecls map rootName identifier) ↔ ModulesApart map.entries := by
  have spaces : (map.entries.map moduleDecl).map Decl.name =
      (map.entries.map Prod.fst).map namespaceName := by
    rw [List.map_map, List.map_map]
    rfl
  have inner : (∀ names ∈ innerScopes (map.entries.map moduleDecl), Fit names) ↔
      ∀ entry ∈ map.entries, Fit ((entry.2.entries.map Prod.fst).map slugify) := by
    have opens : ∀ entry : Text × Map Text UInt64, (moduleDecl entry).scopes =
        [entry.2.entries.map fun value => (valueDecl value).name] := fun entry =>
      scopes_block _ _ _ (fun _ => rfl) entry.2.entries
    refine (fit_blocks opens map.entries).trans ?_
    simp only [List.map_map]
    exact Iff.rfl
  rw [nestedDecls, wellNamed_nest root, WellNamed, scopes, List.forall_mem_cons, spaces,
    fit_spaces, inner]
  simp only [fit_slugs]
  exact ⟨fun both => ⟨both.1, both.2⟩, fun both => ⟨both.modules, both.values⟩⟩

structure ScopeApart (s : Scope) : Prop where
  types : Apart ((s.enums.filter emitted).map EnumInfo.name ++ s.classes.map ClassInfo.name)
  members : ∀ en ∈ s.enums, emitted en = true → Apart (en.members.map EnumMember.name)
  fields : ∀ cls ∈ s.classes, Apart (cls.fields.map ClassField.name)

instance (s : Scope) : Decidable (ScopeApart s) :=
  decidable_of_iff
    (Apart ((s.enums.filter emitted).map EnumInfo.name ++ s.classes.map ClassInfo.name) ∧
      (∀ en ∈ s.enums, emitted en = true → Apart (en.members.map EnumMember.name)) ∧
      ∀ cls ∈ s.classes, Apart (cls.fields.map ClassField.name))
    ⟨fun all => ⟨all.1, all.2.1, all.2.2⟩, fun apart => ⟨apart.types, apart.members, apart.fields⟩⟩

theorem wellNamed_schema (entry : Text × Scope) : WellNamed (schemasDecls (one entry)) ↔
    namespaceName entry.1 ∉ keywords ∧ ScopeApart entry.2 := by
  have types : (scopeDecls entry.2).map Decl.name =
      ((entry.2.enums.filter emitted).map EnumInfo.name ++
        entry.2.classes.map ClassInfo.name).map slugify := by
    rw [scopeDecls, List.map_append, List.map_map, List.map_map, List.map_append, List.map_map,
      List.map_map]
    rfl
  have enums : (∀ names ∈ innerScopes ((entry.2.enums.filter emitted).map enumDecl), Fit names) ↔
      ∀ en ∈ entry.2.enums, emitted en = true →
        Fit ((en.members.map EnumMember.name).map slugify) := by
    have opens : ∀ en : EnumInfo, (enumDecl en).scopes =
        [en.members.map fun member => (memberDecl en.alignment member).name] := fun en =>
      scopes_block _ _ _ (fun _ => rfl) en.members
    refine (fit_blocks opens _).trans ?_
    simp only [List.map_map, List.mem_filter, and_imp]
    exact Iff.rfl
  have classes : (∀ names ∈ innerScopes (entry.2.classes.map classDecl), Fit names) ↔
      ∀ cls ∈ entry.2.classes, Fit ((cls.fields.map ClassField.name).map slugify) := by
    have opens : ∀ cls : ClassInfo, (classDecl cls).scopes =
        [cls.fields.map fun field => (fieldDecl field).name] := fun cls =>
      scopes_block _ _ _ (fun _ => rfl) cls.fields
    refine (fit_blocks opens _).trans ?_
    simp only [List.map_map]
    exact Iff.rfl
  have body : WellNamed [schemaModuleDecl entry] ↔ Fit [namespaceName entry.1] ∧
      Fit ((scopeDecls entry.2).map Decl.name) ∧
        ∀ names ∈ innerScopes (scopeDecls entry.2), Fit names := by
    rw [WellNamed, scopes, innerScopes, innerScopes, List.append_nil, schemaModuleDecl, space,
      Decl.scopes, List.forall_mem_cons, List.forall_mem_cons]
    exact Iff.rfl
  have one_ : Fit [namespaceName entry.1] ↔ namespaceName entry.1 ∉ keywords := by
    constructor
    · exact fun fit => (fit.legal _ (List.mem_singleton_self _)).2
    · intro free
      refine ⟨List.nodup_singleton _, fun name member => ?_⟩
      rw [List.mem_singleton.mp member]
      exact ⟨namespaceName_identifier entry.1, free⟩
  rw [schemasDecls, wellNamed_nest (fit_word (by decide) (by decide +kernel))]
  refine body.trans ?_
  rw [one_, types, fit_slugs, scopeDecls, innerScopes_append, List.forall_mem_append, enums, classes]
  simp only [fit_slugs]
  constructor
  · rintro ⟨free, apart, members, fields⟩
    exact ⟨free, apart, members, fields⟩
  · rintro ⟨free, apart⟩
    exact ⟨free, apart.types, apart.members, apart.fields⟩

end Scopes

section Files

variable (o : Output) (readBuild : Text → UInt32 → Option UInt32)

def bases : List Text := [text "buttons", text "interfaces", text "offsets"]

def slugs : List Text := o.result.schemas.entries.map fun entry => slugify entry.1

/-- The names of a run's files, before the dots and behind them. -/
def fileKeys : List (Text × Text) :=
  ((active o).flatMap fun type => bases.map fun base => (base, type)) ++
    if complete o then
      ((slugs o).flatMap fun slug => o.fileTypes.map fun type => (slug, type)) ++
        [(text "info", text "json")]
    else []

def fileName (key : Text × Text) : Text := key.1 ++ text "." ++ key.2

theorem supported_iff {type : Text} :
    supported type = true ↔ type = text "hpp" ∨ type = text "json" :=
  decide_eq_true_iff

theorem active_supported {type : Text} (member : type ∈ active o) : supported type = true :=
  List.mem_takeWhile_imp member

theorem active_complete (all : complete o = true) : active o = o.fileTypes :=
  List.takeWhile_eq_self_iff.mpr fun type member => List.all_eq_true.mp all type member

theorem typeFiles_names {type : Text} (known : supported type = true) :
    (typeFiles o type).map File.name = bases.map fun base => fileName (base, type) := by
  rcases supported_iff.mp known with rfl | rfl <;> rfl

theorem schemaFile_names (entry : Text × Scope) {type : Text} (known : supported type = true) :
    (o.schemaFile entry type).map File.name = [fileName (slugify entry.1, type)] := by
  rcases supported_iff.mp known with rfl | rfl
  · rw [Output.schemaFile, if_pos rfl, List.map_singleton, fileName, List.append_assoc]
    rfl
  · rw [Output.schemaFile, if_neg (by decide), if_pos rfl, List.map_singleton, fileName,
      List.append_assoc]
    rfl

theorem dumpAll_names :
    (o.dumpAll readBuild).1.map File.name = (fileKeys o).map fileName := by
  have base : ((active o).flatMap (typeFiles o)).map File.name =
      ((active o).flatMap fun type => bases.map fun base => (base, type)).map fileName := by
    rw [List.map_flatMap, List.map_flatMap]
    refine List.flatMap_congr fun type member => ?_
    rw [typeFiles_names o (active_supported o member), List.map_map]
    rfl
  rw [dumpAll_files, fileKeys, List.map_append, List.map_append, base]
  congr 1
  split
  · next all =>
    have each : ∀ entry : Text × Scope, (o.fileTypes.flatMap (o.schemaFile entry)).map File.name =
        (o.fileTypes.map fun type => (slugify entry.1, type)).map fileName := by
      intro entry
      rw [List.map_flatMap, List.map_map, ← List.flatMap_pure_eq_map]
      refine List.flatMap_congr fun type member => ?_
      exact schemaFile_names o entry (List.all_eq_true.mp all type member)
    rw [List.map_append, List.map_append, List.map_flatMap, List.map_flatMap, slugs,
      List.flatMap_map]
    simp only [each]
    rfl
  · rfl

theorem fileName_inj {a b : Text × Text} (first : supported a.2 = true)
    (second : supported b.2 = true) (same : fileName a = fileName b) : a = b := by
  obtain ⟨name, type⟩ := a
  obtain ⟨other, kind⟩ := b
  have apart : ∀ s t : Text, s ++ text "." ++ text "hpp" ≠ t ++ text "." ++ text "json" := by
    intro s t equal
    have last := congrArg List.getLast? equal
    rw [show text "hpp" = text "hp" ++ [112] from rfl,
      show text "json" = text "jso" ++ [110] from rfl,
      ← List.append_assoc, ← List.append_assoc, List.getLast?_concat, List.getLast?_concat] at last
    exact absurd last (by decide)
  have cancel : ∀ t : Text, name ++ text "." ++ t = other ++ text "." ++ t → name = other :=
    fun t equal => List.append_cancel_right (List.append_cancel_right equal)
  rcases supported_iff.mp first with rfl | rfl <;> rcases supported_iff.mp second with rfl | rfl
  · rw [cancel _ same]
  · exact absurd same (apart name other)
  · exact absurd same.symm (apart other name)
  · rw [cancel _ same]

theorem nodup_grid {α β γ : Type} {pair : α → β → γ}
    (apart : ∀ {a b a' b'}, pair a b = pair a' b' → a = a' ∧ b = b') {m : List β}
    (distinct : m.Nodup) (some_ : m ≠ []) (l : List α) :
    (l.flatMap fun a => m.map (pair a)).Nodup ↔ l.Nodup := by
  rw [List.nodup_flatMap]
  constructor
  · rintro ⟨-, disjoint⟩
    refine disjoint.imp fun {a b} away same => ?_
    obtain ⟨first, rest, rfl⟩ := List.exists_cons_of_ne_nil some_
    subst same
    exact away List.mem_cons_self List.mem_cons_self
  · intro nodup
    refine ⟨fun a _ => distinct.map_on fun x _ y _ same => (apart same).2, nodup.imp ?_⟩
    intro a b differ c left right
    obtain ⟨x, -, rfl⟩ := List.mem_map.mp left
    obtain ⟨y, -, same⟩ := List.mem_map.mp right
    exact differ (apart same).1.symm

theorem fileKeys_supported {key : Text × Text} (member : key ∈ fileKeys o) :
    supported key.2 = true := by
  rcases List.mem_append.mp member with base | module
  · obtain ⟨type, listed, among⟩ := List.mem_flatMap.mp base
    obtain ⟨name, -, rfl⟩ := List.mem_map.mp among
    exact active_supported o listed
  · split at module
    · next all =>
      rcases List.mem_append.mp module with schema | info
      · obtain ⟨slug, -, among⟩ := List.mem_flatMap.mp schema
        obtain ⟨type, listed, rfl⟩ := List.mem_map.mp among
        exact List.all_eq_true.mp all type listed
      · rw [List.mem_singleton.mp info]
        decide
    · exact absurd module List.not_mem_nil

theorem nodup_names :
    ((o.dumpAll readBuild).1.map File.name).Nodup ↔ (fileKeys o).Nodup := by
  rw [dumpAll_names]
  refine ⟨List.Nodup.of_map fileName, fun nodup => nodup.map_on fun x left y right same => ?_⟩
  exact fileName_inj (fileKeys_supported o left) (fileKeys_supported o right) same

/-- What the modules and types of a run have to be for its files. -/
structure FilesApart : Prop where
  types : (active o).Nodup
  modules : complete o = true → o.fileTypes ≠ [] →
    (slugs o).Nodup ∧ ∀ slug ∈ slugs o, slug ∉ bases
  info : complete o = true → text "json" ∈ o.fileTypes → text "info" ∉ slugs o

theorem nodup_fileKeys : (fileKeys o).Nodup ↔ FilesApart o := by
  have baseGrid : ((active o).flatMap fun type => bases.map fun base => (base, type)).Nodup ↔
      (active o).Nodup :=
    nodup_grid (fun same => ⟨congrArg Prod.snd same, congrArg Prod.fst same⟩) (by decide +kernel)
      (by decide) (active o)
  by_cases all : complete o = true
  · have same := active_complete o all
    rw [fileKeys, if_pos all, List.nodup_append, baseGrid, List.nodup_append]
    constructor
    · rintro ⟨types, ⟨grid, -, away⟩, apart⟩
      refine ⟨types, fun _ some_ => ⟨?_, fun slug listed among => ?_⟩, fun _ json listed => ?_⟩
      · exact (nodup_grid (fun equal => ⟨congrArg Prod.fst equal, congrArg Prod.snd equal⟩)
          (same ▸ types) some_ (slugs o)).mp grid
      · obtain ⟨type, rest, first⟩ := List.exists_cons_of_ne_nil some_
        have member : type ∈ o.fileTypes := first ▸ List.mem_cons_self
        refine apart (slug, type) (List.mem_flatMap.mpr ⟨type, same ▸ member, ?_⟩) (slug, type)
          (List.mem_append_left _ (List.mem_flatMap.mpr ⟨slug, listed, ?_⟩)) rfl
        · exact List.mem_map_of_mem among
        · exact List.mem_map_of_mem member
      · refine away (text "info", text "json") (List.mem_flatMap.mpr ⟨text "info", listed, ?_⟩)
          (text "info", text "json") (List.mem_singleton_self _) rfl
        exact List.mem_map_of_mem json
    · intro apart
      refine ⟨apart.types, ⟨?_, List.nodup_singleton _, ?_⟩, ?_⟩
      · by_cases none_ : o.fileTypes = []
        · have empty :
              ((slugs o).flatMap fun slug => o.fileTypes.map fun type => (slug, type)) = [] :=
            List.flatMap_eq_nil_iff.mpr fun slug _ => by rw [none_]; rfl
          rw [empty]
          exact List.nodup_nil
        · exact (nodup_grid (fun equal => ⟨congrArg Prod.fst equal, congrArg Prod.snd equal⟩)
            (same ▸ apart.types) none_ (slugs o)).mpr (apart.modules all none_).1
      · rintro key schema _ info rfl
        obtain ⟨slug, listed, among⟩ := List.mem_flatMap.mp schema
        obtain ⟨type, member, equal⟩ := List.mem_map.mp among
        cases equal.trans (List.mem_singleton.mp info)
        exact apart.info all member listed
      · rintro key base _ module rfl
        obtain ⟨type, listed, among⟩ := List.mem_flatMap.mp base
        obtain ⟨name, known, rfl⟩ := List.mem_map.mp among
        rcases List.mem_append.mp module with schema | info
        · obtain ⟨slug, member, pairs⟩ := List.mem_flatMap.mp schema
          obtain ⟨kind, used, equal⟩ := List.mem_map.mp pairs
          cases equal
          exact (apart.modules all (List.ne_nil_of_mem used)).2 name member known
        · cases List.mem_singleton.mp info
          revert known
          decide
  · rw [fileKeys, if_neg all, List.append_nil, baseGrid]
    exact ⟨fun types => ⟨types, fun full => absurd full all, fun full => absurd full all⟩,
      fun apart => apart.types⟩

end Files

section Headers

variable (o : Output) (readBuild : Text → UInt32 → Option UInt32)

def modules : List Text := o.result.schemas.entries.map Prod.fst

def schemaSpaces : List Text :=
  if complete o = true ∧ text "hpp" ∈ o.fileTypes then (modules o).map namespaceName else []

/-- Every declared name is legal, the names of a scope are distinct, and so are the namespaces of
   modules and the names of the files. -/
structure Meets : Prop where
  names : ∀ h ∈ headers o, WellNamed h.decls
  namespaces : (schemaSpaces o).Nodup
  files : ((o.dumpAll readBuild).1.map File.name).Nodup

/-- What has to hold of the names that were read. -/
structure Clear : Prop where
  types : (active o).Nodup
  buttons : text "hpp" ∈ active o → Apart (o.result.buttons.entries.map Prod.fst)
  interfaces : text "hpp" ∈ active o → ModulesApart o.result.interfaces.entries
  offsets : text "hpp" ∈ active o →
    ModulesApart (o.result.offsets.entries.filter fun entry => decide (entry.2.entries ≠ []))
  spaces : complete o = true → text "hpp" ∈ o.fileTypes → ApartSpaces (modules o)
  scopes : complete o = true → text "hpp" ∈ o.fileTypes →
    ∀ entry ∈ o.result.schemas.entries, ScopeApart entry.2
  files : complete o = true → o.fileTypes ≠ [] →
    (modules o).Pairwise (fun a b => ¬ Alike a b) ∧
      ∀ module ∈ modules o, ∀ base ∈ bases, ¬ Alike module base
  info : complete o = true → text "json" ∈ o.fileTypes →
    ∀ module ∈ modules o, ¬ Alike module (text "info")

theorem wellNamed_offsets (map : OffsetMap) :
    WellNamed (nestedDecls (widen map) (text "offsets") (by decide)) ↔
      ModulesApart (map.entries.filter fun entry => decide (entry.2.entries ≠ [])) := by
  have names : ∀ values : Map Text UInt32,
      (values.mapValues UInt32.toUInt64).entries.map Prod.fst = values.entries.map Prod.fst := by
    intro values
    rw [Map.mapValues, List.map_map]
    rfl
  have spaces : (widen map).entries.map Prod.fst =
      (map.entries.filter fun entry => decide (entry.2.entries ≠ [])).map Prod.fst := by
    rw [widen_entries, List.map_map]
    rfl
  rw [wellNamed_nested (widen map) (fit_word (by decide) (by decide +kernel))]
  constructor
  · intro apart
    refine ⟨spaces ▸ apart.modules, fun entry member => ?_⟩
    rw [← names]
    refine apart.values (entry.1, entry.2.mapValues UInt32.toUInt64) ?_
    rw [widen_entries]
    exact List.mem_map_of_mem member
  · intro apart
    refine ⟨spaces.symm ▸ apart.modules, fun entry member => ?_⟩
    rw [widen_entries] at member
    obtain ⟨old, listed, rfl⟩ := List.mem_map.mp member
    rw [names]
    exact apart.values old listed

theorem mem_headers {h : Header} : h ∈ headers o ↔
    (text "hpp" ∈ active o ∧ h ∈ baseHeaders o) ∨
      (complete o = true ∧ text "hpp" ∈ o.fileTypes ∧
        ∃ entry ∈ o.result.schemas.entries, h = schemaHeader o entry) := by
  rw [headers, List.mem_append]
  refine or_congr ?_ ?_
  · simp only [List.mem_flatMap, List.mem_filter, decide_eq_true_eq]
    constructor
    · rintro ⟨type, ⟨listed, rfl⟩, member⟩
      exact ⟨listed, member⟩
    · rintro ⟨listed, member⟩
      exact ⟨_, ⟨listed, rfl⟩, member⟩
  · split
    · next all =>
      simp only [List.mem_flatMap, List.mem_map, List.mem_filter, decide_eq_true_eq]
      constructor
      · rintro ⟨entry, member, type, ⟨listed, rfl⟩, rfl⟩
        exact ⟨all, listed, entry, member, rfl⟩
      · rintro ⟨-, listed, entry, member, rfl⟩
        exact ⟨entry, member, _, ⟨listed, rfl⟩, rfl⟩
    · next stopped => exact iff_of_false List.not_mem_nil fun found => stopped found.1

theorem wellNamed_headers : (∀ h ∈ headers o, WellNamed h.decls) ↔
    (text "hpp" ∈ active o → Apart (o.result.buttons.entries.map Prod.fst) ∧
      ModulesApart o.result.interfaces.entries ∧
      ModulesApart (o.result.offsets.entries.filter fun entry => decide (entry.2.entries ≠ []))) ∧
    (complete o = true → text "hpp" ∈ o.fileTypes → ∀ entry ∈ o.result.schemas.entries,
      namespaceName entry.1 ∉ keywords ∧ ScopeApart entry.2) := by
  have base : (∀ h ∈ baseHeaders o, WellNamed h.decls) ↔
      Apart (o.result.buttons.entries.map Prod.fst) ∧ ModulesApart o.result.interfaces.entries ∧
        ModulesApart
          (o.result.offsets.entries.filter fun entry => decide (entry.2.entries ≠ [])) := by
    rw [baseHeaders, List.forall_mem_cons, List.forall_mem_cons, List.forall_mem_singleton, header,
      header, header, wellNamed_buttons, wellNamed_offsets,
      wellNamed_nested o.result.interfaces (fit_word (by decide) (by decide +kernel))]
  rw [← base]
  constructor
  · intro fit
    refine ⟨fun listed h member => ?_, fun all listed entry member => ?_⟩
    · exact fit h ((mem_headers o).mpr (Or.inl ⟨listed, member⟩))
    · exact (wellNamed_schema entry).mp
        (fit _ ((mem_headers o).mpr (Or.inr ⟨all, listed, entry, member, rfl⟩)))
  · rintro ⟨first, second⟩ h member
    rcases (mem_headers o).mp member with ⟨listed, among⟩ | ⟨all, listed, entry, among, rfl⟩
    · exact first listed h among
    · exact (wellNamed_schema entry).mpr (second all listed entry among)

theorem filesApart_iff : FilesApart o ↔ (active o).Nodup ∧
    (complete o = true → o.fileTypes ≠ [] → (modules o).Pairwise (fun a b => ¬ Alike a b) ∧
      ∀ module ∈ modules o, ∀ base ∈ bases, ¬ Alike module base) ∧
    (complete o = true → text "json" ∈ o.fileTypes →
      ∀ module ∈ modules o, ¬ Alike module (text "info")) := by
  have slug : slugs o = (modules o).map slugify := by
    rw [modules, List.map_map]
    rfl
  have based : ∀ base ∈ bases, slugify base = base := by decide
  have clash : (∀ name ∈ slugs o, name ∉ bases) ↔
      ∀ module ∈ modules o, ∀ base ∈ bases, ¬ Alike module base := by
    rw [slug, List.forall_mem_map]
    simp only [slug_mem_iff based, not_exists, not_and]
  have informs : text "info" ∉ slugs o ↔ ∀ module ∈ modules o, ¬ Alike module (text "info") := by
    rw [slug, List.mem_map]
    simp only [← slugify_eq_iff, not_exists, not_and]
    rfl
  rw [← clash, ← informs, ← slug_nodup_iff, ← slug]
  exact ⟨fun apart => ⟨apart.types, apart.modules, apart.info⟩,
    fun apart => ⟨apart.1, apart.2.1, apart.2.2⟩⟩

/-- While the texts that were read stay in their comments, the headers are the texts of their trees
    and have no other code, and their names are in order exactly when the names that were read stay
    apart. -/
theorem dump_names_iff (contained : ∀ h ∈ headers o, h.Contained) :
    (o.dumpAll readBuild).1.filter isHeader = (headers o).map Header.file ∧
      (∀ h ∈ headers o, tokens h.file.data = h.tokens) ∧ (Meets o readBuild ↔ Clear o) := by
  refine ⟨dumpAll_headers o readBuild, fun h member => Header.tokens_contained (contained h member),
    ?_, ?_⟩
  · intro meets
    obtain ⟨base, schema⟩ := (wellNamed_headers o).mp meets.names
    obtain ⟨types, files, info⟩ :=
      (filesApart_iff o).mp ((nodup_fileKeys o).mp ((nodup_names o readBuild).mp meets.files))
    refine ⟨types, fun listed => (base listed).1, fun listed => (base listed).2.1,
      fun listed => (base listed).2.2, fun all listed => ⟨?_, ?_⟩,
      fun all listed entry member => (schema all listed entry member).2, files, info⟩
    · have distinct := meets.namespaces
      rw [schemaSpaces, if_pos ⟨all, listed⟩] at distinct
      exact List.pairwise_map.mp distinct
    · intro module member
      obtain ⟨entry, among, rfl⟩ := List.mem_map.mp member
      exact (schema all listed entry among).1
  · intro clear
    refine ⟨(wellNamed_headers o).mpr
      ⟨fun listed => ?_, fun all listed entry member => ⟨?_, ?_⟩⟩, ?_, ?_⟩
    · exact ⟨clear.buttons listed, clear.interfaces listed, clear.offsets listed⟩
    · exact (clear.spaces all listed).free entry.1 (List.mem_map_of_mem member)
    · exact clear.scopes all listed entry member
    · rw [schemaSpaces]
      split
      · next written => exact List.pairwise_map.mpr (clear.spaces written.1 written.2).distinct
      · exact List.nodup_nil
    · exact (nodup_names o readBuild).mpr
        ((nodup_fileKeys o).mpr ((filesApart_iff o).mpr ⟨clear.types, clear.files, clear.info⟩))

end Headers

def dotted : Output where
  fileTypes := [text "hpp", text "json"]
  indentSize := 4
  result := ⟨⟨[(text "a.b", 1), (text "a_b", 2)], by decide⟩, empty, empty, empty⟩
  timestampRfc3339 := text "2025-01-01T00:00:00Z"
  timestampBanner := text "2025-01-01 00:00:00 UTC"

theorem dotted_clashes : ¬ Meets dotted fun _ _ => none := by
  intro meets
  have apart := (((wellNamed_headers dotted).mp meets.names).1 (by decide)).1
  have same : Alike (text "a.b") (text "a_b") := (slugify_eq_iff _ _).mp (by decide)
  exact List.rel_of_pairwise_cons apart.distinct (List.mem_singleton_self _) same

/-- One of each kind, with comments of what was read. -/
def tidy : Output where
  fileTypes := [text "hpp", text "json"]
  indentSize := 4
  result :=
    ⟨⟨[(text "attack", 1)], by decide⟩,
      ⟨[(text "client.dll", ⟨[(text "Source2Client002", 2)], by decide⟩)], by decide⟩, empty,
      one (text "server.dll", ⟨[⟨text "C_Test", some (text "C_Base"), [⟨.unknown, text "MTag", []⟩],
        [⟨text "m_a", text "int32", 8⟩, ⟨text "m_b", text "char*", 12⟩]⟩], []⟩)⟩
  timestampRfc3339 := text "2025-01-01T00:00:00Z"
  timestampBanner := text "2025-01-01 00:00:00 UTC"

theorem dump_names_iff_tidy :
    (∀ h ∈ headers tidy, tokens h.file.data = h.tokens) ∧ Meets tidy fun _ _ => none := by
  have contained : ∀ h ∈ headers tidy, h.Contained := by decide +kernel
  obtain ⟨-, read, meets⟩ := dump_names_iff tidy (fun _ _ => none) contained
  refine ⟨read, meets.mpr ?_⟩
  constructor
  case types => decide
  case buttons => exact fun _ => by decide +kernel
  case interfaces => exact fun _ => by decide +kernel
  case offsets => exact fun _ => by decide
  case spaces => exact fun _ _ => by decide +kernel
  case scopes => exact fun _ _ => by decide +kernel
  case files => exact fun _ _ => by decide +kernel
  case info => exact fun _ _ => by decide +kernel

/-- Two modules whose names go on behind the end of their line. -/
def torn : Output where
  fileTypes := [text "hpp"]
  indentSize := 4
  result :=
    ⟨empty, ⟨[(text "a\nint dup;", empty), (text "b\nint dup;", empty)], by decide⟩, empty, empty⟩
  timestampRfc3339 := text "2025-01-01T00:00:00Z"
  timestampBanner := text "2025-01-01 00:00:00 UTC"

/-- Names that stay apart are not enough where a text leaves its comment: the variable that is
    declared twice is in no tree. -/
theorem uncontained_declares : Clear torn ∧ ∃ h ∈ headers torn,
    text "dup" ∉ h.tokens ∧ (tokens h.file.data).count (text "dup") = 2 := by
  constructor
  · constructor
    case types => decide
    case buttons => exact fun _ => by decide +kernel
    case interfaces => exact fun _ => by decide +kernel
    case offsets => exact fun _ => by decide
    case spaces => exact fun _ _ => by decide +kernel
    case scopes => exact fun _ _ => by decide +kernel
    case files => exact fun _ _ => by decide +kernel
    case info => exact fun _ _ => by decide +kernel
  · decide +kernel

end HeaderNames
