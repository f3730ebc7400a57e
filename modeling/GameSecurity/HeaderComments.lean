import Mathlib.Data.List.Forall2
import GameSecurity.DumpHeaders

/- Text that was read from the process stands in the comments of a schema header. -/
namespace HeaderComments
open AsciiText SortedMap DumperOutput CppTokens HeaderWords HeaderTree DumpHeaders

-- Literals of the headers are evaluated character by character.
set_option maxRecDepth 1500

/-- The same but for the text that is written in comments only. -/
structure ClassVaries (a b : ClassInfo) : Prop where
  name : a.name = b.name
  metadata : List.Forall₂ (fun m n : ClassMetadata => m.kind = n.kind) a.metadata b.metadata
  fields : List.Forall₂ (fun f g : ClassField => f.name = g.name ∧ f.offset = g.offset)
    a.fields b.fields

structure ScopeVaries (a b : Scope) : Prop where
  classes : List.Forall₂ ClassVaries a.classes b.classes
  enums : a.enums = b.enums

def Varies (a b : SchemaMap) : Prop :=
  List.Forall₂ (fun e f : Text × Scope => e.1 = f.1 ∧ ScopeVaries e.2 f.2) a.entries b.entries

def schemasHeader (map : SchemaMap) (indent : Nat) (timestamp : Text) : Header where
  name := []
  timestamp := timestamp
  includes := stdint
  plain := stdint_code
  indent := indent
  decls := schemasDecls map

/-- What is written in the comments of the header stays there. -/
def Contained (map : SchemaMap) (indent : Nat) (timestamp : Text) : Prop :=
  (schemasHeader map indent timestamp).Contained

instance (map : SchemaMap) (indent : Nat) (timestamp : Text) :
    Decidable (Contained map indent timestamp) :=
  inferInstanceAs (Decidable (schemasHeader map indent timestamp).Contained)

section Code

theorem tokensAll_append (a b : List Decl) : tokensAll (a ++ b) = tokensAll a ++ tokensAll b := by
  induction a with
  | nil => rfl
  | cons decl a ih => rw [List.cons_append, tokensAll, tokensAll, ih, List.append_assoc]

theorem tokensAll_varies {α β : Type} {varies : α → β → Prop} {decl : α → Decl} {other : β → Decl}
    {l : List α} {m : List β} (all : List.Forall₂ varies l m)
    (each : ∀ a b, varies a b → (decl a).tokens = (other b).tokens) :
    tokensAll (l.map decl) = tokensAll (m.map other) := by
  induction all with
  | nil => rfl
  | cons head _ ih => rw [List.map_cons, List.map_cons, tokensAll, tokensAll, each _ _ head, ih]

theorem space_tokens {comments comments' : List Text} {name name' : Text}
    {identifier : Identifier name} {identifier' : Identifier name'} {body body' : List Decl}
    (named : name = name') (same : tokensAll body = tokensAll body') :
    (space comments name identifier body).tokens =
      (space comments' name' identifier' body').tokens := by
  subst named
  rw [space, space, Decl.tokens, Decl.tokens, same]

theorem class_tokens {a b : ClassInfo} (varies : ClassVaries a b) :
    (classDecl a).tokens = (classDecl b).tokens := by
  refine space_tokens (congrArg slugify varies.name) (tokensAll_varies varies.fields ?_)
  intro f g same
  rw [fieldDecl, fieldDecl, Decl.tokens, Decl.tokens]
  simp only [same.1, same.2]

theorem module_tokens {e f : Text × Scope} (named : e.1 = f.1) (varies : ScopeVaries e.2 f.2) :
    (schemaModuleDecl e).tokens = (schemaModuleDecl f).tokens := by
  refine space_tokens (congrArg namespaceName named) ?_
  rw [scopeDecls, scopeDecls, tokensAll_append, tokensAll_append, varies.enums,
    tokensAll_varies varies.classes fun _ _ => class_tokens]

theorem header_tokens {a b : SchemaMap} (varies : Varies a b) (indent : Nat) (timestamp : Text) :
    (schemasHeader a indent timestamp).tokens = (schemasHeader b indent timestamp).tokens := by
  have inner : tokensAll (a.entries.map schemaModuleDecl) =
      tokensAll (b.entries.map schemaModuleDecl) :=
    tokensAll_varies varies fun _ _ same => module_tokens same.1 same.2
  have one_ (d e : Decl) (same : d.tokens = e.tokens) : tokensAll [d] = tokensAll [e] := by
    simp only [tokensAll, same]
  have outer : tokensAll (schemasDecls a) = tokensAll (schemasDecls b) :=
    one_ _ _ (space_tokens rfl (one_ _ _ (space_tokens rfl inner)))
  rw [Header.tokens, Header.tokens]
  exact congrArg _ outer

end Code

section Inline

/-- Of a NetworkVarNames entry the bracket behind the type name ends the comment. -/
def MetadataInline (md : ClassMetadata) : Prop :=
  if md.kind = .networkVarNames then
    (10 ∉ md.name ∧ 13 ∉ md.name) ∧ 10 ∉ md.typeName ∧ 13 ∉ md.typeName
  else Inline md.name

structure ClassInline (cls : ClassInfo) : Prop where
  parent : ∀ parent, cls.parentName = some parent → Inline parent
  metadata : ∀ md ∈ cls.metadata, MetadataInline md
  fields : ∀ field ∈ cls.fields, Inline field.typeName

/-- No text that is written in a comment ends its line, or splices the next one to it. -/
structure TextsInline (map : SchemaMap) (timestamp : Text) : Prop where
  timestamp : Inline timestamp
  modules : ∀ entry ∈ map.entries, Inline entry.1
  classes : ∀ entry ∈ map.entries, ∀ cls ∈ entry.2.classes, ClassInline cls

theorem held_code {s : Text} (code : Code s) :
    s.foldl (fun held c => decide (c = 92) || held && isBlank c) false = false := by
  induction s with
  | nil => rfl
  | cons c s ih =>
    have other : c ≠ 92 := (code c List.mem_cons_self).1.2.2.2.2
    rw [List.foldl_cons, decide_eq_false other]
    exact ih fun d member => code d (List.mem_cons_of_mem c member)

theorem inline_behind {s x : Text} (code : Code s) (inside : Inline x) : Inline (s ++ x) where
  line := by
    intro member
    exact (List.mem_append.mp member).elim code.line inside.line
  returns := by
    intro member
    exact (List.mem_append.mp member).elim (fun among => (code 13 among).1.1 rfl) inside.returns
  unspliced := by
    rw [List.foldl_append, held_code code]
    exact inside.unspliced

theorem inline_code {s : Text} (code : Code s) : Inline s := by
  have whole := inline_behind code (x := []) (by decide)
  rwa [List.append_nil] at whole

def Remark (line : Text) : Prop := ∃ x, line = 47 :: 47 :: x ∧ Inline x

theorem remark_behind {s x : Text} (code : Code s) (inside : Inline x) :
    Remark (47 :: 47 :: s ++ x) := ⟨s ++ x, rfl, inline_behind code inside⟩

theorem remark_metadata {md : ClassMetadata} (inside : MetadataInline md) :
    Remark (metadataComment md) := by
  obtain ⟨kind, name, typeName⟩ := md
  cases kind with
  | networkChangeCallback =>
    exact remark_behind (s := text " NetworkChangeCallback: ") (by decide) inside
  | networkVarNames =>
    refine ⟨text " NetworkVarNames: " ++ name ++ text " (" ++ typeName ++ text ")", rfl, ?_, ?_, ?_⟩
    · obtain ⟨first, second⟩ := inside
      simp only [List.mem_append, not_or]
      exact ⟨⟨⟨⟨by decide, first.1⟩, by decide⟩, second.1⟩, by decide⟩
    · obtain ⟨first, second⟩ := inside
      simp only [List.mem_append, not_or]
      exact ⟨⟨⟨⟨by decide, first.2⟩, by decide⟩, second.2⟩, by decide⟩
    · rw [List.foldl_append]
      simp [text, isBlank]
  | unknown => exact remark_behind (s := text " ") (by decide) inside

/-- A declaration whose comments are quiet. -/
def Silent (d : Decl) : Prop := ∀ f, ∀ s ∈ comments (d.segments f), Quiet s

theorem silent_all {decls : List Decl} (silent : ∀ d ∈ decls, Silent d) (f : Formatter) :
    ∀ s ∈ comments (segmentsAll f decls), Quiet s := by
  induction decls with
  | nil => exact fun s member => (by cases member)
  | cons d rest ih =>
    intro s member
    rw [segmentsAll, comments_append, List.mem_append] at member
    rcases member with here | later
    · exact silent d List.mem_cons_self f s here
    · exact ih (fun e among => silent e (List.mem_cons_of_mem d among)) s later

theorem silent_line {heading : Heading} {comment : Text} {apart}
    (remark : comment = [] ∨ Remark comment) : Silent (.line heading comment apart) := by
  intro f s member
  rw [Decl.segments] at member
  split at member
  · cases member
  · rename_i some_
    obtain ⟨x, rfl, inside⟩ := remark.resolve_left some_
    rw [List.mem_singleton.mp member]
    exact quiet_behind f inside

theorem silent_block {lines : List Text} {heading : Heading} {semicolon : Bool} {body : List Decl}
    (remarks : ∀ line ∈ lines, Remark line) (silent : ∀ d ∈ body, Silent d) :
    Silent (.block lines heading semicolon body) := by
  intro f s member
  rw [Decl.segments, comments_append, List.mem_append] at member
  rcases member with before | inside
  · split at before
    · cases before
    · rename_i some_
      rw [List.mem_singleton.mp before]
      exact quiet_lines f some_ remarks
  · change s ∈ comments (segmentsAll _ body ++ [_]) at inside
    rw [comments_append, List.mem_append] at inside
    exact inside.elim (silent_all silent _ s) fun last => (by cases last)

theorem silent_class {cls : ClassInfo} (inside : ClassInline cls) : Silent (classDecl cls) := by
  refine silent_block (fun line member => ?_) fun d member => ?_
  · rcases List.mem_cons.mp member with rfl | later
    · refine remark_behind (s := text " Parent: ") (by decide) ?_
      cases named : cls.parentName with
      | none => exact inline_code (by decide)
      | some parent => exact inside.parent parent named
    · split at later
      · cases later
      · rcases List.mem_cons.mp later with rfl | among
        · exact ⟨text " Metadata:", rfl, by decide⟩
        · obtain ⟨md, listed, rfl⟩ := List.mem_map.mp among
          exact remark_metadata (inside.metadata md listed)
  · obtain ⟨field, listed, rfl⟩ := List.mem_map.mp member
    exact silent_line (.inr (remark_behind (s := text " ") (by decide) (inside.fields field listed)))

theorem silent_enum (en : EnumInfo) : Silent (enumDecl en) := by
  refine silent_block (fun line member => ?_) fun d member => ?_
  · rw [List.mem_singleton.mp member]
    exact ⟨_, rfl, inline_behind (by decide) (inline_code (toString_code _))⟩
  · obtain ⟨m, -, rfl⟩ := List.mem_map.mp member
    exact silent_line (.inl rfl)

theorem silent_module {entry : Text × Scope} (named : Inline entry.1)
    (classes : ∀ cls ∈ entry.2.classes, ClassInline cls) : Silent (schemaModuleDecl entry) := by
  refine silent_block (fun line member => ?_) fun d member => ?_
  · simp only [List.mem_cons, List.not_mem_nil, or_false] at member
    rcases member with rfl | rfl | rfl
    · exact remark_behind (s := text " Module: ") (by decide) named
    · exact remark_behind (s := text " Class count: ") (by decide) (inline_code (toString_code _))
    · exact remark_behind (s := text " Enum count: ") (by decide) (inline_code (toString_code _))
  · rcases List.mem_append.mp member with enum | class_
    · obtain ⟨en, -, rfl⟩ := List.mem_map.mp enum
      exact silent_enum en
    · obtain ⟨cls, listed, rfl⟩ := List.mem_map.mp class_
      exact silent_class (classes cls listed)

/-- Texts of one line each, which do not splice the next one, stay in their comments. -/
theorem contained_of_inline {map : SchemaMap} {timestamp : Text}
    (inside : TextsInline map timestamp) (indent : Nat) : Contained map indent timestamp := by
  have nested : ∀ d ∈ schemasDecls map, Silent d := by
    intro d member
    rw [List.mem_singleton.mp member]
    refine silent_block (fun line among => (by cases among)) fun d member => ?_
    rw [List.mem_singleton.mp member]
    refine silent_block (fun line among => (by cases among)) fun d member => ?_
    obtain ⟨entry, listed, rfl⟩ := List.mem_map.mp member
    exact silent_module (inside.modules entry listed) (inside.classes entry listed)
  intro s member
  rcases List.mem_cons.mp member with rfl | later
  · let f : Formatter := ⟨indent, 0⟩
    have lines : banner f timestamp =
        [text "// Generated by cs2-dumper-cpp-standalone", text "// " ++ timestamp].flatMap f.line ++
          [10] := by
      simp [banner, Formatter.line]
    have remarks : ∀ line ∈ [text "// Generated by cs2-dumper-cpp-standalone",
        text "// " ++ timestamp], Remark line := by
      intro line member
      rcases List.mem_cons.mp member with rfl | last
      · exact ⟨text " Generated by cs2-dumper-cpp-standalone", rfl, by decide⟩
      · rw [List.mem_singleton.mp last]
        exact remark_behind (s := text " ") (by decide) inside.timestamp
    change Quiet (banner f timestamp)
    rw [lines]
    exact (quiet_lines f (List.cons_ne_nil _ _) remarks).append (by decide)
  · exact silent_all nested _ s later

end Inline

def stamp : Text := text "2025-01-01 00:00:00 UTC"

def sample (parent typeName : Text) : SchemaMap :=
  one (text "client.dll", ⟨[⟨text "C_Test", some parent, [⟨.unknown, text "MTag", []⟩],
    [⟨text "m_a", typeName, 8⟩, ⟨text "m_b", text "int32", 12⟩]⟩], []⟩)

theorem sample_varies (p q t u : Text) : Varies (sample p t) (sample q u) := by
  refine .cons ⟨rfl, .cons ⟨rfl, .cons rfl .nil, ?_⟩ .nil, rfl⟩ .nil
  exact .cons ⟨rfl, rfl⟩ (.cons ⟨rfl, rfl⟩ .nil)

theorem sample_contained {parent typeName : Text} (first : Inline parent)
    (second : Inline typeName) : Contained (sample parent typeName) 4 stamp := by
  refine contained_of_inline ⟨by decide, ?_, ?_⟩ 4
  · intro entry member
    rw [List.mem_singleton.mp member]
    change Inline (text "client.dll")
    decide
  · intro entry member cls listed
    rw [List.mem_singleton.mp member] at listed
    rw [List.mem_singleton.mp listed]
    refine ⟨?_, ?_, ?_⟩
    · rintro _ ⟨⟩
      exact first
    · intro md among
      rw [List.mem_singleton.mp among]
      change Inline (text "MTag")
      decide
    · intro field among
      rcases List.mem_cons.mp among with rfl | last
      · exact second
      · rw [List.mem_singleton.mp last]
        change Inline (text "int32")
        decide

/-- While the text that was read stays in its comments, the tokens do not depend on it; and where
    all comments of a header come to their end, they are those of one whose text does so only if
    its own does. -/
theorem header_tokens_same {a b : SchemaMap} {indent : Nat} {timestamp : Text}
    (varies : Varies a b) (right : Contained b indent timestamp) :
    (Contained a indent timestamp →
      tokens (schemasHpp a indent timestamp) = tokens (schemasHpp b indent timestamp)) ∧
    ((∀ s ∈ comments (schemasHeader a indent timestamp).segments, Closed s) →
      tokens (schemasHpp a indent timestamp) = tokens (schemasHpp b indent timestamp) →
      Contained a indent timestamp) := by
  have data (map : SchemaMap) : schemasHpp map indent timestamp =
      (schemasHeader map indent timestamp).data := schemasHpp_eq map indent timestamp
  have clean := Header.tokens_contained right
  rw [← header_tokens varies] at clean
  rw [data, data, clean]
  exact ⟨fun left => Header.tokens_contained left, fun closed same =>
    Header.contained_of_tokens closed same⟩

theorem header_tokens_same_sample :
    tokens (schemasHpp (sample (text "C_Base") (text "int32")) 4 stamp) =
      tokens (schemasHpp (sample (text "C_Other") (text "float32")) 4 stamp) :=
  (header_tokens_same (sample_varies _ _ _ _) (sample_contained (by decide) (by decide))).1
    (sample_contained (by decide) (by decide))

/-- A type name that ends in a backslash takes the next constant into its comment, and a parent
   name with a newline or a carriage return declares one. -/
theorem header_tokens_differ :
    (Varies (sample (text "C_Base") (text "int32")) (sample (text "C_Base") (text "int32\\")) ∧
      tokens (schemasHpp (sample (text "C_Base") (text "int32")) 4 stamp) ≠
        tokens (schemasHpp (sample (text "C_Base") (text "int32\\")) 4 stamp)) ∧
    ∀ parent ∈ [text "C_Base\nint x;", text "C_Base\rint x;"],
      Varies (sample (text "C_Base") (text "int32")) (sample parent (text "int32")) ∧
        tokens (schemasHpp (sample (text "C_Base") (text "int32")) 4 stamp) ≠
          tokens (schemasHpp (sample parent (text "int32")) 4 stamp) := by
  refine ⟨⟨sample_varies _ _ _ _, ?_⟩, fun parent member => ⟨sample_varies _ _ _ _, ?_⟩⟩
  · decide +kernel
  · revert parent
    decide +kernel

/-- A comment that takes in the code behind it may keep the tokens by chance: the next constant
    goes into the comment and is declared by it. -/
theorem uncontained_matches : ∃ a b : SchemaMap, Varies a b ∧ Contained b 4 stamp ∧
    ¬ Contained a 4 stamp ∧ tokens (schemasHpp a 4 stamp) = tokens (schemasHpp b 4 stamp) := by
  refine ⟨sample (text "C_Base")
      (text "int32\ninline constexpr std::ptrdiff_t m_b = 0xC; // \\"),
    sample (text "C_Base") (text "int32"), sample_varies _ _ _ _,
    sample_contained (by decide) (by decide), ?_, ?_⟩
  · decide +kernel
  · decide +kernel

end HeaderComments
