import GameSecurity.HeaderWords

/- The headers of a dump as trees of declarations. A header is the text of its tree, and its code
   is that of the tree as long as what is written in comments stays there. -/
namespace HeaderTree
open AsciiText SortedMap DumperOutput CppTokens HeaderWords

/-- What declares a name, with space around it. -/
structure Heading where
  before : Text
  name : Text
  after : Text
  lead : Code before ∧ (before = [] ∨ before.getLast? = some 32)
  identifier : Identifier name
  tail : Code after ∧ (after = [] ∨ after.head? = some 32)

/-- A name that is given a value. -/
def Heading.assign (before name value ending : Text)
    (lead : Code before ∧ (before = [] ∨ before.getLast? = some 32))
    (identifier : Identifier name) (code : Code value) (ends : Code ending) : Heading where
  before := before
  name := name
  after := text " = " ++ value ++ ending
  lead := lead
  identifier := identifier
  tail := ⟨((show Code (text " = ") by decide).append code).append ends, .inr rfl⟩

def Heading.words (h : Heading) : Text := h.before ++ h.name ++ h.after

def Heading.tokens (h : Heading) : List Text := lex h.before ++ h.name :: lex h.after

/-- A line that declares a name, with a comment or none, or a block that does, behind its
    comments. -/
inductive Decl where
  | line (heading : Heading) (comment : Text)
      (apart : comment = [] ∨ heading.after.getLast? = some 32)
  | block (comments : List Text) (heading : Heading) (semicolon : Bool) (body : List Decl)

def Decl.name : Decl → Text
  | .line heading _ _ => heading.name
  | .block _ heading _ _ => heading.name

def closing (semicolon : Bool) : Text := if semicolon then text "\x7d;" else text "\x7d"

mutual

def Decl.render (f : Formatter) : Decl → Text
  | .line heading comment _ => f.line (heading.words ++ comment)
  | .block comments heading semicolon body =>
    comments.flatMap f.line ++
      f.block heading.words semicolon fun f => renderAll f body

def renderAll (f : Formatter) : List Decl → Text
  | [] => []
  | decl :: rest => decl.render f ++ renderAll f rest

end

mutual

def Decl.tokens : Decl → List Text
  | .line heading _ _ => heading.tokens
  | .block _ heading semicolon body =>
    heading.tokens ++ text "\x7b" :: (tokensAll body ++ lex (closing semicolon))

def tokensAll : List Decl → List Text
  | [] => []
  | decl :: rest => decl.tokens ++ tokensAll rest

end

mutual

/-- The names of each scope inside a declaration. -/
def Decl.scopes : Decl → List (List Text)
  | .line _ _ _ => []
  | .block _ _ _ body => body.map Decl.name :: innerScopes body

def innerScopes : List Decl → List (List Text)
  | [] => []
  | decl :: rest => decl.scopes ++ innerScopes rest

end

/-- The names of each scope, the outermost included. -/
def scopes (decls : List Decl) : List (List Text) := decls.map Decl.name :: innerScopes decls

inductive Segment where
  | code (s : Text)
  | comment (s : Text)

def Segment.text : Segment → Text
  | .code s => s
  | .comment s => s

/-- A comment behind code, and the lines that it is cut into. -/
def behind (f : Formatter) (comment : Text) : Text :=
  match pieces comment with
  | [] => [10]
  | piece :: rest => piece ++ 10 :: rest.flatMap f.part

mutual

def Decl.segments (f : Formatter) : Decl → List Segment
  | .line heading comment _ =>
    if comment = [] then [.code (f.line heading.words)]
    else
      [.code (List.replicate (f.level * f.indentSize) 32 ++ heading.words),
        .comment (behind f comment)]
  | .block comments heading semicolon body =>
    (if comments = [] then [] else [.comment (comments.flatMap f.line)]) ++
      .code (f.line (heading.words ++ AsciiText.text " \x7b")) ::
        (segmentsAll { f with level := f.level + 1 } body ++ [.code (f.line (closing semicolon))])

def segmentsAll (f : Formatter) : List Decl → List Segment
  | [] => []
  | decl :: rest => decl.segments f ++ segmentsAll f rest

end

structure Header where
  name : Text
  timestamp : Text
  includes : List Text
  plain : ∀ line ∈ includes, Code line
  indent : Nat
  decls : List Decl

/-- What stands between the banner and the declarations. -/
def preface (f : Formatter) (includes : List Text) : Text :=
  f.line (text "#pragma once") ++ f.line [] ++ includes.flatMap f.line ++ f.line []

def Header.data (h : Header) : Text :=
  let f : Formatter := ⟨h.indent, 0⟩
  banner f h.timestamp ++ preface f h.includes ++ renderAll f h.decls

def Header.file (h : Header) : File := ⟨h.name, h.data⟩

def Header.segments (h : Header) : List Segment :=
  let f : Formatter := ⟨h.indent, 0⟩
  .comment (banner f h.timestamp) :: .code (preface f h.includes) :: segmentsAll f h.decls

def Header.tokens (h : Header) : List Text :=
  CppTokens.tokens (preface ⟨h.indent, 0⟩ h.includes) ++ tokensAll h.decls

def comments (segments : List Segment) : List Text :=
  segments.filterMap fun
    | .code _ => none
    | .comment s => some s

def codes (segments : List Segment) : List Text :=
  segments.filterMap fun
    | .code s => some s
    | .comment _ => none

/-- What is written in comments stays in comments. -/
def Header.Contained (h : Header) : Prop := ∀ s ∈ comments h.segments, Quiet s

instance (h : Header) : Decidable h.Contained :=
  inferInstanceAs (Decidable (∀ s ∈ comments h.segments, Quiet s))

section Lines

variable (f : Formatter)

theorem pieces_append {a : Text} (line : 10 ∉ a) (s : Text) :
    ∃ piece rest, pieces s = piece :: rest ∧ pieces (a ++ s) = (a ++ piece) :: rest := by
  induction a with
  | nil =>
    have some_ : pieces s ≠ [] := by
      cases s with
      | nil => exact List.cons_ne_nil _ _
      | cons c s =>
        rw [pieces]
        repeat' split
        all_goals exact List.cons_ne_nil _ _
    obtain ⟨piece, rest, same⟩ := List.exists_cons_of_ne_nil some_
    exact ⟨piece, rest, same, same⟩
  | cons c a ih =>
    have visible : c ≠ 10 := by
      rintro rfl
      exact line List.mem_cons_self
    obtain ⟨piece, rest, same, whole⟩ := ih fun member => line (List.mem_cons_of_mem c member)
    refine ⟨piece, rest, same, ?_⟩
    rw [List.cons_append, pieces, if_neg visible, whole]
    rfl

theorem line_behind {s : Text} (line : 10 ∉ s) (some_ : s ≠ []) (comment : Text) :
    f.line (s ++ comment) =
      List.replicate (f.level * f.indentSize) 32 ++ s ++ behind f comment := by
  obtain ⟨piece, rest, same, whole⟩ := pieces_append line comment
  rw [Formatter.line, if_neg (by simp [some_]), whole, List.flatMap_cons, Formatter.part,
    if_neg (by simp [some_]), behind, same]
  simp

theorem line_eq {s : Text} (line : 10 ∉ s) (some_ : s ≠ []) :
    f.line s = List.replicate (f.level * f.indentSize) 32 ++ s ++ [10] := by
  have whole := line_behind f line some_ []
  rwa [List.append_nil] at whole

theorem indented_plain {s : Text} (plain : ∀ c ∈ s, Plain c) (n : Nat) :
    ∀ c ∈ List.replicate n 32 ++ s, Plain c := by
  intro c member
  rcases List.mem_append.mp member with space | among
  · rw [List.eq_of_mem_replicate space]
    decide
  · exact plain c among

theorem lex_indented (n : Nat) (s : Text) : lex (List.replicate n 32 ++ s) = lex s := by
  induction n with
  | zero => rfl
  | succ n ih => rw [List.replicate_succ, List.cons_append, lex_space (by decide), ih]

/-- A line of code is read by itself. -/
theorem closed_line {s : Text} (code : Code s) (some_ : s ≠ []) :
    Closed (f.line s) ∧ tokens (f.line s) = lex s := by
  rw [line_eq f code.line some_]
  have read := closed_plain (indented_plain code.plain (f.level * f.indentSize))
    (show isspace 10 = true by decide) (by decide)
  rwa [lex_indented] at read

variable (h : Heading)

theorem Heading.code : Code h.words :=
  (h.lead.1.append (word_code h.identifier.2)).append h.tail.1

theorem Heading.words_ne_nil : h.words ≠ [] := by
  obtain ⟨c, s, same, -⟩ := h.identifier.1
  rw [Heading.words, same]
  simp

theorem Heading.lex_words : lex h.words = h.tokens := by
  obtain ⟨⟨c, s, same, letter⟩, word⟩ := h.identifier
  have name : lex h.name = [h.name] := by
    rw [same]
    refine lex_name letter fun d member => ?_
    rcases word d (same ▸ member) with alnum | mark
    · simp [isWord, alnum]
    · simp [isWord, mark]
  have named : lex (h.name ++ h.after) = h.name :: lex h.after := by
    rcases h.tail.2 with none_ | space
    · rw [none_, List.append_nil, name]
      rfl
    · obtain ⟨after, spaced⟩ : ∃ after, h.after = 32 :: after := by
        cases shape : h.after with
        | nil =>
          rw [shape] at space
          cases space
        | cons d after =>
          rw [shape] at space
          exact ⟨after, by rw [Option.some.inj space]⟩
      rw [spaced, lex_plain (word_code h.identifier.2).plain (by decide), name,
        lex_space (by decide)]
      rfl
  rw [Heading.words, Heading.tokens, List.append_assoc, ← named]
  rcases h.lead.2 with none_ | space
  · rw [none_]
    rfl
  · obtain ⟨before, spaced⟩ := List.getLast?_eq_some_iff.mp space
    have plain : ∀ d ∈ before, Plain d := fun d member =>
      h.lead.1.plain d (by rw [spaced]; exact List.mem_append_left _ member)
    rw [spaced, List.append_assoc, List.singleton_append, lex_plain plain (by decide),
      lex_plain plain (by decide)]
    simp [lex, lexFrom]

end Lines

section Segments

theorem flatMap_ends {α : Type} {g : α → Text} (each : ∀ a, (g a).getLast? = some 10)
    {l : List α} (some_ : l ≠ []) : (l.flatMap g).getLast? = some 10 := by
  obtain ⟨front, last, rfl⟩ := List.eq_nil_or_concat l |>.resolve_left some_
  rw [List.concat_eq_append, List.flatMap_append, List.getLast?_append, List.flatMap_singleton, each]
  rfl

theorem part_ends (f : Formatter) (part : Text) : (f.part part).getLast? = some 10 :=
  List.getLast?_concat

theorem line_ends (f : Formatter) (s : Text) : (f.line s).getLast? = some 10 := by
  obtain ⟨piece, rest, same, -⟩ := pieces_append (a := []) List.not_mem_nil s
  rw [Formatter.line]
  split
  · rfl
  · exact flatMap_ends (part_ends f) (by rw [same]; exact List.cons_ne_nil _ _)

theorem behind_ends (f : Formatter) (comment : Text) : (behind f comment).getLast? = some 10 := by
  obtain ⟨piece, rest, same, -⟩ := pieces_append (a := []) List.not_mem_nil comment
  rw [behind, same]
  cases rest with
  | nil => exact List.getLast?_concat
  | cons part rest =>
    have last := flatMap_ends (part_ends f) (List.cons_ne_nil part rest)
    dsimp only
    rw [List.getLast?_append, List.getLast?_cons, last]
    rfl

theorem comments_append (a b : List Segment) : comments (a ++ b) = comments a ++ comments b :=
  List.filterMap_append

theorem codes_append (a b : List Segment) : codes (a ++ b) = codes a ++ codes b :=
  List.filterMap_append

/-- Segments of a text, with code that is read by itself. -/
structure Cut (segments : List Segment) (s : Text) (code : List Text) : Prop where
  whole : (segments.map Segment.text).flatten = s
  closed : ∀ s ∈ codes segments, Closed s
  read : (codes segments).flatMap tokens = code
  ends : ∀ s ∈ comments segments, s.getLast? = some 10

theorem Cut.append {a b : List Segment} {s t : Text} {code more : List Text}
    (first : Cut a s code) (second : Cut b t more) : Cut (a ++ b) (s ++ t) (code ++ more) where
  whole := by rw [List.map_append, List.flatten_append, first.whole, second.whole]
  closed := by
    intro s member
    rw [codes_append, List.mem_append] at member
    exact member.elim (first.closed s) (second.closed s)
  read := by rw [codes_append, List.flatMap_append, first.read, second.read]
  ends := by
    intro s member
    rw [comments_append, List.mem_append] at member
    exact member.elim (first.ends s) (second.ends s)

theorem cut_code {s : Text} (closed : Closed s) : Cut [.code s] s (tokens s) where
  whole := List.append_nil s
  closed := fun t member => List.mem_singleton.mp member ▸ closed
  read := List.append_nil _
  ends := fun t member => (by cases member)

theorem cut_comment {s : Text} (ends : s.getLast? = some 10) : Cut [.comment s] s [] where
  whole := List.append_nil s
  closed := fun t member => (by cases member)
  read := rfl
  ends := fun t member => List.mem_singleton.mp member ▸ ends

theorem cut_line (f : Formatter) {s : Text} (code : Code s) (some_ : s ≠ []) :
    Cut [.code (f.line s)] (f.line s) (lex s) := by
  obtain ⟨closed, read⟩ := closed_line f code some_
  rw [← read]
  exact cut_code closed

theorem cut_comments (f : Formatter) (lines : List Text) :
    Cut (if lines = [] then [] else [.comment (lines.flatMap f.line)]) (lines.flatMap f.line)
      [] := by
  split
  · rename_i none_
    rw [none_]
    exact ⟨rfl, fun s member => (by cases member), rfl, fun s member => (by cases member)⟩
  · rename_i some_
    exact cut_comment (flatMap_ends (line_ends f) some_)

theorem cut_behind (f : Formatter) (h : Heading) (space : h.after.getLast? = some 32)
    (comment : Text) :
    Cut [.code (List.replicate (f.level * f.indentSize) 32 ++ h.words), .comment (behind f comment)]
      (f.line (h.words ++ comment)) h.tokens := by
  obtain ⟨front, spaced⟩ : ∃ front, h.words = front ++ [32] := by
    obtain ⟨after, ends⟩ := List.getLast?_eq_some_iff.mp space
    exact ⟨h.before ++ h.name ++ after, by simp [Heading.words, ends]⟩
  have plain : ∀ c ∈ front, Plain c := fun c member =>
    h.code.plain c (by rw [spaced]; exact List.mem_append_left _ member)
  obtain ⟨closed, read⟩ := closed_plain (indented_plain plain (f.level * f.indentSize))
    (show isspace 32 = true by decide) (by decide)
  have words : lex h.words = lex front := by
    rw [spaced, lex_plain plain (by decide)]
    exact List.append_nil _
  rw [List.append_assoc, ← spaced] at closed read
  rw [lex_indented, ← words, h.lex_words] at read
  rw [line_behind f h.code.line h.words_ne_nil, ← read]
  have pieces := (cut_code closed).append (cut_comment (behind_ends f comment))
  rwa [List.append_nil] at pieces

theorem cut_opening (f : Formatter) (h : Heading) :
    Cut [.code (f.line (h.words ++ text " \x7b"))] (f.line (h.words ++ text " \x7b"))
      (h.tokens ++ [text "\x7b"]) := by
  have code : Code (h.words ++ text " \x7b") := h.code.append (by decide)
  have read : lex (h.words ++ text " \x7b") = h.tokens ++ [text "\x7b"] := by
    have split_ := lex_plain h.code.plain (show isspace 32 = true by decide) (text "\x7b")
    rw [h.lex_words] at split_
    exact split_
  have opened := cut_line f code (by simp [h.words_ne_nil])
  rwa [read] at opened

theorem cut_closing (f : Formatter) (semicolon : Bool) :
    Cut [.code (f.line (closing semicolon))] (f.line (closing semicolon))
      (lex (closing semicolon)) := by
  have code : Code (closing semicolon) ∧ closing semicolon ≠ [] := by
    cases semicolon <;> decide
  exact cut_line f code.1 code.2

mutual

theorem Decl.cut (f : Formatter) : ∀ d : Decl, Cut (d.segments f) (d.render f) d.tokens
  | .line heading comment apart => by
    rw [Decl.segments, Decl.render, Decl.tokens]
    split
    · rename_i none_
      rw [none_, List.append_nil, ← heading.lex_words]
      exact cut_line f heading.code heading.words_ne_nil
    · rename_i some_
      exact cut_behind f heading (apart.resolve_left some_) comment
  | .block comments heading semicolon body => by
    have inner := cutAll { f with level := f.level + 1 } body
    have whole := (cut_comments f comments).append
      ((cut_opening f heading).append (inner.append (cut_closing f semicolon)))
    rw [Decl.segments, Decl.render, Decl.tokens, Formatter.block]
    simpa [closing] using whole

theorem cutAll (f : Formatter) :
    ∀ ds : List Decl, Cut (segmentsAll f ds) (renderAll f ds) (tokensAll ds)
  | [] => ⟨rfl, fun s member => (by cases member), rfl, fun s member => (by cases member)⟩
  | d :: rest => (d.cut f).append (cutAll f rest)

end

theorem preface_closed (f : Formatter) {includes : List Text}
    (plain : ∀ line ∈ includes, Code line) : Closed (preface f includes) := by
  have lines : ∀ s : Text, Code s → ∀ c ∈ f.line s, Plain c := by
    intro s code c member
    by_cases none_ : s = []
    · subst none_
      rw [List.mem_singleton.mp member]
      decide
    · rw [line_eq f code.line none_] at member
      rcases List.mem_append.mp member with among | last
      · exact indented_plain code.plain _ c among
      · rw [List.mem_singleton.mp last]
        decide
  have all : ∀ c ∈ preface f includes, Plain c := by
    intro c member
    simp only [preface, List.mem_append, List.mem_flatMap] at member
    rcases member with ((once | gap) | ⟨line, listed, among⟩) | gap
    · exact lines _ (by decide) c once
    · exact lines [] (by decide) c gap
    · exact lines line (plain line listed) c among
    · exact lines [] (by decide) c gap
  obtain ⟨front, whole⟩ : ∃ front, preface f includes = front ++ [10] := ⟨_, rfl⟩
  rw [whole] at all ⊢
  have front_plain : ∀ c ∈ front, Plain c := fun c member => all c (List.mem_append_left _ member)
  exact (closed_plain front_plain (by decide) (by decide)).1

theorem Header.cut (h : Header) : Cut h.segments h.data h.tokens := by
  have banner_ : Cut [.comment (banner ⟨h.indent, 0⟩ h.timestamp)]
      (banner ⟨h.indent, 0⟩ h.timestamp) [] := by
    refine cut_comment ?_
    rw [banner, List.getLast?_append, line_ends]
    rfl
  have whole := banner_.append ((cut_code (preface_closed ⟨h.indent, 0⟩ h.plain)).append
    (cutAll ⟨h.indent, 0⟩ h.decls))
  simpa [Header.segments, Header.data, Header.tokens] using whole

theorem flatMap_codes (segments : List Segment) (tokensOf : Text → List Text)
    (silent : ∀ s ∈ comments segments, tokensOf s = []) :
    segments.flatMap (fun segment => tokensOf segment.text) =
      (codes segments).flatMap tokensOf := by
  induction segments with
  | nil => rfl
  | cons segment rest ih =>
    cases segment with
    | code s =>
      have later := ih silent
      rw [List.flatMap_cons, later]
      rfl
    | comment s =>
      have later := ih fun t member => silent t (List.mem_cons_of_mem s member)
      rw [List.flatMap_cons, later, show tokensOf (Segment.comment s).text = [] from
        silent s List.mem_cons_self]
      rfl

theorem flatMap_length (segments : List Segment) (tokensOf : Text → List Text) :
    (segments.flatMap fun segment => tokensOf segment.text).length =
      ((codes segments).flatMap tokensOf).length +
        ((comments segments).flatMap tokensOf).length := by
  induction segments with
  | nil => rfl
  | cons segment rest ih =>
    cases segment with
    | code s =>
      have shape : (codes (Segment.code s :: rest)).flatMap tokensOf =
        tokensOf s ++ (codes rest).flatMap tokensOf := rfl
      have same : comments (Segment.code s :: rest) = comments rest := rfl
      rw [List.flatMap_cons, List.length_append, ih, shape, same, List.length_append]
      exact (Nat.add_assoc _ _ _).symm
    | comment s =>
      have shape : (comments (Segment.comment s :: rest)).flatMap tokensOf =
        tokensOf s ++ (comments rest).flatMap tokensOf := rfl
      have same : codes (Segment.comment s :: rest) = codes rest := rfl
      rw [List.flatMap_cons, List.length_append, ih, shape, same, List.length_append]
      exact Nat.add_left_comm _ _ _

theorem Cut.tokens {segments : List Segment} {s : Text} {code : List Text}
    (cut : Cut segments s code) (closed : ∀ s ∈ comments segments, Closed s) :
    tokens s = segments.flatMap fun segment => tokens segment.text := by
  have all : ∀ piece ∈ segments.map Segment.text, Closed piece := by
    intro piece member
    obtain ⟨segment, listed, rfl⟩ := List.mem_map.mp member
    cases segment with
    | code s => exact cut.closed s (List.mem_filterMap.mpr ⟨_, listed, rfl⟩)
    | comment s => exact closed s (List.mem_filterMap.mpr ⟨_, listed, rfl⟩)
  rw [← cut.whole, tokens_pieces all, List.flatMap_map]

/-- The code of a header whose comments are contained is that of its tree. -/
theorem Header.tokens_contained {h : Header} (contained : h.Contained) :
    CppTokens.tokens h.data = h.tokens := by
  have cut := h.cut
  rw [cut.tokens fun s member => (contained s member).closed,
    flatMap_codes _ _ fun s member => (contained s member).tokens, cut.read]

/-- Where every comment comes to an end, it is so only of contained ones. -/
theorem Header.contained_of_tokens {h : Header} (closed : ∀ s ∈ comments h.segments, Closed s)
    (same : CppTokens.tokens h.data = h.tokens) : h.Contained := by
  have cut := h.cut
  have lengths := congrArg List.length ((cut.tokens closed).symm.trans same)
  rw [flatMap_length, cut.read] at lengths
  have none_ : (comments h.segments).flatMap CppTokens.tokens = [] :=
    List.length_eq_zero_iff.mp (by omega)
  intro s member
  have silent := List.flatMap_eq_nil_iff.mp none_ s member
  refine (quiet_iff (cut.ends s member)).mpr fun v => ?_
  rw [closed s member, silent]
  rfl

end Segments

section Inline

variable (f : Formatter)

theorem slashes_line {x : Text} (inside : Inline x) : 10 ∉ (47 :: 47 :: x : Text) := by
  simp [inside.line]

theorem quiet_lines {lines : List Text} (some_ : lines ≠ [])
    (inside : ∀ line ∈ lines, ∃ x, line = 47 :: 47 :: x ∧ Inline x) :
    Quiet (lines.flatMap f.line) := by
  have single {line : Text} (member : line ∈ lines) : Quiet (f.line line) := by
    obtain ⟨x, rfl, inside⟩ := inside line member
    rw [line_eq f (slashes_line inside) (List.cons_ne_nil _ _), List.append_assoc]
    exact quiet_line inside _
  induction lines with
  | nil => exact absurd rfl some_
  | cons line rest ih =>
    rw [List.flatMap_cons]
    by_cases last : rest = []
    · subst last
      rw [List.flatMap_nil, List.append_nil]
      exact single List.mem_cons_self
    · exact (single List.mem_cons_self).append (ih last
        (fun other member => inside other (List.mem_cons_of_mem line member))
        fun member => single (List.mem_cons_of_mem line member))

theorem quiet_behind {x : Text} (inside : Inline x) : Quiet (behind f (47 :: 47 :: x)) := by
  have alone : pieces (47 :: 47 :: x) = [47 :: 47 :: x] := by
    obtain ⟨piece, rest, same, whole⟩ := pieces_append (slashes_line inside) []
    cases same
    rwa [List.append_nil] at whole
  rw [behind, alone]
  exact quiet_line inside 0

end Inline

end HeaderTree
