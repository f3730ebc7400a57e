import Mathlib.Data.List.Infix
import Mathlib.Data.List.Basic

/- Paths by their text alone: segments between slashes, where `.` stands for nothing and `..`
   takes the segment before it away. What is linked to what plays no part. -/
namespace LexicalPath

variable {C : Type} [DecidableEq C] (slash dot : C)

def isRooted (p : List C) : Bool := decide (p.head? = some slash)

/-- The kept segments, the last one first, after one more segment. -/
def push (rooted : Bool) (kept : List (List C)) (segment : List C) : List (List C) :=
  if segment = [] ∨ segment = [dot] then kept
  else if segment = [dot, dot] then
    match kept with
    | [] => if rooted then [] else [segment]
    | last :: before => if last = [dot, dot] then segment :: kept else before
  else segment :: kept

def segments (p : List C) : List (List C) :=
  ((p.splitOn slash).foldl (push dot (isRooted slash p)) []).reverse

def render (rooted : Bool) (parts : List (List C)) : List C :=
  if rooted then slash :: [slash].intercalate parts
  else if parts = [] then [dot]
  else [slash].intercalate parts

/-- The shortest path of the same meaning. -/
def clean (p : List C) : List C := render slash dot (isRooted slash p) (segments slash dot p)

def join (a b : List C) : List C :=
  if a = [] then (if b = [] then [] else clean slash dot b)
  else clean slash dot (a ++ slash :: b)

def base (p : List C) : List C :=
  if p = [] then [dot]
  else
    match (p.splitOn slash).filter (· ≠ []) with
    | [] => [slash]
    | first :: rest => (first :: rest).getLast (List.cons_ne_nil _ _)

/-- The last segment from its last dot on. -/
def ext (p : List C) : List C :=
  let last := ((p.splitOn slash).getLast?).getD []
  match last.reverse.takeWhile (· ≠ dot), last.reverse.dropWhile (· ≠ dot) with
  | suffix, _ :: _ => dot :: suffix.reverse
  | _, [] => []

/-- A segment that stands for itself. -/
structure Proper (segment : List C) : Prop where
  some_ : segment ≠ []
  noDot : segment ≠ [dot]
  noDots : segment ≠ [dot, dot]
  noSlash : slash ∉ segment

variable {slash dot}

theorem push_proper {rooted : Bool} {kept : List (List C)} {segment : List C}
    (proper : Proper slash dot segment) : push dot rooted kept segment = segment :: kept := by
  rw [push.eq_def, if_neg, if_neg proper.noDots]
  intro either
  rcases either with empty | single
  · exact proper.some_ empty
  · exact proper.noDot single

theorem push_empty (rooted : Bool) (kept : List (List C)) : push dot rooted kept [] = kept :=
  if_pos (Or.inl rfl)

theorem foldl_push_proper {rooted : Bool} {parts : List (List C)}
    (proper : ∀ s ∈ parts, Proper slash dot s) (kept : List (List C)) :
    parts.foldl (push dot rooted) kept = parts.reverse ++ kept := by
  induction parts generalizing kept with
  | nil => rfl
  | cons s parts ih =>
    have first := proper s List.mem_cons_self
    have later := ih fun t member => proper t (List.mem_cons_of_mem s member)
    rw [List.foldl_cons, push_proper first, later, List.reverse_cons, List.append_assoc]
    rfl

theorem foldl_push_plain {rooted : Bool} {parts : List (List C)}
    (plain : ∀ s ∈ parts, s.head? ≠ some dot) (kept : List (List C)) :
    parts.foldl (push dot rooted) kept = (parts.filter (· ≠ [])).reverse ++ kept := by
  induction parts generalizing kept with
  | nil => rfl
  | cons s parts ih =>
    have first := plain s List.mem_cons_self
    have later := ih fun t member => plain t (List.mem_cons_of_mem s member)
    cases s with
    | nil => rw [List.foldl_cons, push_empty, later, List.filter_cons_of_neg (by simp)]
    | cons c s =>
      have apart : c ≠ dot := fun same => first (by rw [same]; rfl)
      have pushed : push dot rooted kept (c :: s) = (c :: s) :: kept := by
        rw [push.eq_def, if_neg, if_neg]
        · intro same
          exact apart (List.cons.inj same).1
        · intro either
          rcases either with empty | single
          · cases empty
          · exact apart (List.cons.inj single).1
      rw [List.foldl_cons, pushed, later, List.filter_cons_of_pos (by simp), List.reverse_cons,
        List.append_assoc]
      rfl

theorem not_mem_of_mem_splitOn {p s : List C} (member : s ∈ p.splitOn slash) : slash ∉ s := by
  induction p generalizing s with
  | nil =>
    rw [List.splitOn_nil, List.mem_singleton] at member
    subst member
    exact List.not_mem_nil
  | cons c p ih =>
    rw [List.splitOn_cons_eq_if_modifyHead] at member
    split at member
    · rcases List.mem_cons.mp member with rfl | later
      · exact List.not_mem_nil
      · exact ih later
    · next other =>
      cases parts : p.splitOn slash with
      | nil => exact absurd parts (List.splitOn_ne_nil slash p)
      | cons first rest =>
        rw [parts, List.modifyHead_cons] at member
        rcases List.mem_cons.mp member with rfl | later
        · intro inside
          rcases List.mem_cons.mp inside with same | inside
          · exact other (by simp [same])
          · exact ih (by rw [parts]; exact List.mem_cons_self) inside
        · exact ih (by rw [parts]; exact List.mem_cons_of_mem first later)

theorem push_keeps_proper {kept : List (List C)} (proper : ∀ s ∈ kept, Proper slash dot s)
    {segment : List C} (free : slash ∉ segment) :
    ∀ s ∈ push dot true kept segment, Proper slash dot s := by
  unfold push
  split
  · exact proper
  · next solid =>
    split
    · cases kept with
      | nil => simp
      | cons last before =>
        have apart := (proper last List.mem_cons_self).noDots
        simp only [if_neg apart]
        exact fun s member => proper s (List.mem_cons_of_mem last member)
    · next noDots =>
      intro s member
      rcases List.mem_cons.mp member with rfl | old
      · exact ⟨fun same => solid (Or.inl same), fun same => solid (Or.inr same), noDots, free⟩
      · exact proper s old

theorem foldl_push_keeps_proper {kept parts : List (List C)}
    (proper : ∀ s ∈ kept, Proper slash dot s) (free : ∀ s ∈ parts, slash ∉ s) :
    ∀ s ∈ parts.foldl (push dot true) kept, Proper slash dot s := by
  induction parts generalizing kept with
  | nil => exact proper
  | cons t parts ih =>
    have next := push_keeps_proper proper (free t List.mem_cons_self)
    exact ih next fun s member => free s (List.mem_cons_of_mem t member)

theorem segments_proper {p : List C} (rooted : isRooted slash p = true) :
    ∀ s ∈ segments slash dot p, Proper slash dot s := by
  intro s member
  rw [segments, rooted, List.mem_reverse] at member
  exact foldl_push_keeps_proper (fun s none_ => by cases none_)
    (fun s member => not_mem_of_mem_splitOn member) s member

theorem splitOn_rooted (p : List C) : (slash :: p).splitOn slash = [] :: p.splitOn slash := by
  rw [List.splitOn_cons_eq_if_modifyHead, if_pos (by simp)]

theorem isRooted_render (parts : List (List C)) : isRooted slash (render slash dot true parts) = true := by
  simp [isRooted, render]

theorem splitOn_render {parts : List (List C)} (proper : ∀ s ∈ parts, Proper slash dot s) :
    (render slash dot true parts).splitOn slash = [] :: (if parts = [] then [[]] else parts) := by
  rw [render, if_pos rfl, splitOn_rooted]
  congr 1
  split
  · next empty =>
    subst empty
    rfl
  · next some_ => exact List.splitOn_intercalate slash (fun s member => (proper s member).noSlash) some_

theorem segments_render {parts : List (List C)} (proper : ∀ s ∈ parts, Proper slash dot s) :
    segments slash dot (render slash dot true parts) = parts := by
  rw [segments, isRooted_render, splitOn_render proper, List.foldl_cons, push_empty]
  split
  · next empty =>
    subst empty
    rw [List.foldl_cons, push_empty]
    rfl
  · rw [foldl_push_proper proper, List.append_nil, List.reverse_reverse]

theorem clean_rooted {p : List C} (rooted : isRooted slash p = true) :
    clean slash dot p = render slash dot true (segments slash dot p) := by
  rw [clean, rooted]

theorem segments_clean {p : List C} (rooted : isRooted slash p = true) :
    segments slash dot (clean slash dot p) = segments slash dot p := by
  rw [clean_rooted rooted, segments_render (segments_proper rooted)]

theorem clean_clean {p : List C} (rooted : isRooted slash p = true) :
    clean slash dot (clean slash dot p) = clean slash dot p := by
  have again : isRooted slash (clean slash dot p) = true := by
    rw [clean_rooted rooted]
    exact isRooted_render _
  rw [clean_rooted again, segments_clean rooted, clean_rooted rooted]

theorem isRooted_append {p : List C} (rooted : isRooted slash p = true) (q : List C) :
    isRooted slash (p ++ q) = true := by
  cases p with
  | nil => simp [isRooted] at rooted
  | cons c p => exact rooted

theorem ne_nil_of_rooted {p : List C} (rooted : isRooted slash p = true) : p ≠ [] := by
  intro empty
  subst empty
  simp [isRooted] at rooted

/-- Below a rooted path, a path without dots in front of its segments leads further down. -/
theorem join_rooted {p q : List C} (rooted : isRooted slash p = true)
    (plain : ∀ s ∈ q.splitOn slash, s.head? ≠ some dot) :
    join slash dot p q = render slash dot true
      (segments slash dot p ++ (q.splitOn slash).filter (· ≠ [])) := by
  have whole : isRooted slash (p ++ slash :: q) = true := isRooted_append rooted _
  rw [join, if_neg (ne_nil_of_rooted rooted), clean_rooted whole]
  congr 1
  rw [segments, whole, List.splitOn_append_cons_self, List.foldl_append, foldl_push_plain plain,
    List.reverse_append, List.reverse_reverse, segments, rooted]

omit [DecidableEq C] in
theorem intercalate_append {parts more : List (List C)} (some_ : parts ≠ []) (more_ : more ≠ []) :
    [slash].intercalate (parts ++ more) =
      [slash].intercalate parts ++ slash :: [slash].intercalate more := by
  induction parts with
  | nil => exact absurd rfl some_
  | cons s parts ih =>
    cases parts with
    | nil =>
      rw [List.singleton_append, List.intercalate_cons_of_ne_nil more_, List.intercalate_singleton]
      simp
    | cons t parts =>
      have later := ih (List.cons_ne_nil t parts)
      rw [List.cons_append] at later
      rw [List.cons_append, List.cons_append, List.intercalate_cons_cons, later,
        List.intercalate_cons_cons]
      simp only [List.append_assoc]

/-- A path begins with another one and a slash exactly if its segments begin with the other's. -/
theorem within_iff {parts more : List (List C)} (some_ : parts ≠ [])
    (proper : ∀ s ∈ parts, Proper slash dot s) (moreProper : ∀ s ∈ more, Proper slash dot s) :
    (render slash dot true more = render slash dot true parts ∨
      render slash dot true parts ++ [slash] <+: render slash dot true more) ↔ parts <+: more := by
  constructor
  · intro within
    rcases within with same | longer
    · have back := congrArg (segments slash dot) same
      rw [segments_render proper, segments_render moreProper] at back
      rw [back]
    · obtain ⟨rest, whole⟩ := longer
      have split_ := congrArg (List.splitOn slash) whole
      rw [List.append_assoc, List.singleton_append, List.splitOn_append_cons_self,
        splitOn_render proper, splitOn_render moreProper, if_neg some_, List.cons_append] at split_
      have tail := (List.cons.inj split_).2
      split at tail
      · next empty =>
        have long := congrArg List.length tail
        have first := List.length_pos_iff.mpr some_
        have last := List.length_pos_iff.mpr (List.splitOn_ne_nil slash rest)
        simp only [List.length_append, List.length_cons, List.length_nil] at long
        omega
      · exact ⟨_, tail⟩
  · intro starts
    obtain ⟨rest, rfl⟩ := starts
    cases rest with
    | nil => exact Or.inl (by rw [List.append_nil])
    | cons s rest =>
      refine Or.inr ⟨[slash].intercalate (s :: rest), ?_⟩
      rw [render, if_pos rfl, render, if_pos rfl, intercalate_append some_ (List.cons_ne_nil s rest)]
      simp

theorem segments_plain {p : List C} (plain : ∀ s ∈ p.splitOn slash, s.head? ≠ some dot) :
    segments slash dot p = (p.splitOn slash).filter (· ≠ []) := by
  rw [segments, foldl_push_plain plain, List.append_nil, List.reverse_reverse]

theorem ext_name {name : List C} (free : slash ∉ name) (some_ : ext slash dot name ≠ []) :
    ∃ stem suffix, ext slash dot name = dot :: suffix ∧ name = stem ++ dot :: suffix := by
  have alone : name.splitOn slash = [name] := List.splitOn_eq_singleton free
  have whole := List.takeWhile_append_dropWhile (p := (· ≠ dot)) (l := name.reverse)
  unfold ext at some_ ⊢
  simp only [alone, List.getLast?_singleton, Option.getD_some] at some_ ⊢
  cases tail : name.reverse.dropWhile (· ≠ dot) with
  | nil =>
    rw [tail] at some_
    exact absurd rfl some_
  | cons c rest =>
    have stop := List.head?_dropWhile_not (p := (· ≠ dot)) (l := name.reverse)
    rw [tail] at stop whole
    have same : c = dot := by simpa using stop
    subst same
    refine ⟨rest.reverse, (name.reverse.takeWhile (· ≠ c)).reverse, rfl, ?_⟩
    have back := congrArg List.reverse whole
    rw [List.reverse_reverse, List.reverse_append, List.reverse_cons, List.append_assoc] at back
    exact back.symm

end LexicalPath
