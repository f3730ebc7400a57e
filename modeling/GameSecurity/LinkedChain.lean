import Mathlib.Data.List.Nodup

/- Linked lists in a memory: a link reads at a place what the place carries and the place
   that follows. A traversal passes the places of a list in order, and stops at the null
   place, at a place it has passed, at one that cannot be read, or when its rounds are used up. -/
namespace LinkedChain

variable {A D : Type} (link : A → Option (D × A))

/-- Following the links from a place passes these places, with what they carry, and then
   comes to the last one. -/
def Path : A → List (A × D) → A → Prop
  | a, [], last => a = last
  | a, (place, data) :: rest, last =>
    a = place ∧ ∃ next, link a = some (data, next) ∧ Path next rest last

/-- The nodes that a traversal from a place passes, other than those seen before. -/
structure Passed (null : A) (rounds : Nat) (seen : List A) (a : A) (nodes : List (A × D)) :
    Prop where
  few : nodes.length ≤ rounds
  distinct : (nodes.map Prod.fst).Nodup
  fresh : ∀ node ∈ nodes, node.1 ≠ null ∧ node.1 ∉ seen
  stops : ∃ last, Path link a nodes last ∧ (nodes.length = rounds ∨ last = null ∨
    last ∈ seen ++ nodes.map Prod.fst ∨ link last = none)

variable [DecidableEq A]

def visited (null : A) : Nat → List A → A → List (A × D)
  | 0, _, _ => []
  | rounds + 1, seen, a =>
    if a = null ∨ a ∈ seen then []
    else
      match link a with
      | none => []
      | some (data, next) => (a, data) :: visited null rounds (a :: seen) next

variable {link} {null a : A} {seen : List A} {rounds : Nat} {nodes : List (A × D)}

theorem visited_unread (going : ¬ (a = null ∨ a ∈ seen)) (unread : link a = none) :
    visited link null (rounds + 1) seen a = [] := by
  rw [visited, if_neg going, unread]

theorem visited_next (going : ¬ (a = null ∨ a ∈ seen)) {data : D} {next : A}
    (linked : link a = some (data, next)) : visited link null (rounds + 1) seen a =
      (a, data) :: visited link null rounds (a :: seen) next := by
  rw [visited, if_neg going, linked]

theorem visited_passed (null : A) (rounds : Nat) (seen : List A) (a : A) :
    Passed link null rounds seen a (visited link null rounds seen a) := by
  induction rounds generalizing seen a with
  | zero => exact ⟨Nat.le_refl 0, List.nodup_nil, fun node member => (by cases member), a, rfl, .inl rfl⟩
  | succ rounds ih =>
    rw [visited]
    by_cases stopped : a = null ∨ a ∈ seen
    · rw [if_pos stopped]
      refine ⟨Nat.zero_le _, List.nodup_nil, fun node member => (by cases member), a, rfl, .inr ?_⟩
      exact stopped.imp_right fun again => .inl (List.mem_append_left _ again)
    · rw [if_neg stopped]
      rw [not_or] at stopped
      cases linked : link a with
      | none => exact ⟨Nat.zero_le _, List.nodup_nil, fun node member => (by cases member), a, rfl,
          .inr (.inr (.inr linked))⟩
      | some read =>
        obtain ⟨data, next⟩ := read
        obtain ⟨few, distinct, fresh, last, path, stops⟩ := ih (a :: seen) next
        refine ⟨Nat.succ_le_succ few, List.nodup_cons.mpr ⟨?_, distinct⟩, ?_, last,
          ⟨rfl, next, linked, path⟩, ?_⟩
        · intro again
          obtain ⟨node, member, same⟩ := List.mem_map.mp again
          exact (fresh node member).2 (same ▸ List.mem_cons_self)
        · intro node member
          rcases List.mem_cons.mp member with rfl | later
          · exact stopped
          · exact ⟨(fresh node later).1, fun old => (fresh node later).2 (List.mem_cons_of_mem _ old)⟩
        · refine stops.imp (congrArg (· + 1)) (Or.imp_right (Or.imp_left fun again => ?_))
          simp only [List.cons_append, List.mem_cons, List.mem_append, List.map_cons] at again ⊢
          tauto

theorem passed_visited (passed : Passed link null rounds seen a nodes) :
    visited link null rounds seen a = nodes := by
  induction nodes generalizing a seen rounds with
  | nil =>
    obtain ⟨-, -, -, last, rfl, stops⟩ := passed
    cases rounds with
    | zero => rfl
    | succ rounds =>
      rw [visited]
      by_cases stopped : a = null ∨ a ∈ seen
      · rw [if_pos stopped]
      · rw [not_or] at stopped
        rw [List.map_nil, List.append_nil] at stops
        have unread : link a = none := by tauto
        rw [if_neg (not_or.mpr stopped), unread]
  | cons node rest ih =>
    obtain ⟨place, data⟩ := node
    obtain ⟨few, distinct, fresh, last, ⟨rfl, next, linked, path⟩, stops⟩ := passed
    rw [List.map_cons, List.nodup_cons] at distinct
    cases rounds with
    | zero => cases few
    | succ rounds =>
      have going : ¬ (a = null ∨ a ∈ seen) := not_or.mpr (fresh _ List.mem_cons_self)
      rw [visited_next going linked]
      refine congrArg ((a, data) :: ·) (ih ⟨Nat.succ_le_succ_iff.mp few, distinct.2, ?_, last, path, ?_⟩)
      · intro node member
        refine ⟨(fresh node (List.mem_cons_of_mem _ member)).1, fun old => ?_⟩
        rcases List.mem_cons.mp old with same | older
        · exact distinct.1 (List.mem_map.mpr ⟨node, member, same⟩)
        · exact (fresh node (List.mem_cons_of_mem _ member)).2 older
      · refine stops.imp Nat.succ.inj (Or.imp_right (Or.imp_left fun again => ?_))
        simp only [List.cons_append, List.mem_cons, List.mem_append, List.map_cons] at again ⊢
        tauto

theorem visited_eq_iff : visited link null rounds seen a = nodes ↔
    Passed link null rounds seen a nodes :=
  ⟨fun same => same ▸ visited_passed null rounds seen a, passed_visited⟩

end LinkedChain
