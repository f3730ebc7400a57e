import Mathlib.Data.Finset.Card

/- Places that parties take and give back. Each place keeps the set of its members,
   each party keeps its own record of whether it holds a place and where. -/
namespace Occupancy
variable {K V R : Type} [DecidableEq V]

/-- The members of a place are exactly the parties whose record says so. -/
def Exact (members : K → Finset V) (runs : V → R) (holds : R → Prop) (home : R → K) : Prop :=
  ∀ k v, v ∈ members k ↔ holds (runs v) ∧ home (runs v) = k

def Within (members : K → Finset V) (cap : K → Nat) : Prop :=
  ∀ k, (members k).card ≤ cap k

variable {members after : K → Finset V} {runs : V → R} {holds : R → Prop} {home : R → K}
  {cap : K → Nat} {v : V} {run : R} {k : K}

/-- A party that neither takes nor gives may change the rest of its record, and its
   home too while it holds nothing. -/
theorem exact_keep (h : Exact members runs holds home) (same : holds run ↔ holds (runs v))
    (place : holds run → home run = home (runs v)) :
    Exact members (Function.update runs v run) holds home := by
  intro j u
  have was := h j u
  by_cases eq : u = v
  · subst u
    rw [Function.update_self, was, same]
    constructor
    · rintro ⟨held, at_j⟩
      exact ⟨held, (place (same.mpr held)).trans at_j⟩
    · rintro ⟨held, at_j⟩
      exact ⟨held, (place (same.mpr held)).symm.trans at_j⟩
  · rw [Function.update_of_ne eq]
    exact was

theorem exact_take (h : Exact members runs holds home) (free : ¬ holds (runs v))
    (held : holds run) (here : home run = k) (grown : after k = insert v (members k))
    (rest : ∀ j, j ≠ k → after j = members j) :
    Exact after (Function.update runs v run) holds home := by
  intro j u
  have was := h j u
  by_cases eq : u = v
  · subst u
    rw [Function.update_self]
    by_cases place : j = k
    · subst j
      simp [grown, held, here]
    · rw [rest j place, was]
      simp [free, here, Ne.symm place]
  · rw [Function.update_of_ne eq]
    by_cases place : j = k
    · subst j
      simpa [grown, eq] using was
    · rw [rest j place]
      exact was

theorem exact_give (h : Exact members runs holds home) (released : ¬ holds run)
    (here : home (runs v) = k) (shrunk : after k = (members k).erase v)
    (rest : ∀ j, j ≠ k → after j = members j) :
    Exact after (Function.update runs v run) holds home := by
  intro j u
  have was := h j u
  by_cases eq : u = v
  · subst u
    rw [Function.update_self]
    by_cases place : j = k
    · subst j
      simp [shrunk, released]
    · rw [rest j place, was]
      simp [released, here, Ne.symm place]
  · rw [Function.update_of_ne eq]
    by_cases place : j = k
    · subst j
      simpa [shrunk, eq] using was
    · rw [rest j place]
      exact was

omit [DecidableEq V] in
theorem exact_same (h : Exact members runs holds home) (same : ∀ j, after j = members j) :
    Exact after runs holds home := by
  intro j u
  rw [same j]
  exact h j u

theorem within_take (h : Within members cap) (room : (members k).card < cap k)
    (grown : after k = insert v (members k)) (rest : ∀ j, j ≠ k → after j = members j) :
    Within after cap := by
  intro j
  by_cases place : j = k
  · subst j
    rw [grown]
    have grows := Finset.card_insert_le v (members k)
    omega
  · rw [rest j place]
    exact h j

omit [DecidableEq V] in
theorem within_shrink (h : Within members cap) (fewer : ∀ j, after j ⊆ members j) :
    Within after cap := by
  intro j
  exact le_trans (Finset.card_le_card (fewer j)) (h j)

omit [DecidableEq V] in
theorem empty_when_nobody_holds (h : Exact members runs holds home)
    (nobody : ∀ u, ¬ holds (runs u)) (j : K) : members j = ∅ := by
  apply Finset.eq_empty_of_forall_notMem
  intro u member
  exact nobody u ((h j u).mp member).1

end Occupancy
