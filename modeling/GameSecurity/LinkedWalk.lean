import Mathlib.Data.Fintype.Pigeonhole
import Mathlib.Data.Finite.Prod

/- Walks along links that each have a weight, in a finite set of places. A walk that never
   ends and stays below a limit of weight goes round in a cycle without weight. -/
namespace LinkedWalk

variable {α : Type} (link : α → Option (α × Nat))

/-- Where so many links lead, and their weight. -/
def walk : Nat → α → Option (α × Nat)
  | 0, a => some (a, 0)
  | n + 1, a => do
    let (next, weight) ← link a
    let (last, more) ← walk n next
    return (last, weight + more)

variable {link} {a b c : α} {m n v w limit : Nat}

@[simp] theorem walk_zero : walk link 0 a = some (a, 0) := rfl

theorem walk_succ_iff : walk link (n + 1) a = some (b, w) ↔
    ∃ next weight more, link a = some (next, weight) ∧ walk link n next = some (b, more) ∧
      w = weight + more := by
  simp only [walk, Option.bind_eq_bind, Option.bind_eq_some_iff, Prod.exists]
  constructor
  · rintro ⟨next, weight, linked, last, more, walked, same⟩
    cases same
    exact ⟨next, weight, more, linked, walked, rfl⟩
  · rintro ⟨next, weight, more, linked, walked, rfl⟩
    exact ⟨next, weight, linked, b, more, walked, rfl⟩

theorem walk_add (first : walk link m a = some (b, v)) (second : walk link n b = some (c, w)) :
    walk link (m + n) a = some (c, v + w) := by
  induction m generalizing a v with
  | zero =>
    cases first
    rw [Nat.zero_add, Nat.zero_add]
    exact second
  | succ m ih =>
    obtain ⟨next, weight, more, linked, walked, rfl⟩ := walk_succ_iff.mp first
    rw [Nat.succ_add]
    exact walk_succ_iff.mpr ⟨next, weight, more + w, linked, ih walked, Nat.add_assoc ..⟩

theorem walk_split (whole : walk link (m + n) a = some (c, w)) :
    ∃ b v u, walk link m a = some (b, v) ∧ walk link n b = some (c, u) ∧ w = v + u := by
  induction m generalizing a w with
  | zero =>
    rw [Nat.zero_add] at whole
    exact ⟨a, 0, w, rfl, whole, (Nat.zero_add w).symm⟩
  | succ m ih =>
    rw [Nat.succ_add] at whole
    obtain ⟨next, weight, more, linked, walked, rfl⟩ := walk_succ_iff.mp whole
    obtain ⟨b, v, u, first, second, rfl⟩ := ih walked
    exact ⟨b, weight + v, u, walk_succ_iff.mpr ⟨next, weight, v, linked, first, rfl⟩, second,
      (Nat.add_assoc ..).symm⟩

variable (link)

/-- However far it goes, the walk has not collected the limit. -/
def Endless (limit : Nat) (a : α) : Prop :=
  ∀ n, ∃ b w, walk link n a = some (b, w) ∧ w < limit

/-- With less than the limit collected the walk comes to a cycle without weight. -/
def EmptyCycle (limit : Nat) (a : α) : Prop :=
  ∃ m n b w, walk link m a = some (b, w) ∧ w < limit ∧ 0 < n ∧ walk link n b = some (b, 0)

variable {link}

theorem walk_round (cycle : walk link n b = some (b, 0)) (k : Nat) :
    walk link (k * n) b = some (b, 0) := by
  induction k with
  | zero => rw [Nat.zero_mul, walk_zero]
  | succ k ih =>
    rw [Nat.succ_mul]
    exact walk_add ih cycle

theorem endless_of_cycle (cycle : EmptyCycle link limit a) : Endless link limit a := by
  obtain ⟨m, n, b, w, reached, below, some_, round⟩ := cycle
  intro k
  have far : k ≤ m + k * n := by
    have := Nat.le_mul_of_pos_right k some_
    omega
  obtain ⟨rest, long⟩ := Nat.exists_eq_add_of_le far
  have whole := walk_add reached (walk_round round k)
  rw [long] at whole
  obtain ⟨c, v, u, first, -, total⟩ := walk_split whole
  exact ⟨c, v, first, by omega⟩

/-- Places and weights below the limit are finitely many, so two stages of the walk agree. -/
theorem cycle_of_endless [Finite α] (endless : Endless link limit a) :
    EmptyCycle link limit a := by
  choose place weight walked below using endless
  let stage : Nat → α × Fin limit := fun n => (place n, ⟨weight n, below n⟩)
  obtain ⟨m, n, different, same⟩ := Finite.exists_ne_map_eq_of_infinite stage
  have order : ∀ m n, m < n → stage m = stage n → EmptyCycle link limit a := by
    intro m n early agree
    obtain ⟨places, weights⟩ := Prod.mk.inj agree
    have even : weight m = weight n := congrArg Fin.val weights
    obtain ⟨k, rfl⟩ := Nat.exists_eq_add_of_lt early
    have whole := walked (m + k + 1)
    rw [Nat.add_assoc] at whole
    obtain ⟨b, v, u, first, second, total⟩ := walk_split whole
    rw [walked m] at first
    cases first
    have empty : u = 0 := by
      have here : weight (m + k + 1) = weight (m + (k + 1)) := rfl
      omega
    subst empty
    refine ⟨m, k + 1, place m, weight m, walked m, below m, Nat.succ_pos k, ?_⟩
    rw [second]
    exact congrArg (fun p => some (p, 0)) places.symm
  rcases Nat.lt_or_gt_of_ne different with early | late
  · exact order m n early same
  · exact order n m late same.symm

theorem endless_iff [Finite α] : Endless link limit a ↔ EmptyCycle link limit a :=
  ⟨cycle_of_endless, endless_of_cycle⟩

end LinkedWalk
