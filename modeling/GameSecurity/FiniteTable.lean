import Mathlib.Data.Finset.Card
import Mathlib.Data.Finset.Option
import Mathlib.Data.Finset.Union

/- Finite maps, seen as their lookups with the finite set of keys that have a value. -/
namespace FiniteTable

structure Table (K V : Type) where
  lookup : K → Option V
  keys : Finset K
  mem_keys : ∀ k, k ∈ keys ↔ (lookup k).isSome

variable {K V : Type}

def Table.size (t : Table K V) : Nat := t.keys.card

def empty : Table K V := ⟨fun _ => none, ∅, by simp⟩

/-- The entries whose value passes the test. -/
def Table.filter (t : Table K V) (keep : V → Bool) : Table K V where
  lookup k := (t.lookup k).filter keep
  keys := t.keys.filter fun k => ((t.lookup k).filter keep).isSome
  mem_keys j := by
    rw [Finset.mem_filter, t.mem_keys]
    cases t.lookup j <;> simp

/-- All values in the map. -/
def Table.values [DecidableEq V] (t : Table K V) : Finset V :=
  t.keys.biUnion fun k => (t.lookup k).toFinset

theorem mem_keys_iff {t : Table K V} {k : K} : k ∈ t.keys ↔ ∃ v, t.lookup k = some v := by
  rw [t.mem_keys, Option.isSome_iff_exists]

theorem mem_values [DecidableEq V] {t : Table K V} {v : V} :
    v ∈ t.values ↔ ∃ k, t.lookup k = some v := by
  simp only [Table.values, Finset.mem_biUnion, Option.mem_toFinset, Option.mem_def]
  constructor
  · rintro ⟨k, -, found⟩
    exact ⟨k, found⟩
  · rintro ⟨k, found⟩
    exact ⟨k, mem_keys_iff.mpr ⟨v, found⟩, found⟩

theorem lookup_filter_iff {t : Table K V} {keep : V → Bool} {k : K} {v : V} :
    (t.filter keep).lookup k = some v ↔ t.lookup k = some v ∧ keep v = true := by
  simp [Table.filter, Option.filter_eq_some_iff]

theorem size_filter_le (t : Table K V) (keep : V → Bool) : (t.filter keep).size ≤ t.size :=
  Finset.card_le_card (Finset.filter_subset _ _)

theorem lookup_filter_none {t : Table K V} {keep : V → Bool} {k : K} :
    (t.filter keep).lookup k = none ↔ ∀ v, t.lookup k = some v → keep v = false := by
  simp [Table.filter, Option.filter_eq_none_iff]

/-- A table is its lookups. -/
theorem table_ext {t u : Table K V} (same : ∀ k, t.lookup k = u.lookup k) : t = u := by
  obtain ⟨look, keys, mem⟩ := t
  obtain ⟨look', keys', mem'⟩ := u
  obtain rfl : look = look' := funext same
  obtain rfl : keys = keys' := by
    ext k
    rw [mem, mem']
  rfl

theorem filter_of_keep {t : Table K V} {keep : V → Bool}
    (all : ∀ k v, t.lookup k = some v → keep v = true) : t.filter keep = t := by
  apply table_ext
  intro k
  cases found : t.lookup k with
  | none => simp [Table.filter, found]
  | some v => simp [Table.filter, found, all k v found]

theorem filter_of_drop {t : Table K V} {keep : V → Bool}
    (all : ∀ k v, t.lookup k = some v → keep v = false) : t.filter keep = empty := by
  apply table_ext
  intro k
  exact lookup_filter_none.mpr (all k)

variable [DecidableEq K]

def Table.insert (t : Table K V) (k : K) (v : V) : Table K V where
  lookup := Function.update t.lookup k (some v)
  keys := Insert.insert k t.keys
  mem_keys j := by
    by_cases e : j = k
    · simp [e]
    · simp [e, t.mem_keys]

def Table.erase (t : Table K V) (k : K) : Table K V where
  lookup := Function.update t.lookup k none
  keys := t.keys.erase k
  mem_keys j := by
    by_cases e : j = k
    · simp [e]
    · simp [e, t.mem_keys]

@[simp] theorem lookup_insert_self (t : Table K V) (k : K) (v : V) :
    (t.insert k v).lookup k = some v :=
  Function.update_self _ _ _

@[simp] theorem lookup_insert_of_ne {t : Table K V} {k j : K} {v : V} (other : j ≠ k) :
    (t.insert k v).lookup j = t.lookup j :=
  Function.update_of_ne other _ _

@[simp] theorem lookup_erase_self (t : Table K V) (k : K) : (t.erase k).lookup k = none :=
  Function.update_self _ _ _

@[simp] theorem lookup_erase_of_ne {t : Table K V} {k j : K} (other : j ≠ k) :
    (t.erase k).lookup j = t.lookup j :=
  Function.update_of_ne other _ _

/-- An entry after an insertion is the new one or an old one under another key. -/
theorem lookup_insert_some {t : Table K V} {k j : K} {v x : V}
    (found : (t.insert k v).lookup j = some x) :
    j = k ∧ x = v ∨ j ≠ k ∧ t.lookup j = some x := by
  by_cases e : j = k
  · subst j
    rw [lookup_insert_self, Option.some.injEq] at found
    exact Or.inl ⟨rfl, found.symm⟩
  · rw [lookup_insert_of_ne e] at found
    exact Or.inr ⟨e, found⟩

theorem lookup_erase_some {t : Table K V} {k j : K} {v : V}
    (found : (t.erase k).lookup j = some v) : j ≠ k ∧ t.lookup j = some v := by
  by_cases e : j = k
  · subst j
    simp at found
  · rw [lookup_erase_of_ne e] at found
    exact ⟨e, found⟩

theorem size_insert_le (t : Table K V) (k : K) (v : V) : (t.insert k v).size ≤ t.size + 1 :=
  Finset.card_insert_le _ _

theorem size_insert_of_found {t : Table K V} {k : K} {old : V} (v : V)
    (found : t.lookup k = some old) : (t.insert k v).size = t.size := by
  have member : k ∈ t.keys := mem_keys_iff.mpr ⟨old, found⟩
  exact congrArg Finset.card (Finset.insert_eq_self.mpr member)

theorem size_erase_le (t : Table K V) (k : K) : (t.erase k).size ≤ t.size :=
  Finset.card_le_card (Finset.erase_subset _ _)

theorem size_erase_lt {t : Table K V} {k : K} {v : V} (found : t.lookup k = some v) :
    (t.erase k).size < t.size :=
  Finset.card_lt_card (Finset.erase_ssubset (mem_keys_iff.mpr ⟨v, found⟩))

end FiniteTable
