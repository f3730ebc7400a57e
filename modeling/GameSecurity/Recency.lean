import Mathlib.Data.List.Nodup
import Mathlib.Data.List.Perm.Basic

/- Entries with a stamp that each request of an entry renews: the oldest stamp is on the entry
   whose last request lies furthest back. -/
namespace Recency

variable {E K : Type} {key : E → K} {stamp : E → Nat} {requests : List K} {serial : Nat}
  {entries : List E} {e : E}

/-- Behind the last request of an entry, all newer entries are requested. -/
def LastRequest (key : E → K) (requests : List K) (newer : E → Prop) (e : E) : Prop :=
  ∃ before after, requests = before ++ key e :: after ∧ key e ∉ after ∧
    ∀ other, newer other → key other ∈ after

structure Ordered (key : E → K) (stamp : E → Nat) (requests : List K) (serial : Nat)
    (entries : List E) : Prop where
  keys : (entries.map key).Nodup
  stamps : (entries.map stamp).Nodup
  issued : ∀ e ∈ entries, stamp e ≤ serial
  order : ∀ e ∈ entries,
    LastRequest key requests (fun other => other ∈ entries ∧ stamp e < stamp other) e

theorem Ordered.nil : Ordered key stamp requests serial [] where
  keys := List.nodup_nil
  stamps := List.nodup_nil
  issued _ member := absurd member List.not_mem_nil
  order _ member := absurd member List.not_mem_nil

theorem Ordered.sublist {kept : List E} (ordered : Ordered key stamp requests serial entries)
    (sub : kept.Sublist entries) : Ordered key stamp requests serial kept where
  keys := ordered.keys.sublist (sub.map key)
  stamps := ordered.stamps.sublist (sub.map stamp)
  issued e member := ordered.issued e (sub.subset member)
  order e member := by
    obtain ⟨before, after, whole, last, newer⟩ := ordered.order e (sub.subset member)
    refine ⟨before, after, whole, last, ?_⟩
    intro other ⟨there, later⟩
    exact newer other ⟨sub.subset there, later⟩

theorem Ordered.perm {others : List E} (ordered : Ordered key stamp requests serial entries)
    (same : entries.Perm others) : Ordered key stamp requests serial others where
  keys := ((same.map key).nodup_iff).mp ordered.keys
  stamps := ((same.map stamp).nodup_iff).mp ordered.stamps
  issued e member := ordered.issued e (same.mem_iff.mpr member)
  order e member := by
    obtain ⟨before, after, whole, last, newer⟩ := ordered.order e (same.mem_iff.mpr member)
    refine ⟨before, after, whole, last, ?_⟩
    intro other ⟨there, later⟩
    exact newer other ⟨same.mem_iff.mpr there, later⟩

theorem nodup_map_append {A : Type} {f : E → A} (distinct : (entries.map f).Nodup)
    (fresh : f e ∉ entries.map f) : ((entries ++ [e]).map f).Nodup := by
  rw [List.map_append, List.map_singleton, List.nodup_append]
  refine ⟨distinct, List.nodup_singleton _, ?_⟩
  intro old member new last same
  rw [List.mem_singleton] at last
  rw [same, last] at member
  exact fresh member

theorem Ordered.insert (ordered : Ordered key stamp requests serial entries)
    (fresh : key e ∉ entries.map key) (next : stamp e = serial + 1) :
    Ordered key stamp (requests ++ [key e]) (serial + 1) (entries ++ [e]) where
  keys := nodup_map_append ordered.keys fresh
  stamps := by
    refine nodup_map_append ordered.stamps ?_
    intro member
    obtain ⟨old, here, same⟩ := List.mem_map.mp member
    have issued := ordered.issued old here
    omega
  issued other member := by
    rcases List.mem_append.mp member with old | last
    · exact Nat.le_succ_of_le (ordered.issued other old)
    · rw [List.mem_singleton.mp last]
      omega
  order old member := by
    rcases List.mem_append.mp member with before | last
    · obtain ⟨early, late, whole, least, newer⟩ := ordered.order old before
      refine ⟨early, late ++ [key e], by rw [whole, List.append_assoc, List.cons_append], ?_, ?_⟩
      · intro again
        rcases List.mem_append.mp again with there | there
        · exact least there
        · rw [List.mem_singleton] at there
          exact fresh (there ▸ List.mem_map_of_mem before)
      · intro other ⟨there, later⟩
        rcases List.mem_append.mp there with older | newest
        · exact List.mem_append_left _ (newer other ⟨older, later⟩)
        · rw [List.mem_singleton.mp newest]
          exact List.mem_append_right _ List.mem_cons_self
    · rw [List.mem_singleton.mp last]
      refine ⟨requests, [], rfl, List.not_mem_nil, ?_⟩
      intro other ⟨there, later⟩
      rcases List.mem_append.mp there with older | newest
      · have issued := ordered.issued other older
        omega
      · rw [List.mem_singleton.mp newest] at later
        exact absurd later (Nat.lt_irrefl _)

theorem Ordered.touch {left right : List E} {renewed : E}
    (ordered : Ordered key stamp requests serial (left ++ e :: right))
    (same : key renewed = key e) (next : stamp renewed = serial + 1) :
    Ordered key stamp (requests ++ [key e]) (serial + 1) (left ++ renewed :: right) := by
  have others := ordered.sublist (List.Sublist.append_left (List.sublist_cons_self e right) left)
  have apart : key renewed ∉ (left ++ right).map key := by
    have unique := ordered.keys
    rw [List.map_append, List.map_cons] at unique
    rw [same, List.map_append]
    exact (List.nodup_middle.mp unique).notMem
  rw [← same]
  refine (others.insert apart next).perm ?_
  rw [List.append_assoc]
  exact List.Perm.append_left left (List.perm_append_singleton renewed right)

/-- The entry with the oldest stamp was requested before all the others were last. -/
theorem Ordered.oldest (ordered : Ordered key stamp requests serial entries) (member : e ∈ entries)
    (least : ∀ other ∈ entries, stamp e ≤ stamp other) :
    LastRequest key requests (fun other => other ∈ entries ∧ other ≠ e) e := by
  obtain ⟨before, after, whole, last, newer⟩ := ordered.order e member
  refine ⟨before, after, whole, last, ?_⟩
  intro other ⟨there, different⟩
  have apart : stamp other ≠ stamp e := by
    intro same
    exact different (List.inj_on_of_nodup_map ordered.stamps there member same)
  exact newer other ⟨there, Nat.lt_of_le_of_ne (least other there) apart.symm⟩

end Recency
