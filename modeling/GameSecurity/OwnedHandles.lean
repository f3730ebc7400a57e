import Mathlib.Data.List.Nodup
import Mathlib.Data.List.Perm.Basic

/- Handles that live with an owner: each is released once while its owner is there, or is gone with
   its owner and never released. One owner is there at a time, or none. -/
namespace OwnedHandles

structure Handle where
  id : Nat
  owner : Nat
  deriving DecidableEq, Repr

/-- What is made and released, and for each release whether the owner was there. -/
structure Ledger where
  owner : Option Nat := none
  owners : Nat := 0
  created : List Handle := []
  released : List (Handle × Bool) := []
  deriving DecidableEq, Repr

def Ledger.appoint (ledger : Ledger) : Ledger :=
  { ledger with owner := some ledger.owners, owners := ledger.owners + 1 }

def Ledger.dismiss (ledger : Ledger) : Ledger := { ledger with owner := none }

def Ledger.next (ledger : Ledger) (owner : Nat) : Handle := ⟨ledger.created.length, owner⟩

def Ledger.create (ledger : Ledger) (owner : Nat) : Ledger :=
  { ledger with created := ledger.created ++ [ledger.next owner] }

def Ledger.release (ledger : Ledger) (handle : Handle) : Ledger :=
  { ledger with released := ledger.released ++ [(handle, decide (ledger.owner = some handle.owner))] }

def Ledger.releases (ledger : Ledger) (handle : Handle) : List Bool :=
  (ledger.released.filter fun entry => entry.1 = handle).map Prod.snd

/-- A handle is held, was released once in its owner's time, or is gone with its owner. -/
def Ledger.Settled (ledger : Ledger) (held : List Handle) (handle : Handle) : Prop :=
  handle ∈ held ∨ ledger.releases handle = [true] ∨
    ledger.owner ≠ some handle.owner ∧ ledger.releases handle = []

structure Ledger.Sound (ledger : Ledger) (held : List Handle) : Prop where
  past : ∀ owner ∈ ledger.owner, owner < ledger.owners
  numbered : ∀ handle ∈ ledger.created,
    handle.id < ledger.created.length ∧ handle.owner < ledger.owners
  known : ∀ entry ∈ ledger.released, entry.1 ∈ ledger.created
  distinct : held.Nodup
  valid : ∀ handle ∈ held, handle ∈ ledger.created ∧ ledger.releases handle = []
  settled : ∀ handle ∈ ledger.created, ledger.Settled held handle

variable {ledger : Ledger} {held : List Handle} {handle : Handle} {owner : Nat}

theorem releases_release (other : Handle) :
    (ledger.release handle).releases other =
      if handle = other then ledger.releases other ++ [decide (ledger.owner = some handle.owner)]
      else ledger.releases other := by
  unfold Ledger.releases Ledger.release
  rw [List.filter_append, List.filter_singleton]
  by_cases same : handle = other
  · simp [same]
  · simp [same]

namespace Ledger.Sound

theorem initial : ({} : Ledger).Sound [] where
  past _ here := by cases here
  numbered _ member := absurd member List.not_mem_nil
  known _ member := absurd member List.not_mem_nil
  distinct := List.nodup_nil
  valid _ member := absurd member List.not_mem_nil
  settled _ member := absurd member List.not_mem_nil

theorem perm {others : List Handle} (sound : ledger.Sound held) (same : held.Perm others) :
    ledger.Sound others where
  past := sound.past
  numbered := sound.numbered
  known := sound.known
  distinct := same.nodup_iff.mp sound.distinct
  valid handle member := sound.valid handle (same.mem_iff.mpr member)
  settled handle made := (sound.settled handle made).imp_left same.mem_iff.mp

theorem drop {kept : List Handle} (sound : ledger.Sound held) (sub : kept.Sublist held)
    (gone : ∀ handle ∈ held, handle ∈ kept ∨ ledger.owner ≠ some handle.owner) :
    ledger.Sound kept where
  past := sound.past
  numbered := sound.numbered
  known := sound.known
  distinct := sound.distinct.sublist sub
  valid handle member := sound.valid handle (sub.subset member)
  settled handle made := by
    rcases sound.settled handle made with here | later
    · refine (gone handle here).imp_right fun lost => Or.inr ⟨lost, (sound.valid handle here).2⟩
    · exact Or.inr later

/-- The owner who is there is gone; what it owned counts as gone with it. -/
theorem dismiss (sound : ledger.Sound held) : ledger.dismiss.Sound held where
  past _ here := by cases here
  numbered := sound.numbered
  known := sound.known
  distinct := sound.distinct
  valid := sound.valid
  settled handle made :=
    (sound.settled handle made).imp_right (Or.imp_right fun gone =>
      ⟨(Option.some_ne_none _).symm, gone.2⟩)

theorem appoint (sound : ledger.Sound held) : ledger.appoint.Sound held where
  past owner here := by
    cases here
    exact Nat.lt_succ_self _
  numbered handle made := (sound.numbered handle made).imp_right Nat.lt_succ_of_lt
  known := sound.known
  distinct := sound.distinct
  valid := sound.valid
  settled handle made := by
    refine (sound.settled handle made).imp_right (Or.imp_right fun gone => ⟨?_, gone.2⟩)
    intro same
    have older := (sound.numbered handle made).2
    rw [Option.some.inj same] at older
    exact absurd older (Nat.lt_irrefl _)

theorem create (sound : ledger.Sound held) (here : ledger.owner = some owner) :
    (ledger.create owner).Sound (held ++ [ledger.next owner]) := by
  have new : ledger.next owner ∉ ledger.created := by
    intro made
    exact absurd (sound.numbered _ made).1 (Nat.lt_irrefl _)
  have unreleased : ledger.releases (ledger.next owner) = [] := by
    rw [Ledger.releases, List.map_eq_nil_iff, List.filter_eq_nil_iff]
    intro entry member
    rw [decide_eq_true_eq]
    exact fun same => new (same ▸ sound.known entry member)
  refine ⟨sound.past, ?_, ?_, ?_, ?_, ?_⟩
  · intro handle made
    rw [Ledger.create, List.length_append, List.length_singleton]
    rcases List.mem_append.mp made with old | last
    · exact (sound.numbered handle old).imp_left Nat.lt_succ_of_lt
    · rw [List.mem_singleton.mp last]
      exact ⟨Nat.lt_succ_self _, sound.past owner here⟩
  · intro entry member
    exact List.mem_append_left _ (sound.known entry member)
  · refine List.nodup_append.mpr ⟨sound.distinct, List.nodup_singleton _, ?_⟩
    intro old member last single same
    rw [same, List.mem_singleton.mp single] at member
    exact new (sound.valid _ member).1
  · intro handle member
    rcases List.mem_append.mp member with old | last
    · exact (sound.valid handle old).imp_left (List.mem_append_left _)
    · rw [List.mem_singleton.mp last]
      exact ⟨List.mem_append_right _ List.mem_cons_self, unreleased⟩
  · intro handle made
    rcases List.mem_append.mp made with old | last
    · exact (sound.settled handle old).imp_left (List.mem_append_left _)
    · exact Or.inl (List.mem_append_right _ last)

theorem release {left right : List Handle} (sound : ledger.Sound (left ++ handle :: right))
    (here : ledger.owner = some handle.owner) : (ledger.release handle).Sound (left ++ right) := by
  have apart : handle ∉ left ++ right := (List.nodup_middle.mp sound.distinct).notMem
  have sub : (left ++ right).Sublist (left ++ handle :: right) :=
    List.Sublist.append_left (List.sublist_cons_self handle right) left
  have held := List.mem_append_right left (List.mem_cons_self (a := handle) (l := right))
  obtain ⟨made, unreleased⟩ := sound.valid handle held
  refine ⟨sound.past, sound.numbered, ?_, sound.distinct.sublist sub, ?_, ?_⟩
  · intro entry member
    rcases List.mem_append.mp member with old | last
    · exact sound.known entry old
    · rw [List.mem_singleton.mp last]
      exact made
  · intro other member
    have different : handle ≠ other := fun same => apart (same ▸ member)
    rw [releases_release, if_neg different]
    exact sound.valid other (sub.subset member)
  · intro other made
    unfold Ledger.Settled
    rw [releases_release]
    by_cases same : handle = other
    · subst same
      rw [if_pos rfl, unreleased, here]
      exact Or.inr (Or.inl (by simp))
    · rw [if_neg same]
      refine (sound.settled other made).imp_left fun member => ?_
      rcases List.mem_append.mp member with before | behind
      · exact List.mem_append_left _ before
      · rcases List.mem_cons.mp behind with equal | after
        · exact absurd equal.symm same
        · exact List.mem_append_right _ after

end Ledger.Sound

end OwnedHandles
