import Mathlib.Data.List.Basic

/- A slot for one message that only ever moves forward. An offer admits a message of a
   higher rank than all before it, empties the slot and puts the message in; a receiver
   may take the slot's message between any two of these steps. -/
namespace LatestSlot

variable {M : Type}

/-- What has left or may still leave the slot, in order. -/
def stream (taken : List M) (queue : Option M) : List M := taken ++ queue.toList

@[simp] theorem stream_none (taken : List M) : stream taken none = taken := by simp [stream]

@[simp] theorem stream_some (taken : List M) (m : M) : stream taken (some m) = taken ++ [m] := by
  simp [stream]

/- `held` is the message of the offer in progress; its flag tells that the slot has
   been emptied for it. -/
structure Forward (rank : M → Nat) (since : M → Prop) (newest : Nat) (queue : Option M)
    (taken : List M) (held : Option (M × Bool)) : Prop where
  ascending : (stream taken queue).Pairwise fun f g => rank f < rank g
  candidates : ∀ f ∈ stream taken queue, since f
  below : ∀ f ∈ stream taken queue, rank f ≤ newest
  offering : ∀ m emptied, held = some (m, emptied) → since m ∧ rank m = newest ∧
    (∀ f ∈ stream taken queue, rank f < newest) ∧ (emptied = true → queue = none)
  attained : held = none → newest = 0 ∨ ∃ f ∈ stream taken queue, rank f = newest

variable {rank : M → Nat} {since : M → Prop} {newest : Nat} {queue : Option M} {taken : List M}
  {held : Option (M × Bool)} {m : M}

theorem forward_start : Forward rank since 0 none [] none := by
  constructor <;> simp

theorem forward_mono {more : M → Prop} (grows : ∀ f, since f → more f)
    (h : Forward rank since newest queue taken held) :
    Forward rank more newest queue taken held where
  ascending := h.ascending
  candidates f member := grows f (h.candidates f member)
  below := h.below
  offering m emptied current := by
    obtain ⟨candidate, rest⟩ := h.offering m emptied current
    exact ⟨grows m candidate, rest⟩
  attained := h.attained

theorem forward_accept (h : Forward rank since newest queue taken none) (fresh : newest < rank m)
    (candidate : since m) : Forward rank since (rank m) queue taken (some (m, false)) where
  ascending := h.ascending
  candidates := h.candidates
  below f member := by
    have := h.below f member
    omega
  offering n emptied current := by
    simp only [Option.some.injEq, Prod.mk.injEq] at current
    obtain ⟨rfl, rfl⟩ := current
    refine ⟨candidate, rfl, fun f member => ?_, by simp⟩
    have := h.below f member
    omega
  attained none := by cases none

theorem stream_subset {f : M} (member : f ∈ taken) : f ∈ stream taken queue :=
  List.mem_append_left _ member

theorem forward_empty (h : Forward rank since newest queue taken (some (m, false))) :
    Forward rank since newest none taken (some (m, true)) where
  ascending := by
    rw [stream_none]
    exact (List.pairwise_append.mp h.ascending).1
  candidates f member := h.candidates f (stream_subset (by simpa using member))
  below f member := h.below f (stream_subset (by simpa using member))
  offering n emptied current := by
    simp only [Option.some.injEq, Prod.mk.injEq] at current
    obtain ⟨rfl, rfl⟩ := current
    obtain ⟨candidate, top, lower, -⟩ := h.offering m false rfl
    exact ⟨candidate, top, fun f member => lower f (stream_subset (by simpa using member)),
      fun _ => rfl⟩
  attained none := by cases none

/-- The slot is still empty when the message goes in. -/
theorem forward_put (h : Forward rank since newest queue taken (some (m, true))) :
    queue = none ∧ Forward rank since newest (some m) taken none := by
  obtain ⟨candidate, top, lower, empty⟩ := h.offering m true rfl
  have vacant := empty rfl
  subst vacant
  rw [stream_none] at lower
  have ascending := h.ascending
  have candidates := h.candidates
  rw [stream_none] at ascending candidates
  refine ⟨rfl, ?_, ?_, ?_, by simp, fun _ => Or.inr ⟨m, by simp, top⟩⟩
  · rw [stream_some, List.pairwise_append]
    refine ⟨ascending, by simp, fun f member g last => ?_⟩
    rw [List.mem_singleton.mp last, top]
    exact lower f member
  · intro f member
    rw [stream_some, List.mem_append] at member
    rcases member with old | last
    · exact candidates f old
    · rwa [List.mem_singleton.mp last]
  · intro f member
    rw [stream_some, List.mem_append] at member
    rcases member with old | last
    · exact Nat.le_of_lt (lower f old)
    · rw [List.mem_singleton.mp last]
      omega

/-- Taking moves a message along the stream and changes nothing else. -/
theorem forward_take (h : Forward rank since newest (some m) taken held) :
    Forward rank since newest none (taken ++ [m]) held := by
  have same : stream (taken ++ [m]) none = stream taken (some m) := by simp
  constructor
  case ascending =>
    rw [same]
    exact h.ascending
  case candidates =>
    rw [same]
    exact h.candidates
  case below =>
    rw [same]
    exact h.below
  case offering =>
    intro n emptied current
    rw [same]
    obtain ⟨candidate, top, lower, empty⟩ := h.offering n emptied current
    exact ⟨candidate, top, lower, fun _ => rfl⟩
  case attained =>
    rw [same]
    exact h.attained

theorem taken_ascending (h : Forward rank since newest queue taken held) :
    taken.Pairwise fun f g => rank f < rank g :=
  (List.pairwise_append.mp h.ascending).1

/-- With no offer in progress the highest rank so far is taken or queued. -/
theorem newest_delivered (h : Forward rank since newest queue taken none) (some_ : 0 < newest) :
    ∃ f, since f ∧ rank f = newest ∧ (f ∈ taken ∨ queue = some f) := by
  rcases h.attained rfl with zero | ⟨f, member, top⟩
  · omega
  · refine ⟨f, h.candidates f member, top, ?_⟩
    rcases List.mem_append.mp member with old | last
    · exact Or.inl old
    · exact Or.inr (by simpa using last)

end LatestSlot
