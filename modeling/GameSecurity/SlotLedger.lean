import Mathlib.Data.List.Nodup

/- One slot lent to one writer at a time. The request number is even at rest; a writer
   takes the slot by raising it to an odd number and publishes by raising it once more.
   The request is then pending until the completion number has followed it. -/
namespace SlotLedger

structure Entry (H P : Type) where
  id : Int
  holder : H
  payload : P
  deriving DecidableEq, Repr

variable {H P : Type}

/-- The numbers, the slot and the two histories of a mailbox agree. -/
structure Ledger (request completed : Int) (writer : Option H) (slot : P)
    (published : List (Entry H P)) (processed : List Int) : Prop where
  nonneg : 0 ≤ completed
  even : completed % 2 = 0
  resting : writer = none → request = completed ∨ request = completed + 2
  writing : ∀ h, writer = some h → request = completed + 1
  distinct : (published.map Entry.id).Nodup
  settled : ∀ id ∈ processed, id ≤ completed ∧ ∃ e ∈ published, e.id = id
  latest : completed = 0 ∨ completed ∈ processed
  pending : ∀ e ∈ published, e.id ∈ processed ∨ e.id = request ∧ request = completed + 2
  holds : request = completed + 2 → ∃ e ∈ published, e.id = request ∧ e.payload = slot

variable {request completed : Int} {writer : Option H} {slot : P}
  {published : List (Entry H P)} {processed : List Int}

theorem ledger_start : Ledger 0 0 (none : Option H) slot [] [] := by
  constructor <;> simp

theorem ledger_bounds (h : Ledger request completed writer slot published processed) :
    completed ≤ request ∧ request ≤ completed + 2 := by
  cases owner : writer with
  | none =>
    have := h.resting owner
    omega
  | some holder =>
    have := h.writing holder owner
    omega

theorem ledger_even (h : Ledger request completed writer slot published processed)
    (rest : request % 2 = 0) :
    writer = none ∧ (request = completed ∨ request = completed + 2) := by
  have even := h.even
  cases owner : writer with
  | none => exact ⟨rfl, h.resting owner⟩
  | some holder =>
    have := h.writing holder owner
    omega

theorem ledger_pending_idle (h : Ledger request completed writer slot published processed)
    (waiting : request = completed + 2) : writer = none := by
  have even := h.even
  exact (ledger_even h (by omega)).1

/-- A compare-and-swap that still finds an even number seen completed finds the slot free. -/
theorem ledger_free (h : Ledger request completed writer slot published processed) {seen : Int}
    (rest : seen % 2 = 0) (done : seen ≤ completed) (same : request = seen) :
    writer = none ∧ completed = seen := by
  have bounds := ledger_bounds h
  obtain ⟨idle, -⟩ := ledger_even h (by omega)
  exact ⟨idle, by omega⟩

theorem ledger_acquire (h : Ledger request completed none slot published processed)
    (free : request = completed) (holder : H) :
    Ledger (completed + 1) completed (some holder) slot published processed where
  nonneg := h.nonneg
  even := h.even
  resting none := by cases none
  writing _ _ := rfl
  distinct := h.distinct
  settled := h.settled
  latest := h.latest
  pending e member := by
    rcases h.pending e member with old | ⟨-, waiting⟩
    · exact Or.inl old
    · omega
  holds waiting := by omega

theorem ledger_write {holder : H} {other : P}
    (h : Ledger request completed (some holder) slot published processed) :
    Ledger request completed (some holder) other published processed where
  nonneg := h.nonneg
  even := h.even
  resting := h.resting
  writing := h.writing
  distinct := h.distinct
  settled := h.settled
  latest := h.latest
  pending := h.pending
  holds waiting := by
    have := h.writing holder rfl
    omega

theorem ledger_writing_settled {holder : H}
    (h : Ledger request completed (some holder) slot published processed)
    {e : Entry H P} (member : e ∈ published) : e.id ∈ processed := by
  have := h.writing holder rfl
  rcases h.pending e member with old | ⟨-, waiting⟩
  · exact old
  · omega

theorem ledger_publish {holder : H}
    (h : Ledger request completed (some holder) slot published processed) :
    Ledger (completed + 2) completed none slot
      (published ++ [⟨completed + 2, holder, slot⟩]) processed where
  nonneg := h.nonneg
  even := h.even
  resting _ := Or.inr rfl
  writing _ owner := by cases owner
  distinct := by
    rw [List.map_append, List.nodup_append]
    refine ⟨h.distinct, by simp, ?_⟩
    intro id old new last equal
    obtain ⟨e, member, rfl⟩ := List.mem_map.mp old
    have low := (h.settled e.id (ledger_writing_settled h member)).1
    simp only [List.map_cons, List.map_nil, List.mem_singleton] at last
    omega
  settled id member := by
    obtain ⟨low, e, old, same⟩ := h.settled id member
    exact ⟨low, e, List.mem_append_left _ old, same⟩
  latest := h.latest
  pending e member := by
    rcases List.mem_append.mp member with old | last
    · exact Or.inl (ledger_writing_settled h old)
    · rw [List.mem_singleton.mp last]
      exact Or.inr ⟨rfl, rfl⟩
  holds _ := ⟨⟨completed + 2, holder, slot⟩, by simp, rfl, rfl⟩

theorem ledger_complete (h : Ledger request completed writer slot published processed)
    (waiting : request = completed + 2) :
    Ledger request request writer slot published (processed ++ [request]) where
  nonneg := by
    have := h.nonneg
    omega
  even := by
    have := h.even
    omega
  resting _ := Or.inl rfl
  writing holder owner := by
    have := h.writing holder owner
    omega
  distinct := h.distinct
  settled id member := by
    rcases List.mem_append.mp member with old | last
    · obtain ⟨low, published⟩ := h.settled id old
      exact ⟨by omega, published⟩
    · obtain ⟨e, member, same, -⟩ := h.holds waiting
      rw [List.mem_singleton.mp last]
      exact ⟨Int.le_refl _, e, member, same⟩
  latest := Or.inr (by simp)
  pending e member := by
    rcases h.pending e member with old | ⟨same, -⟩
    · exact Or.inl (List.mem_append_left _ old)
    · exact Or.inl (by simp [same])
  holds more := by omega

/-- Published numbers are distinct, so a number names one entry. -/
theorem ledger_entry_unique (h : Ledger request completed writer slot published processed)
    {e f : Entry H P} (first : e ∈ published) (second : f ∈ published) (same : e.id = f.id) :
    e = f :=
  List.inj_on_of_nodup_map h.distinct first second same

theorem ledger_pending_unique (h : Ledger request completed writer slot published processed)
    {e f : Entry H P} (first : e ∈ published) (second : f ∈ published)
    (open_ : e.id ∉ processed) (open' : f.id ∉ processed) : e = f := by
  rcases h.pending e first with old | ⟨same, -⟩
  · exact absurd old open_
  · rcases h.pending f second with old | ⟨same', -⟩
    · exact absurd old open'
    · exact ledger_entry_unique h first second (same.trans same'.symm)

theorem ledger_pending_open (h : Ledger request completed writer slot published processed)
    (waiting : request = completed + 2) : request ∉ processed := by
  intro old
  have := (h.settled request old).1
  omega

end SlotLedger
