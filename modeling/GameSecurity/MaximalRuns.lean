import Mathlib.Data.List.Induction

/- A history of observations, none standing for a break, cut into its maximal runs: an
   observation goes on with the open run while the run keeps the property, and opens the
   next run otherwise. -/
namespace MaximalRuns

variable {α σ : Type} (Run : List α → Prop) [DecidablePred Run]

def extend (run : List α) (a : α) : List α := if Run (run ++ [a]) then run ++ [a] else [a]

def observe (run : List α) : Option α → List α
  | none => []
  | some a => extend Run run a

/-- The run that is open after a history. -/
def openRun (events : List (Option α)) : List α := events.foldl (observe Run) []

variable {Run}

@[simp] theorem openRun_nil : openRun Run [] = [] := rfl

@[simp] theorem openRun_snoc (events : List (Option α)) (e : Option α) :
    openRun Run (events ++ [e]) = observe Run (openRun Run events) e := by
  simp [openRun]

theorem extend_run {run : List α} {a : α} (single : Run [a]) : Run (extend Run run a) := by
  unfold extend
  split
  · assumption
  · exact single

theorem last_mem_extend (run : List α) (a : α) : a ∈ extend Run run a := by
  unfold extend
  split <;> simp

theorem extend_eq_append_iff {run : List α} {a : α} :
    extend Run run a = run ++ [a] ↔ Run (run ++ [a]) ∨ run = [] := by
  unfold extend
  split
  · rename_i goes
    simp [goes]
  · rename_i stops
    simp [stops]

/-- What holds of the state and the open run at the start, after a break and after an
   observation, holds of them after every history. -/
theorem fold_invariant {Inv : σ → List α → Prop} {step : σ → Option α → σ} {start : σ}
    (begun : Inv start []) (broken : ∀ s, Inv (step s none) [])
    (observed : ∀ s run a, Inv s run → Inv (step s (some a)) (extend Run run a))
    (events : List (Option α)) : Inv (events.foldl step start) (openRun Run events) := by
  induction events using List.reverseRecOn with
  | nil => exact begun
  | append_singleton events e ih =>
    rw [List.foldl_append, openRun_snoc]
    cases e with
    | none => exact broken _
    | some a => exact observed _ _ a ih

/-- The open run is the last part of the history. -/
theorem openRun_suffix (events : List (Option α)) :
    ∃ before, events = before ++ (openRun Run events).map some := by
  induction events using List.reverseRecOn with
  | nil => exact ⟨[], rfl⟩
  | append_singleton events e ih =>
    obtain ⟨before, cut⟩ := ih
    rw [openRun_snoc]
    cases e with
    | none => exact ⟨events ++ [none], by simp [observe]⟩
    | some a =>
      by_cases goes : Run (openRun Run events ++ [a])
      · refine ⟨before, ?_⟩
        rw [observe, extend, if_pos goes, List.map_append, ← List.append_assoc, ← cut]
        rfl
      · refine ⟨events, ?_⟩
        rw [observe, extend, if_neg goes]
        rfl

theorem openRun_run (empty : Run []) (single : ∀ a, Run [a]) (events : List (Option α)) :
    Run (openRun Run events) := by
  induction events using List.reverseRecOn with
  | nil => exact empty
  | append_singleton events e ih =>
    rw [openRun_snoc]
    cases e with
    | none => exact empty
    | some a => exact extend_run (single a)

theorem mem_of_openRun {events : List (Option α)} {a : α} (member : a ∈ openRun Run events) :
    some a ∈ events := by
  obtain ⟨before, cut⟩ : ∃ before, events = before ++ (openRun Run events).map some :=
    openRun_suffix events
  rw [cut]
  exact List.mem_append_right before (List.mem_map_of_mem member)

end MaximalRuns
