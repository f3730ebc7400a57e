import Mathlib.Logic.Relation

/- Machines whose step is a partial function of a state and an action. An
   interleaving is the list of actions taken, so a run is replayed by `exec`. -/
namespace Runs

structure Machine (State Act : Type) where
  init : State → Prop
  step : State → Act → Option State

variable {State Act : Type} (m : Machine State Act)

def Machine.exec : State → List Act → Option State
  | s, [] => some s
  | s, a :: rest => (m.step s a).bind fun next => exec next rest

def Machine.Reachable (s : State) : Prop :=
  ∃ start actions, m.init start ∧ m.exec start actions = some s

@[simp] theorem exec_nil (s : State) : m.exec s [] = some s := rfl

theorem exec_cons_iff {s t : State} {a : Act} {rest : List Act} :
    m.exec s (a :: rest) = some t ↔
      ∃ next, m.step s a = some next ∧ m.exec next rest = some t := by
  simp [Machine.exec, Option.bind_eq_some_iff]

theorem exec_append {s t u : State} {first second : List Act}
    (left : m.exec s first = some t) (right : m.exec t second = some u) :
    m.exec s (first ++ second) = some u := by
  induction first generalizing s with
  | nil =>
    simp only [exec_nil, Option.some.injEq] at left
    subst t
    exact right
  | cons a rest ih =>
    obtain ⟨next, taken, tail⟩ := (exec_cons_iff m).mp left
    exact (exec_cons_iff m).mpr ⟨next, taken, ih tail⟩

theorem reachable_start {s : State} (h : m.init s) : m.Reachable s :=
  ⟨s, [], h, rfl⟩

theorem reachable_exec {s t : State} {actions : List Act} (h : m.Reachable s)
    (run : m.exec s actions = some t) : m.Reachable t := by
  obtain ⟨start, before, begun, reached⟩ := h
  exact ⟨start, before ++ actions, begun, exec_append m reached run⟩

theorem reachable_step {s t : State} {a : Act} (h : m.Reachable s)
    (taken : m.step s a = some t) : m.Reachable t := by
  have run : m.exec s [a] = some t := (exec_cons_iff m).mpr ⟨t, taken, rfl⟩
  exact reachable_exec m h run

/-- The induction over a run, stated once: what every step from a state with P
   keeps, the whole run keeps. -/
theorem exec_preserves {P : State → Prop}
    (kept : ∀ s a t, P s → m.step s a = some t → P t)
    {s t : State} {actions : List Act} (h : P s) (run : m.exec s actions = some t) : P t := by
  induction actions generalizing s with
  | nil =>
    simp only [exec_nil, Option.some.injEq] at run
    subst t
    exact h
  | cons a rest ih =>
    obtain ⟨next, taken, tail⟩ := (exec_cons_iff m).mp run
    exact ih (kept s a next h taken) tail

/-- The same where P also tells of the actions taken so far. -/
theorem exec_preserves_past {P : List Act → State → Prop}
    (kept : ∀ past s a t, P past s → m.step s a = some t → P (past ++ [a]) t)
    {past actions : List Act} {s t : State} (h : P past s) (run : m.exec s actions = some t) :
    P (past ++ actions) t := by
  induction actions generalizing past s with
  | nil =>
    simp only [exec_nil, Option.some.injEq] at run
    subst t
    rw [List.append_nil]
    exact h
  | cons a rest ih =>
    obtain ⟨next, taken, tail⟩ := (exec_cons_iff m).mp run
    have later := ih (kept past s a next h taken) tail
    rw [List.append_assoc] at later
    exact later

structure Invariant (P : State → Prop) : Prop where
  start : ∀ s, m.init s → P s
  kept : ∀ s a t, P s → m.step s a = some t → P t

theorem reachable_invariant {P : State → Prop} (inv : Invariant m P) {s : State}
    (h : m.Reachable s) : P s := by
  obtain ⟨start, actions, begun, run⟩ := h
  exact exec_preserves m inv.kept (inv.start start begun) run

/-- An invariant may lean on one already known of every reachable state. -/
theorem reachable_invariant_using {P Q : State → Prop} (known : ∀ s, m.Reachable s → Q s)
    (start : ∀ s, m.init s → P s)
    (kept : ∀ s a t, Q s → P s → m.step s a = some t → P t) {s : State}
    (h : m.Reachable s) : P s := by
  obtain ⟨begin, actions, begun, run⟩ := h
  have both : m.Reachable s ∧ P s :=
    exec_preserves m
      (fun u a t (hu : m.Reachable u ∧ P u) taken =>
        ⟨reachable_step m hu.1 taken, kept u a t (known u hu.1) hu.2 taken⟩)
      ⟨reachable_start m begun, start begin begun⟩ run
  exact both.2

theorem exec_monotone {R : State → State → Prop} (refl : ∀ s, R s s)
    (trans : ∀ s t u, R s t → R t u → R s u)
    (kept : ∀ s a t, m.Reachable s → m.step s a = some t → R s t)
    {s t : State} {actions : List Act} (h : m.Reachable s)
    (run : m.exec s actions = some t) : R s t := by
  have both : m.Reachable t ∧ R s t :=
    exec_preserves m
      (fun u a v (hu : m.Reachable u ∧ R s u) taken =>
        ⟨reachable_step m hu.1 taken, trans s u v hu.2 (kept u a v hu.1 taken)⟩)
      ⟨h, refl s⟩ run
  exact both.2

/-- P holds of every step taken along a run, which ends where a step is refused. -/
def Machine.Along (P : State → Act → Prop) : State → List Act → Prop
  | _, [] => True
  | s, a :: rest => P s a ∧ ∀ next ∈ m.step s a, Machine.Along P next rest

instance decidableAlong (P : State → Act → Prop) [∀ s a, Decidable (P s a)] :
    ∀ s actions, Decidable (m.Along P s actions)
  | _, [] => inferInstanceAs (Decidable True)
  | s, a :: rest =>
    have := fun next => decidableAlong P next rest
    inferInstanceAs (Decidable (P s a ∧ ∀ next ∈ m.step s a, m.Along P next rest))

theorem along_imp {P Q : State → Act → Prop}
    (each : ∀ s a, m.Reachable s → P s a → Q s a) {s : State} {actions : List Act}
    (h : m.Reachable s) (along : m.Along P s actions) : m.Along Q s actions := by
  induction actions generalizing s with
  | nil => trivial
  | cons a rest ih =>
    obtain ⟨here, later⟩ := along
    constructor
    · exact each s a h here
    · intro next taken
      exact ih (reachable_step m h taken) (later next taken)

theorem along_at {P : State → Act → Prop} {s t : State} {a : Act} {before after : List Act}
    (along : m.Along P s (before ++ a :: after)) (run : m.exec s before = some t) : P t a := by
  induction before generalizing s with
  | nil =>
    simp only [exec_nil, Option.some.injEq] at run
    subst t
    exact along.1
  | cons b rest ih =>
    obtain ⟨next, taken, tail⟩ := (exec_cons_iff m).mp run
    exact ih (along.2 next taken) tail

/-- What the steps that P allows keep, a run of such steps keeps. -/
theorem along_preserves {P : State → Act → Prop} {Q : State → Prop}
    (kept : ∀ s a t, m.Reachable s → P s a → Q s → m.step s a = some t → Q t)
    {s t : State} {actions : List Act} (reach : m.Reachable s) (h : Q s)
    (along : m.Along P s actions) (run : m.exec s actions = some t) : Q t := by
  induction actions generalizing s with
  | nil =>
    simp only [exec_nil, Option.some.injEq] at run
    subst t
    exact h
  | cons a rest ih =>
    obtain ⟨next, taken, tail⟩ := (exec_cons_iff m).mp run
    have moved := kept s a next reach along.1 h taken
    exact ih (reachable_step m reach taken) moved (along.2 next taken) tail

/-- What the steps of a run bring about, in order. -/
def Machine.history {E : Type} (events : State → Act → List E) : State → List Act → List E
  | _, [] => []
  | s, a :: rest => events s a ++ ((m.step s a).map fun next => Machine.history events next rest).getD []

theorem history_preserves {E : Type} {events : State → Act → List E} {P : List E → State → Prop}
    (kept : ∀ log s a t, m.Reachable s → P log s → m.step s a = some t → P (log ++ events s a) t)
    {log : List E} {s t : State} {actions : List Act} (reach : m.Reachable s) (h : P log s)
    (run : m.exec s actions = some t) : P (log ++ m.history events s actions) t := by
  induction actions generalizing log s with
  | nil =>
    simp only [exec_nil, Option.some.injEq] at run
    subst t
    rw [Machine.history, List.append_nil]
    exact h
  | cons a rest ih =>
    obtain ⟨next, taken, tail⟩ := (exec_cons_iff m).mp run
    have later := ih (reachable_step m reach taken) (kept log s a next reach h taken) tail
    rw [Machine.history, taken, Option.map_some, Option.getD_some, ← List.append_assoc]
    exact later

/-- A machine whose steps are steps of another one, or none, after `view`. -/
theorem reachable_view {State' Act' : Type} (m' : Machine State' Act') (view : State → State')
    (start : ∀ s, m.init s → m'.init (view s))
    (kept : ∀ s a t, m.step s a = some t → view t = view s ∨ ∃ b, m'.step (view s) b = some (view t))
    {s : State} (h : m.Reachable s) : m'.Reachable (view s) := by
  obtain ⟨begin, actions, begun, run⟩ := h
  refine exec_preserves m (P := fun s => m'.Reachable (view s)) ?_
    (reachable_start m' (start begin begun)) run
  intro u a t reach taken
  rcases kept u a t taken with same | ⟨b, moved⟩
  · rw [same]
    exact reach
  · exact reachable_step m' reach moved

section Turns

variable {Owner : Type}

def TakeTurns (owners : List Owner) : Prop :=
  ∀ (i j k : Nat) (x y : Owner), i ≤ j → j ≤ k →
    owners[i]? = some x → owners[j]? = some y → owners[k]? = some x → y = x

theorem takeTurns_nil : TakeTurns ([] : List Owner) := by
  intro i j k x y _ _ first
  cases first

theorem takeTurns_append {owners : List Owner} {x : Owner} (turns : TakeTurns owners)
    (newest : x ∈ owners → owners.getLast? = some x) : TakeTurns (owners ++ [x]) := by
  intro i j k y z le le' first middle last
  have bound : k < (owners ++ [x]).length := (List.getElem?_eq_some_iff.mp last).1
  rw [List.length_append, List.length_singleton] at bound
  by_cases old : k < owners.length
  · rw [List.getElem?_append_left (by omega)] at first middle last
    exact turns i j k y z le le' first middle last
  · have end_ : k = owners.length := by omega
    subst end_
    rw [List.getElem?_concat_length] at last
    cases last
    by_cases before : j < owners.length
    · rw [List.getElem?_append_left (by omega)] at first middle
      have member : x ∈ owners := List.mem_of_getElem? first
      have latest := newest member
      rw [List.getLast?_eq_getElem?] at latest
      exact turns i j (owners.length - 1) x z le (by omega) first middle latest
    · have same : j = owners.length := by omega
      subst same
      rw [List.getElem?_concat_length] at middle
      cases middle
      rfl

end Turns

end Runs
