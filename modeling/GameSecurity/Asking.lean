import Mathlib.Data.List.Forall2

/- Programs that ask a world they do not own: after each question they go on with whatever it
   answers. The world may change between two questions. -/

inductive Asking (Q : Type) (A : Q → Type) (α : Type) where
  | done (a : α)
  | ask (q : Q) (next : A q → Asking Q A α)

namespace Asking

variable {Q : Type} {A : Q → Type} {α β γ : Type}

def bind : Asking Q A α → (α → Asking Q A β) → Asking Q A β
  | .done a, f => f a
  | .ask q next, f => .ask q fun answer => (next answer).bind f

instance : Monad (Asking Q A) where
  pure := .done
  bind := bind

def question (q : Q) : Asking Q A (A q) := .ask q .done

/-- What the program comes to and what it asks, if the world gives these answers. The world is
    told how many questions it has answered. -/
def run (world : Nat → (q : Q) → A q) : Nat → Asking Q A α → α × List Q
  | _, .done a => (a, [])
  | n, .ask q next =>
    let rest := run world (n + 1) (next (world n q))
    (rest.1, q :: rest.2)

/-- Whatever it is answered, the program asks only what is allowed and comes to what is wanted. -/
def Ensures (allowed : Q → Prop) (wanted : α → Prop) : Asking Q A α → Prop
  | .done a => wanted a
  | .ask q next => allowed q ∧ ∀ answer, (next answer).Ensures allowed wanted

def collect (f : α → Asking Q A (Option β)) : List α → Asking Q A (List β)
  | [] => pure []
  | a :: rest => do
    let found ← f a
    let others ← collect f rest
    return found.toList ++ others

/-- Goes on with what was found, and finds nothing where there is nothing. -/
def need (p : Asking Q A (Option α)) (f : α → Asking Q A (Option β)) : Asking Q A (Option β) := do
  match ← p with
  | none => return none
  | some a => f a

variable {allowed : Q → Prop} {wanted : α → Prop} {later : β → Prop}

theorem ensures_done {a : α} (here : wanted a) :
    Ensures allowed wanted (pure a : Asking Q A α) := here

theorem ensures_ask {q : Q} {next : A q → Asking Q A α} (ok : allowed q)
    (each : ∀ answer, Ensures allowed wanted (next answer)) :
    Ensures allowed wanted (.ask q next) := ⟨ok, each⟩

theorem ensures_question {q : Q} {wanted : A q → Prop} (ok : allowed q)
    (each : ∀ answer, wanted answer) : Ensures allowed wanted (question q) := ⟨ok, each⟩

theorem ensures_bind {P : α → Prop} {p : Asking Q A α} {f : α → Asking Q A β}
    (first : Ensures allowed P p) (rest : ∀ a, P a → Ensures allowed later (f a)) :
    Ensures allowed later (p >>= f) := by
  induction p with
  | done a => exact rest a first
  | ask q next ih =>
    apply ensures_ask first.1
    intro answer
    exact ih answer (first.2 answer)

theorem ensures_map {p : Asking Q A α} {f : α → β}
    (first : Ensures allowed (fun a => later (f a)) p) : Ensures allowed later (f <$> p) :=
  ensures_bind first fun _ here => here

theorem ensures_imp {P : α → Prop} {p : Asking Q A α} (first : Ensures allowed P p)
    (weaker : ∀ a, P a → wanted a) : Ensures allowed wanted p := by
  induction p with
  | done a => exact weaker a first
  | ask q next ih =>
    apply ensures_ask first.1
    intro answer
    exact ih answer (first.2 answer)

theorem ensures_ite {c : Prop} [Decidable c] {p q : Asking Q A α}
    (yes : c → Ensures allowed wanted p) (no : ¬ c → Ensures allowed wanted q) :
    Ensures allowed wanted (if c then p else q) := by
  split
  · exact yes ‹c›
  · exact no ‹¬ c›

theorem ensures_none : Ensures allowed (fun found => ∀ a ∈ found, wanted a)
    (pure none : Asking Q A (Option α)) := by
  apply ensures_done
  intro a member
  cases member

theorem ensures_need {p : Asking Q A (Option α)} {f : α → Asking Q A (Option β)}
    (first : Ensures allowed (fun found => ∀ a ∈ found, wanted a) p)
    (rest : ∀ a, wanted a → Ensures allowed (fun found => ∀ b ∈ found, later b) (f a)) :
    Ensures allowed (fun found => ∀ b ∈ found, later b) (need p f) := by
  apply ensures_bind first
  intro found good
  cases found with
  | none => exact ensures_none
  | some a => exact rest a (good a rfl)

theorem ensures_collect {f : α → Asking Q A (Option β)} {R : α → β → Prop} {xs : List α}
    (each : ∀ x ∈ xs, Ensures allowed (fun found => ∀ b ∈ found, R x b) (f x)) :
    Ensures allowed (fun bs => ∃ ys, ys.Sublist xs ∧ List.Forall₂ R ys bs) (collect f xs) := by
  induction xs with
  | nil => exact ⟨[], .refl [], .nil⟩
  | cons x rest ih =>
    apply ensures_bind (each x List.mem_cons_self)
    intro found good
    apply ensures_bind (ih fun y member => each y (List.mem_cons_of_mem x member))
    rintro bs ⟨ys, kept, related⟩
    cases found with
    | none => exact ⟨ys, kept.cons x, related⟩
    | some b => exact ⟨x :: ys, kept.cons_cons x, .cons (good b rfl) related⟩

/-- What a program comes to, the rest goes on with, at the question where it is. -/
theorem run_bind (world : Nat → (q : Q) → A q) (n : Nat) (p : Asking Q A α)
    (f : α → Asking Q A β) :
    run world n (p >>= f) =
      let first := run world n p
      let rest := run world (n + first.2.length) (f first.1)
      (rest.1, first.2 ++ rest.2) := by
  induction p generalizing n with
  | done a => rfl
  | ask q next ih =>
    have later := ih (world n q) (n + 1)
    change run world n (.ask q fun answer => next answer >>= f) = _
    rw [run, later]
    simp only [run, List.length_cons, List.cons_append]
    rw [show n + 1 + (run world (n + 1) (next (world n q))).2.length =
      n + ((run world (n + 1) (next (world n q))).2.length + 1) by omega]

/-- In every world the program comes to what is wanted, and asks only what is allowed. -/
theorem ensures_run {p : Asking Q A α} (ensures : Ensures allowed wanted p)
    (world : Nat → (q : Q) → A q) (n : Nat) :
    wanted (run world n p).1 ∧ ∀ q ∈ (run world n p).2, allowed q := by
  induction p generalizing n with
  | done a =>
    constructor
    · exact ensures
    · intro q member
      cases member
  | ask q next ih =>
    obtain ⟨comes, asks⟩ := ih (world n q) (ensures.2 _) (n + 1)
    constructor
    · exact comes
    · intro r member
      rcases List.mem_cons.mp member with first | more
      · rw [first]
        exact ensures.1
      · exact asks r more

end Asking
