import GameSecurity.TeleportMailbox

/- The position words of SharedState: PublishPosition in the game and
   ReadPositionSnapshot in a controller, one read or write of a shared word a step. -/
namespace PositionSeqlock
open Runs TeleportMailbox

/-- A coordinate word with the number of the publication that wrote it, from 1 on. -/
structure Stamped where
  value : Single
  publication : Nat
  deriving DecidableEq, Repr

/-- What PublishPosition does next; `fail` is its other branch. -/
inductive PublisherStage where
  | idle
  | invalidate (position : Vector3)
  | beginSequence (position : Vector3)
  | writeX (position : Vector3)
  | writeY (position : Vector3)
  | writeZ (position : Vector3)
  | endSequence
  | count
  | validate
  | fail
  deriving DecidableEq, Repr

/-- What ReadPositionSnapshot does next. -/
inductive ReaderStage where
  | idle
  | checkValid
  | readBefore
  | readX
  | readY
  | readZ
  | readCount
  | readAfter
  | recheckValid
  | returned (ok : Bool)
  deriving DecidableEq, Repr

/-- The locals of the reader. Kept for its description: how many publications had begun
   when the read and the attempt began, and whether the count was read while a publication
   was about to count itself. -/
structure Reader where
  stage : ReaderStage
  attempt : Nat
  before : Int
  x : Stamped
  y : Stamped
  z : Stamped
  updates : Int
  since : Nat
  begun : Nat
  lagging : Bool
  deriving DecidableEq, Repr

/-- The position words, the two parties and the publications begun so far, in order. -/
structure World where
  sequence : Int
  valid : Int
  updateCount : Int
  x : Stamped
  y : Stamped
  z : Stamped
  publisher : PublisherStage
  reader : Reader
  published : List Vector3

def World.publications (w : World) : Nat := w.published.length

def World.publishStep (w : World) : Option World :=
  match w.publisher with
  | .idle => none
  | .invalidate position => some { w with valid := 0, publisher := .beginSequence position }
  | .beginSequence position =>
    some { w with
      sequence := long (w.sequence + 1)
      published := w.published ++ [position]
      publisher := .writeX position }
  | .writeX position =>
    some { w with x := ⟨position.x, w.publications⟩, publisher := .writeY position }
  | .writeY position =>
    some { w with y := ⟨position.y, w.publications⟩, publisher := .writeZ position }
  | .writeZ position =>
    some { w with z := ⟨position.z, w.publications⟩, publisher := .endSequence }
  | .endSequence => some { w with sequence := long (w.sequence + 1), publisher := .count }
  | .count => some { w with updateCount := long (w.updateCount + 1), publisher := .validate }
  | .validate => some { w with valid := 1, publisher := .idle }
  | .fail => some { w with valid := 0, publisher := .idle }

def attempts : Nat := 20

def Reader.next (r : Reader) : Reader :=
  if r.attempt + 1 < attempts then { r with stage := .readBefore, attempt := r.attempt + 1 }
  else { r with stage := .returned false }

def World.setReader (w : World) (reader : Reader) : World := { w with reader }

def World.readStep (w : World) (r : Reader) : Option World :=
  match r.stage with
  | .checkValid =>
    some (w.setReader
      (if w.valid = 0 then { r with stage := .returned false }
        else { r with stage := .readBefore, attempt := 0 }))
  | .readBefore =>
    some (w.setReader
      (if w.sequence % 2 ≠ 0 then r.next
        else { r with stage := .readX, before := w.sequence, begun := w.publications }))
  | .readX => some (w.setReader { r with x := w.x, stage := .readY })
  | .readY => some (w.setReader { r with y := w.y, stage := .readZ })
  | .readZ => some (w.setReader { r with z := w.z, stage := .readCount })
  | .readCount =>
    some (w.setReader { r with
      updates := w.updateCount, lagging := w.publisher = .count, stage := .readAfter })
  | .readAfter =>
    some (w.setReader
      (if r.before = w.sequence ∧ w.sequence % 2 = 0 then { r with stage := .recheckValid }
        else r.next))
  | .recheckValid =>
    some (w.setReader (if w.valid ≠ 0 then { r with stage := .returned true } else r.next))
  | .idle => none
  | .returned _ => none

/-- `publish` and `read` begin a call, with what GetPosition gave; `publishStep` and
   `readStep` are their next steps, and `reset` is the worker's. -/
inductive Act where
  | publish (result : Option Vector3)
  | publishStep
  | reset
  | read
  | readStep

def World.step (w : World) : Act → Option World
  | .publish result =>
    if w.publisher = .idle then
      some { w with publisher :=
        match publishPosition result with
        | some position => .invalidate position
        | none => .fail }
    else none
  | .publishStep => w.publishStep
  | .reset => some { w with valid := 0 }
  | .read =>
    if w.reader.stage = .idle ∨ w.reader.stage = .returned true ∨
        w.reader.stage = .returned false then
      some (w.setReader { w.reader with stage := .checkValid, since := w.publications })
    else none
  | .readStep => w.readStep w.reader

def Starting (w : World) : Prop :=
  w.sequence = 0 ∧ w.valid = 0 ∧ w.updateCount = 0 ∧ w.publisher = .idle ∧
    w.reader.stage = .idle ∧ w.reader.since = 0 ∧ w.published = []

def seqlock : Machine World Act where
  init := Starting
  step := World.step

def middle : PublisherStage → Bool
  | .writeX _ | .writeY _ | .writeZ _ | .endSequence => true
  | _ => false

/-- The publication begun last is not counted yet. -/
def uncounted (stage : PublisherStage) : Bool := middle stage || stage == .count

/-- The coordinate words between two publications are those of the last one. -/
def LastWritten (w : World) : Prop :=
  ∀ position, w.published.getLast? = some position →
    w.x = ⟨position.x, w.publications⟩ ∧ w.y = ⟨position.y, w.publications⟩ ∧
      w.z = ⟨position.z, w.publications⟩

def WordsAt (w : World) : Prop :=
  match w.publisher with
  | .writeX position => w.published.getLast? = some position
  | .writeY position =>
    w.published.getLast? = some position ∧ w.x = ⟨position.x, w.publications⟩
  | .writeZ position =>
    w.published.getLast? = some position ∧ w.x = ⟨position.x, w.publications⟩ ∧
      w.y = ⟨position.y, w.publications⟩
  | _ => LastWritten w

structure Publishing (w : World) : Prop where
  sequence : w.sequence =
    long (2 * w.publications - if middle w.publisher = true then 1 else 0)
  count : w.updateCount = long (w.publications - if uncounted w.publisher = true then 1 else 0)
  started : w.valid ≠ 0 ∨ uncounted w.publisher = true ∨ w.publisher = .validate →
    0 < w.publications
  words : WordsAt w

theorem long_add (a b : Int) : long (long a + b) = long (a + b) := by
  simp [long, Int.bmod_add_bmod]

theorem long_even (a : Int) : long a % 2 = a % 2 := by
  simp only [long, Int.bmod]
  split <;> omega

/-- Two numbers less than a whole turn apart do not meet on the same word. -/
theorem long_injective {a b : Int} (low : a ≤ b) (near : b < a + 2 ^ 32)
    (same : long a = long b) : a = b := by
  simp only [long, Int.bmod] at same
  split at same <;> split at same <;> omega

theorem publishing_start {w : World} (start : Starting w) : Publishing w := by
  obtain ⟨sequence, valid, count, publisher, -, -, published⟩ := start
  have none : w.publications = 0 := by simp [World.publications, published]
  constructor
  case sequence => simp [sequence, publisher, middle, none, long]
  case count => simp [count, publisher, uncounted, middle, none, long]
  case started => simp [valid, publisher, uncounted, middle]
  case words => simp [WordsAt, publisher, LastWritten, published]

theorem publish_publishing {w v : World} (h : Publishing w) (taken : w.publishStep = some v) :
    Publishing v := by
  have sequence := h.sequence
  have count := h.count
  have started := h.started
  have words := h.words
  cases stage : w.publisher <;>
    simp only [World.publishStep, stage, Option.some.injEq, reduceCtorEq] at taken
  all_goals subst taken
  all_goals simp only [stage, middle, uncounted, WordsAt] at sequence count started words
  case invalidate position =>
    constructor
    case sequence => exact sequence
    case count => exact count
    case started => simp [uncounted, middle]
    case words => exact words
  case beginSequence position =>
    constructor
    case sequence =>
      simp only [sequence, long_add, World.publications, middle, List.length_append,
        List.length_singleton]
      congr 1
      simp
      omega
    case count =>
      simp only [count, World.publications, uncounted, middle, List.length_append,
        List.length_singleton]
      congr 1
      simp
    case started => exact fun _ => by simp [World.publications]
    case words => simp [WordsAt]
  case writeX position =>
    constructor
    case sequence => exact sequence
    case count => exact count
    case started => exact fun _ => started (Or.inr (Or.inl rfl))
    case words => exact ⟨words, rfl⟩
  case writeY position =>
    constructor
    case sequence => exact sequence
    case count => exact count
    case started => exact fun _ => started (Or.inr (Or.inl rfl))
    case words => exact ⟨words.1, words.2, rfl⟩
  case writeZ position =>
    constructor
    case sequence => exact sequence
    case count => exact count
    case started => exact fun _ => started (Or.inr (Or.inl rfl))
    case words =>
      intro last same
      obtain ⟨written, x, y⟩ := words
      have equal : position = last := Option.some.inj (written.symm.trans same)
      subst equal
      exact ⟨x, y, rfl⟩
  case endSequence =>
    constructor
    case sequence =>
      simp only [sequence, long_add, World.publications, middle]
      congr 1
      simp
    case count => exact count
    case started => exact fun _ => started (Or.inr (Or.inl rfl))
    case words => exact words
  case count =>
    have positive := started (Or.inr (Or.inl rfl))
    constructor
    case sequence => exact sequence
    case count =>
      simp only [count, long_add, World.publications, uncounted, middle]
      congr 1
      simp
    case started => exact fun _ => positive
    case words => exact words
  case validate =>
    have positive := started (by simp)
    constructor
    case sequence => exact sequence
    case count => exact count
    case started => exact fun _ => positive
    case words => exact words
  case fail =>
    constructor
    case sequence => exact sequence
    case count => exact count
    case started => simp [uncounted, middle]
    case words => exact words

def tookX : ReaderStage → Bool
  | .readY | .readZ | .readCount | .readAfter => true
  | _ => false

def tookY : ReaderStage → Bool
  | .readZ | .readCount | .readAfter => true
  | _ => false

def tookZ : ReaderStage → Bool
  | .readCount | .readAfter => true
  | _ => false

def attempting : ReaderStage → Bool
  | .readX | .readY | .readZ | .readCount | .readAfter => true
  | _ => false

def underWay (stage : ReaderStage) : Bool :=
  attempting stage || stage == .readBefore || stage == .recheckValid

/-- While no publication has begun since the attempt did, its copies are the words. -/
structure Attempt (w : World) (r : Reader) : Prop where
  positive : 0 < r.begun
  since : r.since ≤ r.begun
  begun : r.begun ≤ w.publications
  before : r.before = long (2 * r.begun)
  quiet : w.publications = r.begun → middle w.publisher = false
  x : w.publications = r.begun → tookX r.stage = true → r.x = w.x
  y : w.publications = r.begun → tookY r.stage = true → r.y = w.y
  z : w.publications = r.begun → tookZ r.stage = true → r.z = w.z
  updates : w.publications = r.begun → r.stage = .readAfter →
    r.updates = long (r.begun - if r.lagging = true then 1 else 0)

/-- The copies are those of the publication begun last when the attempt began. -/
structure Accepted (w : World) (r : Reader) : Prop where
  positive : 0 < r.begun
  words : ∃ position, w.published[r.begun - 1]? = some position ∧
    r.x = ⟨position.x, r.begun⟩ ∧ r.y = ⟨position.y, r.begun⟩ ∧ r.z = ⟨position.z, r.begun⟩
  updates : r.updates = long (r.begun - if r.lagging = true then 1 else 0)

/-- Fewer than 2 ^ 31 publications since the read began. -/
def Few (w : World) (r : Reader) : Prop := w.publications < r.since + 2 ^ 31

structure Reading (w : World) (r : Reader) : Prop where
  since : r.since ≤ w.publications
  started : underWay r.stage = true → 0 < w.publications
  attempt : attempting r.stage = true → Attempt w r
  accepted : r.stage = .recheckValid ∨ r.stage = .returned true → Few w r → Accepted w r

/-- What a step of another party leaves to the reader. -/
structure Frame (w v : World) : Prop where
  grows : w.publications ≤ v.publications
  kept : ∀ (i : Nat) (position : Vector3), w.published[i]? = some position →
    v.published[i]? = some position
  quiet : v.publications = w.publications → middle w.publisher = false →
    middle v.publisher = false ∧ v.x = w.x ∧ v.y = w.y ∧ v.z = w.z

theorem frame_same {w v : World} (published : v.published = w.published)
    (quiet : middle w.publisher = false →
      middle v.publisher = false ∧ v.x = w.x ∧ v.y = w.y ∧ v.z = w.z) : Frame w v where
  grows := by simp [World.publications, published]
  kept i position member := by rw [published]; exact member
  quiet _ := quiet

theorem publish_frame {w v : World} (taken : w.publishStep = some v) : Frame w v := by
  cases stage : w.publisher <;>
    simp only [World.publishStep, stage, Option.some.injEq, reduceCtorEq] at taken
  all_goals subst taken
  case beginSequence position =>
    constructor
    case grows => simp [World.publications]
    case kept =>
      intro i position member
      have bound := (List.getElem?_eq_some_iff.mp member).1
      rw [List.getElem?_append_left bound]
      exact member
    case quiet => simp [World.publications]
  all_goals
    refine frame_same rfl fun before => ?_
    rw [stage] at before
  case writeX position => cases before
  case writeY position => cases before
  case writeZ position => cases before
  case endSequence => cases before
  all_goals exact ⟨rfl, rfl, rfl, rfl⟩

theorem attempt_frame {w v : World} {r : Reader} (frame : Frame w v) (h : Attempt w r) :
    Attempt v r := by
  have grows := frame.grows
  have begun := h.begun
  have same : v.publications = r.begun → w.publications = r.begun ∧
      middle v.publisher = false ∧ v.x = w.x ∧ v.y = w.y ∧ v.z = w.z := by
    intro last
    have before : w.publications = r.begun := by omega
    exact ⟨before, frame.quiet (by omega) (h.quiet before)⟩
  constructor
  case positive => exact h.positive
  case since => exact h.since
  case begun => omega
  case before => exact h.before
  case quiet => exact fun last => (same last).2.1
  case x => exact fun last took => (h.x (same last).1 took).trans (same last).2.2.1.symm
  case y => exact fun last took => (h.y (same last).1 took).trans (same last).2.2.2.1.symm
  case z => exact fun last took => (h.z (same last).1 took).trans (same last).2.2.2.2.symm
  case updates => exact fun last => h.updates (same last).1

theorem reading_frame {w v : World} {r : Reader} (frame : Frame w v) (h : Reading w r) :
    Reading v r := by
  have grows := frame.grows
  have since := h.since
  constructor
  case since => omega
  case started =>
    intro stage
    have positive := h.started stage
    omega
  case attempt => exact fun stage => attempt_frame frame (h.attempt stage)
  case accepted =>
    intro stage few
    unfold Few at few
    obtain ⟨positive, ⟨position, member, copies⟩, updates⟩ :=
      h.accepted stage (by unfold Few; omega)
    exact ⟨positive, ⟨position, frame.kept _ _ member, copies⟩, updates⟩

theorem reading_plain {w : World} {r : Reader} (since : r.since ≤ w.publications)
    (started : underWay r.stage = true → 0 < w.publications)
    (outside : attempting r.stage = false) (first : r.stage ≠ .recheckValid)
    (second : r.stage ≠ .returned true) : Reading w r where
  since := since
  started := started
  attempt inside := by rw [outside] at inside; cases inside
  accepted stage := absurd stage (not_or.mpr ⟨first, second⟩)

theorem reading_next {w : World} {r : Reader} (since : r.since ≤ w.publications)
    (positive : 0 < w.publications) : Reading w r.next := by
  unfold Reader.next
  split
  · exact reading_plain since (fun _ => positive) rfl (by simp) (by simp)
  · exact reading_plain since (fun _ => positive) rfl (by simp) (by simp)

theorem reading_copy {w : World} {r : Reader} (stage : attempting r.stage = true)
    (attempt : Attempt w r) : Reading w r := by
  have since := attempt.since
  have begun := attempt.begun
  have positive := attempt.positive
  constructor
  case since => omega
  case started => exact fun _ => by omega
  case attempt => exact fun _ => attempt
  case accepted =>
    intro accepted
    rcases accepted with same | same <;> rw [same] at stage <;> cases stage

/-- An attempt that finds the sequence word unchanged was made within one publication. -/
theorem attempt_accepted {w : World} {r : Reader} (publishing : Publishing w)
    (h : Attempt w r) (stage : r.stage = .readAfter) (same : r.before = w.sequence)
    (few : Few w r) : Accepted w r := by
  have begun := h.begun
  have since := h.since
  have positive := h.positive
  have sequence := publishing.sequence
  rw [← same, h.before] at sequence
  unfold Few at few
  have last : w.publications = r.begun := by
    by_contra later
    have met := long_injective (by split <;> omega) (by split <;> omega) sequence
    split at met <;> omega
  have quiet := h.quiet last
  have words : LastWritten w := by
    have words := publishing.words
    unfold WordsAt at words
    cases publisher : w.publisher <;> rw [publisher] at words quiet
    case writeX => cases quiet
    case writeY => cases quiet
    case writeZ => cases quiet
    all_goals exact words
  obtain ⟨position, member⟩ : ∃ position, w.published[r.begun - 1]? = some position := by
    refine ⟨_, List.getElem?_eq_getElem ?_⟩
    show r.begun - 1 < w.publications
    omega
  have written := words position (by
    rw [List.getLast?_eq_getElem?]
    show w.published[w.publications - 1]? = some position
    rw [last]
    exact member)
  rw [last] at written
  constructor
  case positive => exact positive
  case words =>
    refine ⟨position, member, ?_, ?_, ?_⟩
    · exact (h.x last (by rw [stage]; rfl)).trans written.1
    · exact (h.y last (by rw [stage]; rfl)).trans written.2.1
    · exact (h.z last (by rw [stage]; rfl)).trans written.2.2
  case updates => exact h.updates last stage

theorem attempt_copy {w : World} {r next : Reader} (h : Attempt w r)
    (same : next.begun = r.begun ∧ next.since = r.since ∧ next.before = r.before)
    (x : w.publications = r.begun → tookX next.stage = true → next.x = w.x)
    (y : w.publications = r.begun → tookY next.stage = true → next.y = w.y)
    (z : w.publications = r.begun → tookZ next.stage = true → next.z = w.z)
    (updates : w.publications = r.begun → next.stage = .readAfter →
      next.updates = long (r.begun - if next.lagging = true then 1 else 0)) :
    Attempt (w.setReader next) next := by
  obtain ⟨begun, since, before⟩ := same
  constructor
  case positive =>
    rw [begun]
    exact h.positive
  case since =>
    rw [since, begun]
    exact h.since
  case begun =>
    rw [begun]
    exact h.begun
  case before =>
    rw [before, begun]
    exact h.before
  case quiet =>
    rw [begun]
    exact h.quiet
  case x =>
    rw [begun]
    exact x
  case y =>
    rw [begun]
    exact y
  case z =>
    rw [begun]
    exact z
  case updates =>
    rw [begun]
    exact updates

theorem begin_attempt {w : World} {r : Reader} (publishing : Publishing w)
    (since : r.since ≤ w.publications) (positive : 0 < w.publications)
    (even : ¬ w.sequence % 2 ≠ 0) (stage : r.stage = .readX) (before : r.before = w.sequence)
    (begun : r.begun = w.publications) : Attempt (w.setReader r) r := by
  have sequence := publishing.sequence
  have rest : middle w.publisher = false := by
    rw [← Bool.not_eq_true]
    intro busy
    rw [if_pos busy] at sequence
    have parity := long_even (2 * w.publications - 1)
    rw [← sequence] at parity
    omega
  constructor
  case positive => exact begun ▸ positive
  case since => exact begun ▸ since
  case begun => exact Nat.le_of_eq begun
  case before =>
    rw [rest, if_neg (by simp), Int.sub_zero] at sequence
    rw [before, sequence, begun]
  case quiet => exact fun _ => rest
  case x => exact fun _ took => by rw [stage] at took; cases took
  case y => exact fun _ took => by rw [stage] at took; cases took
  case z => exact fun _ took => by rw [stage] at took; cases took
  case updates => exact fun _ late => by rw [stage] at late; cases late

theorem read_reading {w v : World} (publishing : Publishing w) (h : Reading w w.reader)
    (taken : w.readStep w.reader = some v) : Reading v v.reader := by
  have since := h.since
  have same : w.reader.begun = w.reader.begun ∧ w.reader.since = w.reader.since ∧
      w.reader.before = w.reader.before := ⟨rfl, rfl, rfl⟩
  cases stage : w.reader.stage <;>
    simp only [World.readStep, stage, Option.some.injEq, reduceCtorEq] at taken
  all_goals subst taken
  case checkValid =>
    by_cases invalid : w.valid = 0
    · rw [if_pos invalid]
      exact reading_plain since (fun inside => by cases inside) rfl (by simp [World.setReader])
        (by simp [World.setReader])
    · rw [if_neg invalid]
      exact reading_plain since (fun _ => publishing.started (Or.inl invalid)) rfl
        (by simp [World.setReader]) (by simp [World.setReader])
  case readBefore =>
    have positive := h.started (by rw [stage]; rfl)
    by_cases odd : w.sequence % 2 ≠ 0
    · rw [if_pos odd]
      exact reading_next since positive
    · rw [if_neg odd]
      exact reading_copy rfl (begin_attempt publishing since positive odd rfl rfl rfl)
  case readX =>
    have attempt := h.attempt (by rw [stage]; rfl)
    refine reading_copy rfl (attempt_copy attempt same ?_ ?_ ?_ ?_)
    · exact fun _ _ => rfl
    · exact fun _ took => by cases took
    · exact fun _ took => by cases took
    · exact fun _ late => by cases late
  case readY =>
    have attempt := h.attempt (by rw [stage]; rfl)
    refine reading_copy rfl (attempt_copy attempt same ?_ ?_ ?_ ?_)
    · exact fun last _ => attempt.x last (by rw [stage]; rfl)
    · exact fun _ _ => rfl
    · exact fun _ took => by cases took
    · exact fun _ late => by cases late
  case readZ =>
    have attempt := h.attempt (by rw [stage]; rfl)
    refine reading_copy rfl (attempt_copy attempt same ?_ ?_ ?_ ?_)
    · exact fun last _ => attempt.x last (by rw [stage]; rfl)
    · exact fun last _ => attempt.y last (by rw [stage]; rfl)
    · exact fun _ _ => rfl
    · exact fun _ late => by cases late
  case readCount =>
    have attempt := h.attempt (by rw [stage]; rfl)
    refine reading_copy rfl (attempt_copy attempt same ?_ ?_ ?_ ?_)
    · exact fun last _ => attempt.x last (by rw [stage]; rfl)
    · exact fun last _ => attempt.y last (by rw [stage]; rfl)
    · exact fun last _ => attempt.z last (by rw [stage]; rfl)
    · intro last _
      have count := publishing.count
      rw [last] at count
      simpa [uncounted, attempt.quiet last] using count
  case readAfter =>
    have attempt := h.attempt (by rw [stage]; rfl)
    have positive := h.started (by rw [stage]; rfl)
    by_cases met : w.reader.before = w.sequence ∧ w.sequence % 2 = 0
    · rw [if_pos met]
      constructor
      case since => exact since
      case started => exact fun _ => positive
      case attempt => exact fun inside => by cases inside
      case accepted =>
        intro _ few
        obtain ⟨begun, words, updates⟩ := attempt_accepted publishing attempt stage met.1 few
        exact ⟨begun, words, updates⟩
    · rw [if_neg met]
      exact reading_next since positive
  case recheckValid =>
    by_cases valid : w.valid ≠ 0
    · rw [if_pos valid]
      constructor
      case since => exact since
      case started => exact fun inside => by cases inside
      case attempt => exact fun inside => by cases inside
      case accepted =>
        intro _ few
        obtain ⟨begun, words, updates⟩ := h.accepted (Or.inl stage) few
        exact ⟨begun, words, updates⟩
    · rw [if_neg valid]
      exact reading_next since (h.started (by rw [stage]; rfl))

theorem step_invariant {w v : World} {a : Act} (publishing : Publishing w)
    (h : Reading w w.reader) (taken : w.step a = some v) :
    Publishing v ∧ Reading v v.reader := by
  cases a with
  | publish result =>
    simp only [World.step, Option.ite_none_right_eq_some, Option.some.injEq] at taken
    obtain ⟨idle, rfl⟩ := taken
    have sequence := publishing.sequence
    have count := publishing.count
    have started := publishing.started
    have words := publishing.words
    simp only [idle, middle, uncounted, WordsAt] at sequence count started words
    constructor
    · cases publishPosition result with
      | none =>
        constructor
        case sequence => exact sequence
        case count => exact count
        case started => exact fun set => started (by simpa [uncounted, middle] using set)
        case words => exact words
      | some position =>
        constructor
        case sequence => exact sequence
        case count => exact count
        case started => exact fun set => started (by simpa [uncounted, middle] using set)
        case words => exact words
    · refine reading_frame (w := w) (frame_same rfl fun _ => ⟨?_, rfl, rfl, rfl⟩) h
      cases publishPosition result <;> rfl
  | publishStep =>
    have same : v.reader = w.reader := by
      simp only [World.step] at taken
      cases stage : w.publisher <;>
        simp only [World.publishStep, stage, Option.some.injEq, reduceCtorEq] at taken
      all_goals subst taken; rfl
    rw [same]
    exact ⟨publish_publishing publishing taken, reading_frame (publish_frame taken) h⟩
  | reset =>
    simp only [World.step, Option.some.injEq] at taken
    subst taken
    constructor
    · constructor
      case sequence => exact publishing.sequence
      case count => exact publishing.count
      case started =>
        intro set
        rcases set with set | set
        · exact absurd rfl set
        · exact publishing.started (Or.inr set)
      case words => exact publishing.words
    · exact reading_frame (w := w) (frame_same rfl fun quiet => ⟨quiet, rfl, rfl, rfl⟩) h
  | read =>
    simp only [World.step, Option.ite_none_right_eq_some, Option.some.injEq] at taken
    obtain ⟨-, rfl⟩ := taken
    constructor
    · exact ⟨publishing.sequence, publishing.count, publishing.started, publishing.words⟩
    · exact reading_plain (Nat.le_refl _) (fun inside => by cases inside) rfl
        (by simp [World.setReader]) (by simp [World.setReader])
  | readStep =>
    refine ⟨?_, read_reading publishing h taken⟩
    simp only [World.step] at taken
    cases stage : w.reader.stage <;>
      simp only [World.readStep, stage, Option.some.injEq, reduceCtorEq] at taken
    all_goals subst taken
    all_goals exact ⟨publishing.sequence, publishing.count, publishing.started, publishing.words⟩

theorem seqlock_invariant : Invariant seqlock fun w => Publishing w ∧ Reading w w.reader where
  start w start := by
    refine ⟨publishing_start start, ?_⟩
    obtain ⟨-, -, -, -, idle, since, -⟩ := start
    have inside : underWay w.reader.stage ≠ true := by simp [idle, underWay, attempting]
    exact reading_plain (by omega) (fun set => absurd set inside) (by rw [idle]; rfl)
      (by simp [idle]) (by simp [idle])
  kept _ _ _ := fun ⟨publishing, h⟩ taken => step_invariant publishing h taken

def OnePublication (w : World) : Prop :=
  ∃ (n : Nat) (position : Vector3), w.published[n]? = some position ∧
    w.reader.x = ⟨position.x, n + 1⟩ ∧ w.reader.y = ⟨position.y, n + 1⟩ ∧
    w.reader.z = ⟨position.z, n + 1⟩ ∧ w.reader.updates = long (n + 1)

/-- A read that returns true, with fewer than 2 ^ 31 publications in it, gives one
   publication exactly when it did not read the count while the publisher was between its
   second increment of the sequence and its increment of the count. -/
theorem snapshot_one_publication_iff {w : World} (reach : seqlock.Reachable w)
    (returned : w.reader.stage = .returned true) (few : Few w w.reader) :
    OnePublication w ↔ w.reader.lagging = false := by
  obtain ⟨-, h⟩ := reachable_invariant seqlock seqlock_invariant reach
  obtain ⟨positive, ⟨position, member, x, y, z⟩, updates⟩ := h.accepted (Or.inr returned) few
  constructor
  · rintro ⟨n, other, -, same, -, -, count⟩
    have number : w.reader.begun = n + 1 := by
      rw [x] at same
      exact congrArg Stamped.publication same
    rw [← Bool.not_eq_true]
    intro lagging
    rw [count, if_pos lagging, number] at updates
    have wrapped := long_injective (by omega) (by omega) updates.symm
    omega
  · intro current
    have number : w.reader.begun - 1 + 1 = w.reader.begun := by omega
    refine ⟨w.reader.begun - 1, position, member, ?_, ?_, ?_, ?_⟩
    · rw [number]
      exact x
    · rw [number]
      exact y
    · rw [number]
      exact z
    · rw [updates, current, if_neg (by simp), Int.sub_zero]
      congr 1
      omega

theorem snapshot_coordinates {w : World} (reach : seqlock.Reachable w)
    (returned : w.reader.stage = .returned true) (few : Few w w.reader) :
    ∃ (n : Nat) (position : Vector3), w.published[n]? = some position ∧
      w.reader.x = ⟨position.x, n + 1⟩ ∧ w.reader.y = ⟨position.y, n + 1⟩ ∧
      w.reader.z = ⟨position.z, n + 1⟩ := by
  obtain ⟨-, h⟩ := reachable_invariant seqlock seqlock_invariant reach
  obtain ⟨positive, ⟨position, member, copies⟩, -⟩ := h.accepted (Or.inr returned) few
  have number : w.reader.begun - 1 + 1 = w.reader.begun := by omega
  refine ⟨w.reader.begun - 1, position, member, ?_⟩
  rw [number]
  exact copies

def fresh : World where
  sequence := 0
  valid := 0
  updateCount := 0
  x := ⟨0, 0⟩
  y := ⟨0, 0⟩
  z := ⟨0, 0⟩
  publisher := .idle
  reader := ⟨.idle, 0, 0, ⟨0, 0⟩, ⟨0, 0⟩, ⟨0, 0⟩, 0, 0, 0, false⟩
  published := []

theorem fresh_starting : Starting fresh := ⟨rfl, rfl, rfl, rfl, rfl, rfl, rfl⟩

def publishing (position : Vector3) (steps : Nat) : List Act :=
  .publish (some position) :: List.replicate steps .publishStep

def reading (steps : Nat) : List Act := List.replicate steps .readStep

def first : Vector3 := ⟨0x3F800000, 0x40000000, 0x40400000⟩

def second : Vector3 := ⟨0x40400000, 0x40000000, 0x3F800000⟩

/-- The second publication begins while the reader copies the first; its next attempt
   finds the second one. -/
def retried : List Act :=
  publishing first 8 ++ [.read] ++ reading 4 ++ publishing second 8 ++ reading 10

def retriedWorld : World := (seqlock.exec fresh retried).get rfl

theorem snapshot_one_publication_retried :
    retriedWorld.reader.stage = .returned true ∧ retriedWorld.reader.updates = 2 ∧
      OnePublication retriedWorld := by
  refine ⟨rfl, rfl, ?_⟩
  refine (snapshot_one_publication_iff ⟨fresh, retried, fresh_starting, ?_⟩ rfl ?_).mpr rfl
  · exact (Option.some_get _).symm
  · show (2 : Nat) < 1 + 2 ^ 31
    decide

/-- The reader has seen the flag of the first publication and makes its whole attempt after
   the second increment of the sequence in the second one, before its count. -/
def late : List Act :=
  publishing first 8 ++ [.read, .readStep] ++ publishing second 6 ++ reading 6 ++
    [.publishStep, .publishStep, .readStep]

def lateWorld : World := (seqlock.exec fresh late).get rfl

theorem snapshot_late :
    seqlock.Reachable lateWorld ∧ lateWorld.reader.stage = .returned true ∧
      Few lateWorld lateWorld.reader ∧ lateWorld.reader.x = ⟨second.x, 2⟩ ∧
      lateWorld.reader.updates = 1 ∧ ¬ OnePublication lateWorld := by
  refine ⟨⟨fresh, late, fresh_starting, (Option.some_get _).symm⟩, rfl, ?_, rfl, rfl, ?_⟩
  · show (2 : Nat) < 1 + 2 ^ 31
    decide
  · rintro ⟨n, position, -, same, -, -, count⟩
    have number : 2 = n + 1 := congrArg Stamped.publication same
    have updates : lateWorld.reader.updates = 1 := rfl
    have two : n = 1 := by omega
    subst two
    rw [updates] at count
    revert count
    decide

end PositionSeqlock
