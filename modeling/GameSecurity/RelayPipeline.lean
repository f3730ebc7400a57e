import Mathlib.Data.List.Sort
import GameSecurity.RelayProducers
import GameSecurity.RelayFreshness
import GameSecurity.RelayPublishRate

/- From a producer's messages to the viewers' sockets. Every run of handleProducer that has
   attached its connection goes through the loop; the server's machine says who has attached and
   the frames' machine what becomes of what is published, each with its own part of a room. -/
namespace RelayPipeline
open Runs RelayRoom RelayConfig RelayProtocol RelayPublishRate
open RelayDelivery (PublishId)

/-- A message that a loop publishes. -/
structure Entry where
  producer : ProducerId
  payload : Bytes
  now : Time
  wall : Time
  deriving DecidableEq

def Entry.read (e : Entry) (dropped : Nat) : Read := ⟨.text e.payload, e.now, e.wall, .ok dropped⟩

inductive Stage
  | absent
  | reading
  | publishing (k : PublishId) (entry : Entry)
  | ended (exit : Exit)
  deriving DecidableEq

/- `first` and `frames` are history: the loop as it began, and what it has published with the
   number of frames that this replaced. -/
structure Line where
  stage : Stage
  loop : Loop
  first : Loop
  frames : List (Entry × Nat)

def Line.reads (line : Line) : List Read := line.frames.map fun frame => frame.1.read frame.2

/-- `accepted` is history: what the loops have published in a room, in order. -/
structure World where
  server : RelayLifecycle.World
  relay : RelayDelivery.World
  lines : ProducerId → Line
  accepted : RoomId → List Entry

def World.setLine (w : World) (p : ProducerId) (line : Line) : World :=
  { w with lines := Function.update w.lines p line }

def World.run (w : World) (p : ProducerId) : RelayLifecycle.ProducerRun := w.server.producerRuns p

def limits (c : Config) : RelayLifecycle.Limits := ⟨c.maxViewersPerSession.toNat, c.snapshotTTL⟩

/- A read comes with the name of the publish it may start and the error of the prepared message,
   if there is one. -/
inductive Act
  | server (a : RelayLifecycle.Act)
  | relay (a : RelayDelivery.Act)
  | begin (p : ProducerId) (opened now : Time)
  | read (p : ProducerId) (k : PublishId) (message : Message) (now wall : Time)
      (fault : Option String)
  | returned (p : ProducerId)
  | leave (p : ProducerId)

/-- A run leaves when its loop has ended. -/
def leaves : RelayLifecycle.Act → Bool
  | .producer _ .leave => true
  | _ => false

/-- Publishing is up to the loops. -/
def publishes : RelayDelivery.Act → Bool
  | .publish _ _ _ _ => true
  | _ => false

/-- The locked section of the publish for a message that passed. -/
def World.publish (c : Config) (w : World) (k : PublishId) (e : Entry) : Option World :=
  let r := (w.run e.producer).room
  (RelayDelivery.step c.snapshotTTL w.relay (.publish k r e.payload e.now)).map fun relay =>
    { w.setLine e.producer { w.lines e.producer with stage := .publishing k e } with
      relay, accepted := Function.update w.accepted r (w.accepted r ++ [e]) }

def step (c : Config) (w : World) : Act → Option World
  | .server a =>
    if leaves a then none
    else (RelayLifecycle.step (limits c) w.server a).map fun server => { w with server }
  | .relay a =>
    if publishes a then none
    else (RelayDelivery.step c.snapshotTTL w.relay a).map fun relay => { w with relay }
  | .begin p opened now =>
    if (w.run p).stage = .reading ∧ (w.lines p).stage = .absent then
      some (w.setLine p ⟨.reading, Loop.start c opened now, Loop.start c opened now, []⟩)
    else none
  | .read p k message now wall fault =>
    let line := w.lines p
    -- the clock that paces the loop never goes back
    if line.stage = .reading ∧ line.loop.limiter.last ≤ now then
      -- how a turn ends does not depend on what publish replaces
      match line.loop.turn c ⟨message, now, wall, fault.elim (.ok 0) .error⟩, message with
      | (loop, some exit), _ => some (w.setLine p { line with stage := .ended exit, loop })
      | (_, none), .text payload => w.publish c k ⟨p, payload, now, wall⟩
      | (_, none), _ => none
    else none
  | .returned p =>
    let line := w.lines p
    match line.stage with
    | .publishing k entry =>
      let call := w.relay.publishes k
      if call.stage = .returned then
        let loop := (line.loop.turn c (entry.read call.dropped)).1
        some (w.setLine p
          { line with stage := .reading, loop, frames := line.frames ++ [(entry, call.dropped)] })
      else none
    | _ => none
  | .leave p =>
    match (w.lines p).stage with
    | .ended _ =>
      (RelayLifecycle.step (limits c) w.server (.producer p .leave)).map fun server =>
        { w with server }
    | _ => none

def pipeline (c : Config) : Machine World Act where
  init w := ∃ maxViewers roomIds first, w =
    ⟨RelayLifecycle.started maxViewers roomIds, RelayDelivery.started maxViewers,
      fun _ => ⟨.absent, first, first, []⟩, fun _ => []⟩
  step := step c

section Server

open RelayLifecycle (ProducerRun ProducerAct producerStep)

/-- The run is over but for its deferred calls. -/
def Settled (run : ProducerRun) : Prop := run.stage = .returning ∨ run.stage = .ended

/-- What an action of a producer's run can do to it, seen from its loop. -/
structure Onward (a : ProducerAct) (old run : ProducerRun) : Prop where
  room : old.stage ≠ .waiting → run.room = old.room
  settled : Settled old → Settled run
  reading : old.stage = .reading → a = .leave ∧ Settled run

theorem producer_onward {w next : RelayLifecycle.World} {p : ProducerId} {a : ProducerAct}
    (taken : producerStep w p (w.producerRuns p) a = some next) :
    Onward a (w.producerRuns p) (next.producerRuns p) := by
  cases a with
  | unwind =>
    simp only [producerStep, Option.ite_none_right_eq_some] at taken
    obtain ⟨stage, taken⟩ := taken
    split at taken
    · cases taken
    · next call rest _ =>
      cases taken
      have kept : (RelayLifecycle.unwindProducer w p { w.producerRuns p with deferred := rest }
            call).producerRuns p = { w.producerRuns p with
              deferred := rest
              releases := ((RelayLifecycle.unwindProducer w p
                { w.producerRuns p with deferred := rest } call).producerRuns p).releases } := by
        cases call <;> simp only [RelayLifecycle.unwindProducer] <;> (try split) <;>
          simp [RelayLifecycle.World.setProducer]
      rw [kept]
      exact ⟨fun _ => rfl, fun _ => Or.inl stage, fun reading => by rw [stage] at reading; cases reading⟩
  | _ =>
    simp only [producerStep, Option.ite_none_right_eq_some] at taken
    obtain ⟨stage, taken⟩ := taken
    (try split at taken) <;> simp only [Option.some.injEq] at taken <;> subst next <;>
      constructor <;> simp_all [Settled, RelayLifecycle.World.setProducer]

theorem server_run {limits : RelayLifecycle.Limits} {w next : RelayLifecycle.World}
    {a : RelayLifecycle.Act} (reach : (RelayLifecycle.server limits).Reachable w)
    (taken : RelayLifecycle.step limits w a = some next) (p : ProducerId) :
    next.producerRuns p = w.producerRuns p ∨
      ∃ b, a = .producer p b ∧ Onward b (w.producerRuns p) (next.producerRuns p) := by
  by_cases producer : ∃ q b, a = .producer q b
  · obtain ⟨q, b, rfl⟩ := producer
    by_cases same : p = q
    · subst q
      exact Or.inr ⟨b, rfl, producer_onward taken⟩
    · have slot := RelayProducers.slot_invariant limits reach
      have effect := RelayProducers.effect (slot.atStage q) taken
      exact Or.inl ((RelayProducers.effect_frame effect).2.2 p same)
  · have places := reachable_invariant _ (RelayViewers.places_invariant limits) reach
    have same := RelayProducers.untouched_step places (fun q b e => producer ⟨q, b, e⟩) taken
    exact Or.inl (congrFun same.producerRuns p)

/-- Of the runs of one room at most one is in its loop. -/
theorem one_reader {limits : RelayLifecycle.Limits} {w : RelayLifecycle.World}
    (reach : (RelayLifecycle.server limits).Reachable w) {p q : ProducerId}
    (left : (w.producerRuns p).stage = .reading) (right : (w.producerRuns q).stage = .reading)
    (room : (w.producerRuns p).room = (w.producerRuns q).room) : p = q := by
  have slot := RelayProducers.slot_invariant limits reach
  have holds : ∀ p, (w.producerRuns p).stage = .reading → RelayProducers.Holds (w.producerRuns p) := by
    intro p reading
    obtain ⟨-, -, here⟩ := slot.atStage p
    simp only [reading] at here
    rw [RelayProducers.Holds]
    omega
  exact RelayProducers.one_holder slot.holders (holds p left) (holds q right) room

end Server

section Frames

open RelayDelivery (Cell Writer Write)

/-- What a step of the frames' machine can do to a viewer's writer. -/
inductive WriterStep (old next : Cell) : Prop
  | same (writer : next.writer = old.writer) (received : next.received = old.received)
      (writes : next.writes = old.writes)
  | started (absent : old.writer = .absent) (waiting : next.writer = .waiting)
      (received : next.received = old.received) (writes : next.writes = old.writes)
  | received (f : Frame) (waiting : old.writer = .waiting) (reading : next.writer = .read f)
      (received : next.received = old.received ++ [f]) (writes : next.writes = old.writes)
  | decided (f : Frame) (reading : old.writer = .read f) (waiting : next.writer = .waiting)
      (received : next.received = old.received)
      (writes : next.writes = old.writes ∨ ∃ x, x.update = f ∧ next.writes = old.writes ++ [x])

/-- What a step that publishes nothing can do, seen from the loops. -/
structure Carried (w next : RelayDelivery.World) : Prop where
  published : next.published = w.published
  writers : ∀ v, WriterStep (w.cells v) (next.cells v)
  calls : ∀ k, (next.publishes k).stage = .offering →
    (w.publishes k).stage = .offering ∧ (next.publishes k).room = (w.publishes k).room

theorem writers_kept {w next : RelayDelivery.World} (cells : next.cells = w.cells) (v : ViewerId) :
    WriterStep (w.cells v) (next.cells v) := by
  rw [cells]
  exact .same rfl rfl rfl

theorem writers_cell {w : RelayDelivery.World} {v : ViewerId} {cell : Cell}
    (moved : WriterStep (w.cells v) cell) (u : ViewerId) :
    WriterStep (w.cells u) ((w.setCell v cell).cells u) := by
  by_cases same : u = v
  · subst u
    simpa [RelayDelivery.World.setCell] using moved
  · simp only [RelayDelivery.World.setCell, Function.update_of_ne same]
    exact .same rfl rfl rfl

theorem writer_accept {c cell : Cell} {update : Frame} {source : RelayDelivery.Source}
    (ok : c.accept update source = some cell) : WriterStep c cell := by
  rw [(RelayFreshness.accept_some ok).2]
  exact .same rfl rfl rfl

theorem calls_one {w next : RelayDelivery.World} {k : PublishId} {call : RelayDelivery.Publish}
    (changed : next.publishes = Function.update w.publishes k call)
    (stage : call.stage = .offering → (w.publishes k).stage = .offering)
    (room : call.room = (w.publishes k).room) (j : PublishId)
    (offering : (next.publishes j).stage = .offering) :
    (w.publishes j).stage = .offering ∧ (next.publishes j).room = (w.publishes j).room := by
  rw [changed] at offering ⊢
  by_cases same : j = k
  · subst j
    rw [Function.update_self] at offering ⊢
    exact ⟨stage offering, room⟩
  · rw [Function.update_of_ne same] at offering ⊢
    exact ⟨offering, rfl⟩

theorem calls_kept {w next : RelayDelivery.World} (same : next.publishes = w.publishes)
    (j : PublishId) (offering : (next.publishes j).stage = .offering) :
    (w.publishes j).stage = .offering ∧ (next.publishes j).room = (w.publishes j).room := by
  rw [same] at offering ⊢
  exact ⟨offering, rfl⟩

theorem relay_carried {ttl : Int} {w next : RelayDelivery.World} {a : RelayDelivery.Act}
    (silent : publishes a = false) (taken : RelayDelivery.step ttl w a = some next) :
    Carried w next := by
  cases a with
  | publish k r payload now => cases silent
  | join v r now =>
    simp only [RelayDelivery.step, Option.ite_none_right_eq_some] at taken
    obtain ⟨-, taken⟩ := taken
    split at taken <;> cases taken <;> exact ⟨rfl, writers_kept rfl, calls_kept rfl⟩
  | initialOffer v =>
    simp only [RelayDelivery.step, Option.ite_none_right_eq_some] at taken
    obtain ⟨-, taken⟩ := taken
    split at taken
    · cases taken
      exact ⟨rfl, writers_kept rfl, calls_kept rfl⟩
    · split at taken
      · cases taken
      · split at taken
        · cases taken
          exact ⟨rfl, writers_kept rfl, calls_kept rfl⟩
        · next cell ok =>
          cases taken
          exact ⟨rfl, writers_cell (writer_accept ok), calls_kept rfl⟩
  | startWriter v =>
    simp only [RelayDelivery.step, Option.ite_none_right_eq_some, Option.some.injEq] at taken
    obtain ⟨⟨-, absent⟩, rfl⟩ := taken
    exact ⟨rfl, writers_cell (.started absent rfl rfl rfl), calls_kept rfl⟩
  | leave v =>
    simp only [RelayDelivery.step, Option.ite_none_right_eq_some, Option.some.injEq] at taken
    obtain ⟨-, rfl⟩ := taken
    exact ⟨rfl, writers_kept rfl, calls_kept rfl⟩
  | offer k v =>
    simp only [RelayDelivery.step, Option.ite_none_right_eq_some] at taken
    obtain ⟨⟨offering, -⟩, taken⟩ := taken
    split at taken
    · cases taken
      exact ⟨rfl, writers_kept rfl, calls_one rfl (fun _ => offering) rfl⟩
    · next cell ok =>
      cases taken
      exact ⟨rfl, writers_cell (writer_accept ok), calls_one rfl (fun _ => offering) rfl⟩
  | finish k =>
    simp only [RelayDelivery.step, Option.ite_none_right_eq_some, Option.some.injEq] at taken
    obtain ⟨⟨offering, -⟩, rfl⟩ := taken
    exact ⟨rfl, writers_kept rfl, calls_one rfl (fun _ => offering) rfl⟩
  | drain v =>
    simp only [RelayDelivery.step] at taken
    split at taken
    · cases taken
      refine ⟨rfl, writers_cell ?_, calls_kept rfl⟩
      rw [RelayFreshness.drain_eq]
      exact .same rfl rfl rfl
    · cases taken
  | send v =>
    simp only [RelayDelivery.step] at taken
    split at taken
    · next update source replaced current =>
      cases taken
      have moved : WriterStep (w.cells v) ((w.cells v).send ⟨update, source, some replaced⟩ replaced) :=
        .same rfl rfl rfl
      cases source with
      | publish k => exact ⟨rfl, writers_cell moved, calls_one rfl (fun offering => offering) rfl⟩
      | handler => exact ⟨rfl, writers_cell moved, calls_kept rfl⟩
    · cases taken
  | receive v =>
    simp only [RelayDelivery.step] at taken
    split at taken
    · next cell ok =>
      cases taken
      obtain ⟨waiting, update, -, rfl⟩ := RelayFreshness.receive_some ok
      exact ⟨rfl, writers_cell (.received update waiting rfl rfl rfl), calls_kept rfl⟩
    · cases taken
  | decide v now =>
    simp only [RelayDelivery.step] at taken
    split at taken
    · next cell ok =>
      cases taken
      obtain ⟨update, reading, late | ⟨deadline, -, written⟩⟩ := RelayFreshness.decide_some ok
      · subst late
        exact ⟨rfl, writers_cell (.decided update reading rfl rfl (Or.inl rfl)), calls_kept rfl⟩
      · subst written
        exact ⟨rfl, writers_cell (.decided update reading rfl rfl (Or.inr ⟨_, rfl, rfl⟩)),
          calls_kept rfl⟩
    · cases taken
  | expire r now =>
    simp only [RelayDelivery.step, Option.some.injEq] at taken
    subst next
    exact ⟨rfl, writers_kept rfl, calls_kept rfl⟩

/-- The frames that are written are received ones, in the same order. -/
def InOrder (c : Cell) : Prop :=
  match c.writer with
  | .read f => ∃ before, c.received = before ++ [f] ∧ (c.writes.map (·.update)).Sublist before
  | _ => (c.writes.map (·.update)).Sublist c.received

theorem inOrder_received {c : Cell} (ordered : InOrder c) :
    (c.writes.map (·.update)).Sublist c.received := by
  unfold InOrder at ordered
  split at ordered
  · obtain ⟨before, whole, ordered⟩ := ordered
    rw [whole]
    exact ordered.trans (List.sublist_append_left _ _)
  · exact ordered

theorem inOrder_step {old next : Cell} (moved : WriterStep old next) (ordered : InOrder old) :
    InOrder next := by
  cases moved with
  | same writer received writes =>
    unfold InOrder at ordered ⊢
    rw [writer, received, writes]
    exact ordered
  | started absent waiting received writes =>
    have before := inOrder_received ordered
    rw [← received, ← writes] at before
    simpa only [InOrder, waiting] using before
  | received f waiting reading received writes =>
    have before := inOrder_received ordered
    simp only [InOrder, reading]
    refine ⟨old.received, received, ?_⟩
    rw [writes]
    exact before
  | decided f reading waiting received writes =>
    simp only [InOrder, reading] at ordered
    obtain ⟨before, whole, ordered⟩ := ordered
    simp only [InOrder, waiting]
    rw [received, whole]
    rcases writes with none_ | ⟨x, same, one⟩
    · rw [none_]
      exact ordered.trans (List.sublist_append_left _ _)
    · rw [one, List.map_append, List.map_singleton, same]
      exact ordered.append (List.Sublist.refl _)

end Frames

section Loops

variable {c : Config}

theorem allow_last {l : FrameLimiter} {now : Time} (later : l.last ≤ now) :
    (l.allow now).1.last = now := by
  have reached : (RelayLimiter.refill l.rate l.burst ⟨l.tokens, l.last⟩ now).last = now := by
    unfold RelayLimiter.refill
    split
    · rfl
    · next early => exact Int.le_antisymm later (Int.not_lt.mp early)
  unfold FrameLimiter.allow
  simp only
  split
  · exact reached
  · exact reached

/-- A loop that began with `first` has published these frames and goes on from `loop`. -/
structure Through (c : Config) (first : Loop) (frames : List (Entry × Nat)) (loop : Loop) :
    Prop where
  runs : first.run c (frames.map fun frame => frame.1.read frame.2) = (loop, none)
  paced : ∃ opened began, first = Loop.start c opened began ∧
    (began :: frames.map fun frame => frame.1.now).Pairwise (· ≤ ·) ∧
    ∀ t ∈ began :: frames.map fun frame => frame.1.now, t ≤ loop.limiter.last

theorem through_start (opened now : Time) :
    Through c (Loop.start c opened now) [] (Loop.start c opened now) where
  runs := rfl
  paced := ⟨opened, now, rfl, by simp, by simp [Loop.start, newFrameLimiter]⟩

theorem through_frame {first loop : Loop} {frames : List (Entry × Nat)} {e : Entry} {dropped : Nat}
    (h : Through c first frames loop) (later : loop.limiter.last ≤ e.now)
    (passed : (loop.turn c (e.read dropped)).2 = none) :
    Through c first (frames ++ [(e, dropped)]) (loop.turn c (e.read dropped)).1 := by
  constructor
  case runs =>
    have before : (first.run c (frames.map fun frame => frame.1.read frame.2)).2 = none := by
      rw [h.runs]
    rw [List.map_append, List.map_singleton, run_append c first _ _ before, h.runs]
    exact Prod.ext rfl passed
  case paced =>
    obtain ⟨opened, began, start, ordered, top⟩ := h.paced
    have reached : (loop.turn c (e.read dropped)).1.limiter.last = e.now := by
      rw [@turn_text c loop (e.read dropped) e.payload rfl]
      exact allow_last later
    refine ⟨opened, began, start, ?_, ?_⟩
    · rw [List.map_append, List.map_singleton, ← List.cons_append, List.pairwise_append]
      refine ⟨ordered, List.pairwise_singleton _ _, ?_⟩
      intro t old now last
      rw [List.mem_singleton] at last
      subst last
      exact Int.le_trans (top t old) later
    · intro t member
      rw [List.map_append, List.map_singleton, ← List.cons_append, List.mem_append,
        List.mem_singleton] at member
      rw [reached]
      rcases member with old | last
      · exact Int.le_trans (top t old) later
      · exact Int.le_of_eq last

theorem proper_read {e : Entry} {dropped other : Nat} (h : Proper c (e.read dropped)) :
    Proper c (e.read other) := by
  obtain ⟨payload, capturedAtMs, _, text, valid, inside, -⟩ := h
  exact ⟨payload, capturedAtMs, other, text, valid, inside, rfl⟩

/-- A turn ends for a frame in the same way whatever it replaces. -/
theorem turn_passed {loop : Loop} {e : Entry} {dropped other : Nat}
    (passed : (loop.turn c (e.read dropped)).2 = none) :
    (loop.turn c (e.read other)).2 = none := by
  obtain ⟨proper, allowed⟩ := turn_open_iff.mp passed
  exact turn_open_iff.mpr ⟨proper_read proper, allowed⟩

theorem through_proper {first loop : Loop} {frames : List (Entry × Nat)}
    (h : Through c first frames loop) {e : Entry} (member : e ∈ frames.map Prod.fst) :
    Proper c (e.read 0) := by
  have open_ : (first.run c (frames.map fun frame => frame.1.read frame.2)).2 = none := by rw [h.runs]
  obtain ⟨frame, listed, rfl⟩ := List.mem_map.mp member
  have proper := ((run_open c first _).1.mp open_).1 (frame.1.read frame.2)
    (List.mem_map.mpr ⟨frame, listed, rfl⟩)
  exact proper_read proper

/-- What a loop has published keeps its rate. -/
theorem through_rate {first loop : Loop} {frames : List (Entry × Nat)}
    (h : Through c first frames loop) (rate : 1 ≤ c.maxPublishHz) (full : 1 ≤ c.publishBurst) :
    WithinRate c.maxPublishHz c.publishBurst (frames.map fun frame => frame.1.now) := by
  have open_ : (first.run c (frames.map fun frame => frame.1.read frame.2)).2 = none := by rw [h.runs]
  obtain ⟨opened, began, start, ordered, -⟩ := h.paced
  have accepted := ((run_open c first _).1.mp open_).2
  rw [List.map_map] at accepted
  rw [start] at accepted
  exact (frames_counted rate full ordered).1.mp accepted

end Loops

section Steps

variable {c : Config} {w next : World} {p q : ProducerId} {r : RoomId}

/-- What the room of a run has accepted from it. -/
def World.own (w : World) (p : ProducerId) : List Entry :=
  (w.accepted (w.run p).room).filter fun e => e.producer = p

def Matches (e : Entry) (f : Frame) : Prop := f.prepared = some e.payload ∧ f.publishedAt = e.now

def LineOk (c : Config) (w : World) (p : ProducerId) : Prop :=
  let line := w.lines p
  match line.stage with
  | .absent => ∀ r, ∀ e ∈ w.accepted r, e.producer ≠ p
  | .reading =>
    (w.run p).stage = .reading ∧ Through c line.first line.frames line.loop ∧
      w.own p = line.frames.map Prod.fst
  | .publishing _ e =>
    (w.run p).stage = .reading ∧ Through c line.first line.frames line.loop ∧
      line.loop.limiter.last ≤ e.now ∧ (line.loop.turn c (e.read 0)).2 = none ∧
      w.own p = line.frames.map Prod.fst ++ [e]
  | .ended exit =>
    ((w.run p).stage = .reading ∨ Settled (w.run p)) ∧ ∃ loop last,
      Through c line.first line.frames loop ∧ loop.turn c last = (line.loop, some exit) ∧
      w.own p = line.frames.map Prod.fst

def World.owners (w : World) (r : RoomId) : List ProducerId := (w.accepted r).map Entry.producer

structure RoomOk (w : World) (r : RoomId) : Prop where
  owners : ∀ p ∈ w.owners r, (w.run p).room = r ∧ ((w.run p).stage = .reading ∨ Settled (w.run p))
  frames : List.Forall₂ Matches (w.accepted r) (w.relay.published r)
  turns : TakeTurns (w.owners r)
  retired : ∀ p ∈ w.owners r, (w.owners r).getLast? ≠ some p → Settled (w.run p)

structure Ok (c : Config) (w : World) : Prop where
  lines : ∀ p, LineOk c w p
  rooms : ∀ r, RoomOk w r
  calls : ∀ k, (w.relay.publishes k).stage = .offering → ∃ p e,
    (w.lines p).stage = .publishing k e ∧ (w.relay.publishes k).room = (w.run p).room

/-- A step in which the runs move on and the loops stand still. -/
structure Ahead (w next : World) : Prop where
  lines : next.lines = w.lines
  accepted : next.accepted = w.accepted
  published : next.relay.published = w.relay.published
  calls : ∀ k, (next.relay.publishes k).stage = .offering →
    (w.relay.publishes k).stage = .offering ∧ (next.relay.publishes k).room = (w.relay.publishes k).room
  room : ∀ p, (w.run p).stage = .reading ∨ Settled (w.run p) → (next.run p).room = (w.run p).room
  settled : ∀ p, Settled (w.run p) → Settled (next.run p)
  reading : ∀ p, (w.run p).stage = .reading → (next.run p).stage = .reading ∨
    Settled (next.run p) ∧ ∃ exit, (w.lines p).stage = .ended exit

theorem own_ahead (h : Ahead w next) (begun : (w.run p).stage = .reading ∨ Settled (w.run p)) :
    next.own p = w.own p := by
  rw [World.own, World.own, h.room p begun, h.accepted]

theorem begun_ahead (h : Ahead w next) (begun : (w.run p).stage = .reading ∨ Settled (w.run p)) :
    (next.run p).stage = .reading ∨ Settled (next.run p) := by
  rcases begun with reading | settled
  · rcases h.reading p reading with still | left
    · exact Or.inl still
    · exact Or.inr left.1
  · exact Or.inr (h.settled p settled)

theorem reading_ahead (h : Ahead w next) (reading : (w.run p).stage = .reading)
    (goes : ∀ exit, (w.lines p).stage ≠ .ended exit) : (next.run p).stage = .reading := by
  rcases h.reading p reading with still | left
  · exact still
  · obtain ⟨-, exit, ended⟩ := left
    exact absurd ended (goes exit)

theorem line_ahead (h : Ahead w next) (ok : LineOk c w p) : LineOk c next p := by
  unfold LineOk at ok ⊢
  rw [h.lines]
  cases stage : (w.lines p).stage with
  | absent =>
    simp only [stage] at ok ⊢
    rw [h.accepted]
    exact ok
  | reading =>
    simp only [stage] at ok ⊢
    obtain ⟨reading, through, own⟩ := ok
    have still := reading_ahead h reading (fun exit => by simp [stage])
    exact ⟨still, through, (own_ahead h (Or.inl reading)).trans own⟩
  | publishing k e =>
    simp only [stage] at ok ⊢
    obtain ⟨reading, through, later, passed, own⟩ := ok
    have still := reading_ahead h reading (fun exit => by simp [stage])
    exact ⟨still, through, later, passed, (own_ahead h (Or.inl reading)).trans own⟩
  | ended exit =>
    simp only [stage] at ok ⊢
    obtain ⟨begun, loop, last, through, turn, own⟩ := ok
    exact ⟨begun_ahead h begun, loop, last, through, turn, (own_ahead h begun).trans own⟩

theorem room_ahead (h : Ahead w next) (ok : RoomOk w r) : RoomOk next r := by
  have owners : next.owners r = w.owners r := by rw [World.owners, World.owners, h.accepted]
  constructor
  · intro p member
    rw [owners] at member
    obtain ⟨room, begun⟩ := ok.owners p member
    exact ⟨(h.room p begun).trans room, begun_ahead h begun⟩
  · rw [h.accepted, h.published]
    exact ok.frames
  · rw [owners]
    exact ok.turns
  · intro p member other
    rw [owners] at member other
    exact h.settled p (ok.retired p member other)

theorem line_reading (ok : LineOk c w p) {k : PublishId} {e : Entry}
    (stage : (w.lines p).stage = .publishing k e) : (w.run p).stage = .reading := by
  simp only [LineOk, stage] at ok
  exact ok.1

theorem ok_ahead (h : Ahead w next) (ok : Ok c w) : Ok c next where
  lines p := line_ahead h (ok.lines p)
  rooms r := room_ahead h (ok.rooms r)
  calls k offering := by
    obtain ⟨before, room⟩ := h.calls k offering
    obtain ⟨p, e, stage, here⟩ := ok.calls k before
    refine ⟨p, e, ?_, ?_⟩
    · rw [h.lines]
      exact stage
    · rw [room, here]
      exact (h.room p (Or.inl (line_reading (ok.lines p) stage))).symm

theorem line_other {line : Line} (ok : LineOk c w q) (other : q ≠ p) :
    LineOk c (w.setLine p line) q := by
  have same : (w.setLine p line).lines q = w.lines q := Function.update_of_ne other _ _
  unfold LineOk at ok ⊢
  rw [same]
  exact ok

/-- A step of one loop that publishes nothing and leaves no publish behind. -/
theorem ok_line {line : Line} (ok : Ok c w) (own : LineOk c (w.setLine p line) p)
    (idle : ∀ k e, (w.lines p).stage = .publishing k e → (w.relay.publishes k).stage ≠ .offering) :
    Ok c (w.setLine p line) where
  lines q := by
    by_cases same : q = p
    · subst q
      exact own
    · exact line_other (ok.lines q) same
  rooms r :=
    have room := ok.rooms r
    ⟨room.owners, room.frames, room.turns, room.retired⟩
  calls k offering := by
    obtain ⟨q, e, stage, here⟩ := ok.calls k offering
    refine ⟨q, e, ?_, here⟩
    have other : q ≠ p := by
      intro same
      subst q
      exact idle k e stage offering
    simpa [World.setLine, Function.update_of_ne other] using stage

theorem ok_begin {opened now : Time} (ok : Ok c w) (reading : (w.run p).stage = .reading)
    (absent : (w.lines p).stage = .absent) :
    Ok c (w.setLine p ⟨.reading, Loop.start c opened now, Loop.start c opened now, []⟩) := by
  have nothing := ok.lines p
  simp only [LineOk, absent] at nothing
  have none_ : w.own p = [] := by
    rw [World.own, List.filter_eq_nil_iff]
    intro e member same
    exact nothing _ e member (of_decide_eq_true same)
  apply ok_line ok
  · simp only [LineOk, World.setLine, Function.update_self]
    exact ⟨reading, through_start opened now, none_⟩
  · intro k e stage
    rw [absent] at stage
    cases stage

theorem ok_ended {loop : Loop} {exit : Exit} {last : Read} (ok : Ok c w)
    (stage : (w.lines p).stage = .reading)
    (turn : (w.lines p).loop.turn c last = (loop, some exit)) :
    Ok c (w.setLine p { w.lines p with stage := .ended exit, loop }) := by
  have here := ok.lines p
  simp only [LineOk, stage] at here
  obtain ⟨reading, through, own⟩ := here
  apply ok_line ok
  · simp only [LineOk, World.setLine, Function.update_self]
    exact ⟨Or.inl reading, (w.lines p).loop, last, through, turn, own⟩
  · intro k e publishing
    rw [stage] at publishing
    cases publishing

theorem ok_returned {k : PublishId} {e : Entry} (ok : Ok c w)
    (stage : (w.lines p).stage = .publishing k e)
    (returned : (w.relay.publishes k).stage = .returned) (dropped : Nat) :
    Ok c (w.setLine p { w.lines p with
      stage := .reading
      loop := ((w.lines p).loop.turn c (e.read dropped)).1
      frames := (w.lines p).frames ++ [(e, dropped)] }) := by
  have here := ok.lines p
  simp only [LineOk, stage] at here
  obtain ⟨reading, through, later, passed, own⟩ := here
  apply ok_line ok
  · simp only [LineOk, World.setLine, Function.update_self]
    refine ⟨reading, through_frame through later (turn_passed passed), ?_⟩
    rw [List.map_append, List.map_singleton]
    exact own
  · intro j f publishing offering
    rw [stage] at publishing
    cases publishing
    rw [returned] at offering
    cases offering

theorem reader_owner (reach : (RelayLifecycle.server (limits c)).Reachable w.server)
    (room : RoomOk w r) (reading : (w.run p).stage = .reading) (here : (w.run p).room = r)
    (member : q ∈ w.owners r) (other : q ≠ p) : Settled (w.run q) := by
  obtain ⟨home, begun⟩ := room.owners q member
  rcases begun with still | settled
  · exact absurd (one_reader reach still reading (home.trans here.symm)) other
  · exact settled

theorem reading_settled (reading : (w.run p).stage = .reading) : ¬ Settled (w.run p) := by
  intro settled
  rcases settled with same | same
  · rw [same] at reading
    cases reading
  · rw [same] at reading
    cases reading

/-- A message that passed is published in its room, and its sender has the turn. -/
theorem ok_publish {k : PublishId} {e : Entry} (ok : Ok c w)
    (reach : (RelayLifecycle.server (limits c)).Reachable w.server)
    (stage : (w.lines e.producer).stage = .reading)
    (later : (w.lines e.producer).loop.limiter.last ≤ e.now)
    (passed : ((w.lines e.producer).loop.turn c (e.read 0)).2 = none)
    (taken : w.publish c k e = some next) : Ok c next := by
  have here := ok.lines e.producer
  simp only [LineOk, stage] at here
  obtain ⟨reading, through, own⟩ := here
  unfold World.publish at taken
  obtain ⟨relay, stamped, rfl⟩ := Option.map_eq_some_iff.mp taken
  simp only [RelayDelivery.step, Option.ite_none_right_eq_some, Option.some.injEq] at stamped
  obtain ⟨idle, rfl⟩ := stamped
  constructor
  case lines =>
    intro q
    by_cases same : q = e.producer
    · subst q
      simp only [LineOk, World.setLine, Function.update_self]
      refine ⟨reading, through, later, passed, ?_⟩
      rw [World.own] at own
      simp only [World.own, World.run, Function.update_self, List.filter_append]
      rw [← own]
      simp [World.run]
    · have old := ok.lines q
      have line : ∀ line, Function.update w.lines e.producer line q = w.lines q :=
        fun line => Function.update_of_ne same _ _
      have apart : e.producer ≠ q := Ne.symm same
      have kept : ∀ r, ((Function.update w.accepted (w.server.producerRuns e.producer).room
          (w.accepted (w.server.producerRuns e.producer).room ++ [e])) r).filter (fun e => e.producer = q) =
            (w.accepted r).filter fun e => e.producer = q := by
        intro r
        by_cases home : r = (w.server.producerRuns e.producer).room
        · subst r
          simp [List.filter_append, apart]
        · rw [Function.update_of_ne home]
      unfold LineOk at old ⊢
      simp only [World.setLine, line, World.own, World.run, kept] at old ⊢
      cases other : (w.lines q).stage with
      | absent =>
        simp only [other] at old ⊢
        intro r f member sender
        have listed : f ∈ (w.accepted r).filter fun e => e.producer = q := by
          rw [← kept r]
          exact List.mem_filter.mpr ⟨member, by simpa using sender⟩
        exact old r f (List.mem_filter.mp listed).1 sender
      | _ =>
        simp only [other] at old ⊢
        exact old
  case rooms =>
    intro r
    have room := ok.rooms r
    by_cases home : r = (w.run e.producer).room
    · have owners : (w.accepted r ++ [e]).map Entry.producer = w.owners r ++ [e.producer] := by
        rw [List.map_append, List.map_singleton, World.owners]
      have settles : ∀ q ∈ w.owners r, q ≠ e.producer → Settled (w.run q) :=
        fun q member other => reader_owner reach room reading home.symm member other
      subst r
      constructor
      · intro q member
        simp only [World.owners, Function.update_self] at member
        rw [owners, List.mem_append, List.mem_singleton] at member
        rcases member with old | rfl
        · exact room.owners q old
        · exact ⟨rfl, Or.inl reading⟩
      · simp only [Function.update_self]
        exact List.rel_append room.frames (List.Forall₂.cons ⟨rfl, rfl⟩ List.Forall₂.nil)
      · simp only [World.owners, Function.update_self]
        rw [owners]
        apply takeTurns_append room.turns
        intro member
        by_contra other
        exact reading_settled reading (room.retired e.producer member other)
      · intro q member other
        simp only [World.owners, Function.update_self] at member other
        rw [owners, List.mem_append, List.mem_singleton] at member
        rw [owners, List.getLast?_concat] at other
        have apart : q ≠ e.producer := fun same => other (by rw [same])
        rcases member with old | rfl
        · exact settles q old apart
        · exact absurd rfl apart
    · constructor
      · simp only [World.owners, Function.update_of_ne home]
        exact room.owners
      · simp only [Function.update_of_ne home]
        exact room.frames
      · simp only [World.owners, Function.update_of_ne home]
        exact room.turns
      · simp only [World.owners, Function.update_of_ne home]
        exact room.retired
  case calls =>
    intro j offering
    by_cases same : j = k
    · subst j
      refine ⟨e.producer, e, ?_, ?_⟩
      · simp [World.setLine]
      · simp only [RelayDelivery.World.setPublish, Function.update_self]
        rfl
    · simp only [RelayDelivery.World.setPublish, Function.update_of_ne same] at offering ⊢
      obtain ⟨q, f, publishing, room⟩ := ok.calls j offering
      have other : q ≠ e.producer := by
        intro q_
        subst q
        rw [stage] at publishing
        cases publishing
      refine ⟨q, f, ?_, room⟩
      simpa [World.setLine, Function.update_of_ne other] using publishing

theorem ok_server {server : RelayLifecycle.World} {a : RelayLifecycle.Act} (ok : Ok c w)
    (reach : (RelayLifecycle.server (limits c)).Reachable w.server)
    (taken : RelayLifecycle.step (limits c) w.server a = some server)
    (ended : ∀ p, a = .producer p .leave → ∃ exit, (w.lines p).stage = .ended exit) :
    Ok c { w with server } := by
  have runs := server_run reach taken
  have ahead : Ahead w { w with server } := by
    constructor
    case lines | accepted | published => rfl
    case calls => exact fun k offering => ⟨offering, rfl⟩
    case room =>
      intro p begun
      rcases runs p with same | ⟨b, -, onward⟩
      · exact congrArg _ same
      · apply onward.room
        intro waiting
        rcases begun with reading | returning | gone
        · cases waiting.symm.trans reading
        · cases waiting.symm.trans returning
        · cases waiting.symm.trans gone
    case settled =>
      intro p settled
      rcases runs p with same | ⟨b, -, onward⟩
      · simp only [World.run, same]
        exact settled
      · exact onward.settled settled
    case reading =>
      intro p reading
      rcases runs p with same | ⟨b, own, onward⟩
      · left
        simp only [World.run, same]
        exact reading
      · obtain ⟨leave, settled⟩ := onward.reading reading
        subst leave
        exact Or.inr ⟨settled, ended p own⟩
  exact ok_ahead ahead ok

theorem ok_relay {relay : RelayDelivery.World} {a : RelayDelivery.Act} (ok : Ok c w)
    (silent : publishes a = false)
    (taken : RelayDelivery.step c.snapshotTTL w.relay a = some relay) : Ok c { w with relay } := by
  have carried := relay_carried silent taken
  have ahead : Ahead w { w with relay } := by
    constructor
    case published => exact carried.published
    case calls => exact carried.calls
    case reading => exact fun _ => Or.inl
    all_goals intros
    all_goals first | rfl | assumption
  exact ok_ahead ahead ok

/-- What a read does: it ends the loop or starts a publish. -/
theorem read_cases {k : PublishId} {message : Message} {now wall : Time} {fault : Option String}
    (taken : step c w (.read p k message now wall fault) = some next) :
    (w.lines p).stage = .reading ∧ (w.lines p).loop.limiter.last ≤ now ∧
      ((∃ last loop exit, (w.lines p).loop.turn c last = (loop, some exit) ∧
          next = w.setLine p { w.lines p with stage := .ended exit, loop }) ∨
        ∃ payload, ((w.lines p).loop.turn c ((⟨p, payload, now, wall⟩ : Entry).read 0)).2 = none ∧
          w.publish c k ⟨p, payload, now, wall⟩ = some next) := by
  simp only [step, Option.ite_none_right_eq_some] at taken
  obtain ⟨⟨stage, later⟩, taken⟩ := taken
  refine ⟨stage, later, ?_⟩
  split at taken
  · next loop exit turn =>
    cases taken
    exact Or.inl ⟨_, loop, exit, turn, rfl⟩
  · next loop payload turn =>
    right
    refine ⟨payload, ?_, taken⟩
    have open_ := congrArg Prod.snd turn
    obtain ⟨_, _, dropped, text, valid, inside, fine⟩ := (turn_open_iff.mp open_).1
    cases fault with
    | none => exact open_
    | some what => cases fine
  · cases taken

theorem ok_step {a : Act} (reach : (RelayLifecycle.server (limits c)).Reachable w.server)
    (ok : Ok c w) (taken : step c w a = some next) : Ok c next := by
  cases a with
  | server a =>
    simp only [step, Option.ite_none_left_eq_some] at taken
    obtain ⟨stays, taken⟩ := taken
    obtain ⟨server, moved, rfl⟩ := Option.map_eq_some_iff.mp taken
    apply ok_server ok reach moved
    intro p same
    subst same
    exact absurd rfl stays
  | relay a =>
    simp only [step, Option.ite_none_left_eq_some] at taken
    obtain ⟨silent, taken⟩ := taken
    obtain ⟨relay, moved, rfl⟩ := Option.map_eq_some_iff.mp taken
    exact ok_relay ok (by simpa using silent) moved
  | begin p opened now =>
    simp only [step, Option.ite_none_right_eq_some, Option.some.injEq] at taken
    obtain ⟨⟨reading, absent⟩, rfl⟩ := taken
    exact ok_begin ok reading absent
  | read p k message now wall fault =>
    obtain ⟨stage, later, ended | published⟩ := read_cases taken
    · obtain ⟨last, loop, exit, turn, rfl⟩ := ended
      exact ok_ended ok stage turn
    · obtain ⟨payload, passed, published⟩ := published
      exact ok_publish ok reach stage later passed published
  | returned p =>
    simp only [step] at taken
    split at taken
    · next k entry stage =>
      simp only [Option.ite_none_right_eq_some, Option.some.injEq] at taken
      obtain ⟨returned, rfl⟩ := taken
      exact ok_returned ok stage returned _
    · cases taken
  | leave p =>
    simp only [step] at taken
    split at taken
    · next exit stage =>
      obtain ⟨server, moved, rfl⟩ := Option.map_eq_some_iff.mp taken
      apply ok_server ok reach moved
      intro q same
      cases same
      exact ⟨exit, stage⟩
    · cases taken

end Steps

section Runs

variable {c : Config} {w : World}

/-- Every step is at most one step of the server's machine and one of the frames'. -/
theorem step_parts {next : World} {a : Act} (taken : step c w a = some next) :
    (next.server = w.server ∨ ∃ b, RelayLifecycle.step (limits c) w.server b = some next.server) ∧
      (next.relay = w.relay ∨ ∃ b, RelayDelivery.step c.snapshotTTL w.relay b = some next.relay) := by
  cases a with
  | server a =>
    simp only [step, Option.ite_none_left_eq_some] at taken
    obtain ⟨server, moved, rfl⟩ := Option.map_eq_some_iff.mp taken.2
    exact ⟨Or.inr ⟨a, moved⟩, Or.inl rfl⟩
  | relay a =>
    simp only [step, Option.ite_none_left_eq_some] at taken
    obtain ⟨relay, moved, rfl⟩ := Option.map_eq_some_iff.mp taken.2
    exact ⟨Or.inl rfl, Or.inr ⟨a, moved⟩⟩
  | begin p opened now =>
    simp only [step, Option.ite_none_right_eq_some, Option.some.injEq] at taken
    obtain ⟨-, rfl⟩ := taken
    exact ⟨Or.inl rfl, Or.inl rfl⟩
  | read p k message now wall fault =>
    obtain ⟨-, -, ended | published⟩ := read_cases taken
    · obtain ⟨_, _, _, -, rfl⟩ := ended
      exact ⟨Or.inl rfl, Or.inl rfl⟩
    · obtain ⟨payload, -, published⟩ := published
      obtain ⟨relay, moved, rfl⟩ := Option.map_eq_some_iff.mp published
      exact ⟨Or.inl rfl, Or.inr ⟨.publish k (w.run p).room payload now, moved⟩⟩
  | returned p =>
    simp only [step] at taken
    split at taken
    · simp only [Option.ite_none_right_eq_some, Option.some.injEq] at taken
      obtain ⟨-, rfl⟩ := taken
      exact ⟨Or.inl rfl, Or.inl rfl⟩
    · cases taken
  | leave p =>
    simp only [step] at taken
    split at taken
    · obtain ⟨server, moved, rfl⟩ := Option.map_eq_some_iff.mp taken
      exact ⟨Or.inr ⟨.producer p .leave, moved⟩, Or.inl rfl⟩
    · cases taken

theorem server_reachable (reach : (pipeline c).Reachable w) :
    (RelayLifecycle.server (limits c)).Reachable w.server := by
  refine reachable_view _ (RelayLifecycle.server (limits c)) World.server ?_ ?_ reach
  · intro s begun
    obtain ⟨maxViewers, roomIds, first, rfl⟩ := begun
    exact ⟨maxViewers, roomIds, rfl⟩
  · intro s a t taken
    exact (step_parts taken).1

theorem relay_reachable (reach : (pipeline c).Reachable w) :
    (RelayDelivery.relay c.snapshotTTL).Reachable w.relay := by
  refine reachable_view _ (RelayDelivery.relay c.snapshotTTL) World.relay ?_ ?_ reach
  · intro s begun
    obtain ⟨maxViewers, roomIds, first, rfl⟩ := begun
    exact ⟨maxViewers, rfl⟩
  · intro s a t taken
    exact (step_parts taken).2

theorem ok_invariant (reach : (pipeline c).Reachable w) : Ok c w := by
  refine reachable_invariant_using (pipeline c) (fun s => server_reachable) ?_ ?_ reach
  · intro s begun
    obtain ⟨maxViewers, roomIds, first, rfl⟩ := begun
    constructor
    · intro p r e member
      cases member
    · intro r
      constructor
      · intro p member
        cases member
      · exact List.Forall₂.nil
      · exact takeTurns_nil
      · intro p member
        cases member
    · intro k offering
      cases offering
  · intro s a t reach ok taken
    exact ok_step reach ok taken

theorem inOrder_invariant {ttl : Int} {w : RelayDelivery.World}
    (reach : (RelayDelivery.relay ttl).Reachable w) (v : ViewerId) : InOrder (w.cells v) := by
  have all : Invariant (RelayDelivery.relay ttl) fun w => ∀ v, InOrder (w.cells v) := by
    constructor
    · intro s begun v
      obtain ⟨maxViewers, rfl⟩ := begun
      exact List.Sublist.refl _
    · intro s a t ordered taken v
      cases silent : publishes a with
      | false => exact inOrder_step ((relay_carried silent taken).writers v) (ordered v)
      | true =>
        cases a with
        | publish k r payload now =>
          simp only [RelayDelivery.relay, RelayDelivery.step, Option.ite_none_right_eq_some,
            Option.some.injEq] at taken
          obtain ⟨-, rfl⟩ := taken
          exact ordered v
        | _ => cases silent
  exact reachable_invariant _ all reach v

/-- A message as a viewer is sent it: the payload of a message that passed every check when it was
    read, written before the frame is too old. -/
structure Relayed (c : Config) (x : RelayDelivery.Write) (e : Entry) : Prop where
  payload : x.update.prepared = some e.payload
  inTime : x.now < e.now + c.snapshotTTL ∧ x.deadline ≤ e.now + c.snapshotTTL
  captured : ∃ capturedAtMs, validateSnapshot e.payload = .ok capturedAtMs ∧
    e.wall - c.maxSnapshotAge ≤ capturedAtMs * nanosPerMillisecond ∧
    capturedAtMs * nanosPerMillisecond ≤ e.wall + c.maxFutureSkew

theorem accepted_captured {r : RoomId} {e : Entry} (ok : Ok c w) (member : e ∈ w.accepted r) :
    ∃ capturedAtMs, validateSnapshot e.payload = .ok capturedAtMs ∧
      e.wall - c.maxSnapshotAge ≤ capturedAtMs * nanosPerMillisecond ∧
      capturedAtMs * nanosPerMillisecond ≤ e.wall + c.maxFutureSkew := by
  have proper : Proper c (e.read 0) := by
    have owner : e.producer ∈ w.owners r := List.mem_map.mpr ⟨e, member, rfl⟩
    obtain ⟨room, -⟩ := (ok.rooms r).owners e.producer owner
    have own : e ∈ w.own e.producer := by
      rw [World.own, room]
      exact List.mem_filter.mpr ⟨member, by simp⟩
    have line := ok.lines e.producer
    unfold LineOk at line
    cases stage : (w.lines e.producer).stage with
    | absent =>
      simp only [stage] at line
      exact absurd rfl (line r e member)
    | reading =>
      simp only [stage] at line
      obtain ⟨-, through, frames⟩ := line
      rw [frames] at own
      exact through_proper through own
    | publishing k pending =>
      simp only [stage] at line
      obtain ⟨-, through, -, passed, frames⟩ := line
      rw [frames, List.mem_append, List.mem_singleton] at own
      rcases own with old | rfl
      · exact through_proper through old
      · exact (turn_open_iff.mp passed).1
    | ended exit =>
      simp only [stage] at line
      obtain ⟨-, loop, last, through, -, frames⟩ := line
      rw [frames] at own
      exact through_proper through own
  obtain ⟨payload, capturedAtMs, dropped, text, valid, inside, -⟩ := proper
  cases text
  rw [not_or] at inside
  exact ⟨capturedAtMs, valid, Int.not_lt.mp inside.1, Int.not_lt.mp inside.2⟩

/-- What has been written to a viewer stands in what its room has published, in order. -/
theorem written_published {ttl : Int} {w : RelayDelivery.World}
    (reach : (RelayDelivery.relay ttl).Reachable w) (v : ViewerId) :
    ((w.cells v).writes.map (·.update)).Sublist (w.published (w.handlers v).room) := by
  have ok := reachable_invariant _ (RelayFreshness.ok_invariant ttl) reach
  have own := (ok.viewers v).cell.forward
  have received : (w.cells v).received.Sublist (w.published (w.handlers v).room) := by
    have ascending := LatestSlot.taken_ascending own
    have numbered := (ok.rooms (w.handlers v).room).numbered
    have published : (w.published (w.handlers v).room).Pairwise fun f g =>
        f.generation < g.generation := by
      rw [List.pairwise_iff_getElem]
      intro i j boundI boundJ before
      rw [numbered i boundI, numbered j boundJ]
      omega
    have distinct : (w.cells v).received.Nodup := by
      refine ascending.imp ?_
      intro f g less same
      subst same
      exact Nat.lt_irrefl _ less
    have within : (w.cells v).received ⊆ w.published (w.handlers v).room := by
      intro f member
      exact RelayFreshness.since_published_room ok
        (own.candidates f (LatestSlot.stream_subset member))
    have antisymm : Std.Antisymm fun f g : Frame => f.generation < g.generation :=
      ⟨fun f g less more => absurd more (Nat.lt_asymm less)⟩
    exact List.sublist_of_subperm_of_pairwise (List.subperm_of_subset distinct within) ascending
      published
  exact (inOrder_received (inOrder_invariant reach v)).trans received

theorem sublist_related {X E F : Type} {project : X → F} {matched : E → F → Prop}
    {related : X → E → Prop} {xs : List X} {es : List E} {fs : List F}
    (order : (xs.map project).Sublist fs) (frames : List.Forall₂ matched es fs)
    (each : ∀ x ∈ xs, ∀ e ∈ es, matched e (project x) → related x e) :
    List.SublistForall₂ related xs es := by
  induction frames generalizing xs with
  | nil =>
    rw [List.sublist_nil, List.map_eq_nil_iff] at order
    subst order
    exact .nil
  | @cons e f es fs here rest ih =>
    rcases List.sublist_cons_iff.mp order with later | ⟨tail, split_, later⟩
    · apply List.SublistForall₂.cons_right
      exact ih later fun x old e member => each x old e (List.mem_cons_of_mem _ member)
    · obtain ⟨x, xs, rfl, rfl, rfl⟩ := List.map_eq_cons_iff.mp split_
      apply List.SublistForall₂.cons
      · exact each x List.mem_cons_self e List.mem_cons_self here
      · apply ih later
        intro y old e member
        exact each y (List.mem_cons_of_mem _ old) e (List.mem_cons_of_mem _ member)

/-- What a viewer is sent is, in order and at most once each, what the producers of its room sent:
    text messages that passed validation, captured within the allowed window around the time they
    were read, and written in time. -/
theorem viewer_sent (c : Config) {w : World} (reach : (pipeline c).Reachable w) (v : ViewerId) :
    List.SublistForall₂ (Relayed c) (w.relay.cells v).writes
      (w.accepted (w.relay.handlers v).room) := by
  have ok := ok_invariant reach
  have relay := relay_reachable reach
  have fresh := reachable_invariant _ (RelayFreshness.ok_invariant c.snapshotTTL) relay
  have order := written_published relay v
  have frames := (ok.rooms (w.relay.handlers v).room).frames
  apply sublist_related order frames
  intro x written e member same
  obtain ⟨-, inTime⟩ := (fresh.viewers v).cell.written x written
  rw [same.2] at inTime
  exact ⟨same.1, inTime, accepted_captured ok member⟩

def connects (p : ProducerId) : List Act :=
  [.server (.producer p (.begin (bytes "room"))), .server (.producer p .claim),
   .server (.producer p (.upgrade true)), .server (.producer p .attach), .begin p 0 0]

/-- A frame on its way from a producer to the only viewer. -/
def passes (p : ProducerId) (now : Time) : List Act :=
  [.read p p (.text snapshot) now (9 * nanosPerMillisecond) none, .relay (.offer p 0),
   .relay (.drain 0), .relay (.send 0), .relay (.finish p), .returned p, .relay (.receive 0),
   .relay (.decide 0 now)]

/-- One producer sends a frame and then bytes that are no text, another one follows it. -/
def handover : List Act :=
  [.relay (.join 0 (bytes "room") 10), .relay (.initialOffer 0), .relay (.startWriter 0)] ++
    connects 0 ++ passes 0 20 ++
    [.read 0 1 .other 30 30 none, .leave 0, .server (.producer 0 .unwind),
     .server (.producer 0 .unwind), .server (.producer 0 .unwind), .server (.producer 0 .finish)] ++
    connects 1 ++ passes 1 40

def opened : World :=
  ⟨RelayLifecycle.started (fun _ => 4) {bytes "room"}, RelayDelivery.started (fun _ => 4),
    fun _ => ⟨.absent, Loop.start exampleConfig 0 0, Loop.start exampleConfig 0 0, []⟩, fun _ => []⟩

theorem handover_runs : ((pipeline exampleConfig).exec opened handover).isSome = true := by
  decide +kernel

def handoverWorld : World := ((pipeline exampleConfig).exec opened handover).get handover_runs

theorem handover_reachable : (pipeline exampleConfig).Reachable handoverWorld :=
  ⟨opened, handover, ⟨_, _, _, rfl⟩, (Option.some_get _).symm⟩

theorem viewer_sent_handover :
    (handoverWorld.relay.cells 0).writes.length = 2 ∧
      List.SublistForall₂ (Relayed exampleConfig) (handoverWorld.relay.cells 0).writes
        (handoverWorld.accepted (handoverWorld.relay.handlers 0).room) :=
  ⟨by decide +kernel, viewer_sent exampleConfig handover_reachable 0⟩

/-- The publishes of a room and the producers they come from. -/
structure InTurn (c : Config) (w : World) (r : RoomId) : Prop where
  turns : TakeTurns (w.owners r)
  alone : ∀ j k, (w.relay.publishes j).stage = .offering → (w.relay.publishes k).stage = .offering →
    (w.relay.publishes j).room = r → (w.relay.publishes k).room = r → j = k
  retired : ∀ p ∈ w.owners r, (w.owners r).getLast? ≠ some p → Settled (w.run p)
  rate : ∀ p, WithinRate c.maxPublishHz c.publishBurst
    (((w.accepted r).filter fun e => e.producer = p).map Entry.now)

/-- A loop whose frame is still on its way to the viewers keeps its rate as well. -/
theorem own_rate (ok : Ok c w) (rate : 1 ≤ c.maxPublishHz) (full : 1 ≤ c.publishBurst)
    (p : ProducerId) (stays : (w.lines p).stage ≠ .absent) :
    WithinRate c.maxPublishHz c.publishBurst ((w.own p).map Entry.now) := by
  have line := ok.lines p
  have spread : ((w.lines p).frames.map Prod.fst).map Entry.now =
      (w.lines p).frames.map fun frame => frame.1.now := by
    rw [List.map_map]
    rfl
  unfold LineOk at line
  cases stage : (w.lines p).stage with
  | absent => exact absurd stage stays
  | reading =>
    simp only [stage] at line
    obtain ⟨-, through, frames⟩ := line
    rw [frames, spread]
    exact through_rate through rate full
  | publishing k pending =>
    simp only [stage] at line
    obtain ⟨-, through, later, passed, frames⟩ := line
    have after := through_rate (through_frame through later passed) rate full
    rw [frames, List.map_append, List.map_singleton, spread]
    rw [List.map_append, List.map_singleton] at after
    exact after
  | ended exit =>
    simp only [stage] at line
    obtain ⟨-, loop, last, through, -, frames⟩ := line
    rw [frames, spread]
    exact through_rate through rate full

/-- The producers of a room take turns: the publishes of a room never overlap, a producer whose
    successor has published publishes no more, and each keeps the rate. -/
theorem producers_in_turn (std : Stdlib) (c : Config) (accepted : c.validate std = .ok ())
    {w : World} (reach : (pipeline c).Reachable w) (r : RoomId) : InTurn c w r := by
  have checked := validate_ok_iff.mp accepted
  have ok := ok_invariant reach
  have room := ok.rooms r
  refine ⟨room.turns, ?_, room.retired, ?_⟩
  · intro j k left right here there
    obtain ⟨p, e, stage, home⟩ := ok.calls j left
    obtain ⟨q, f, stage', home'⟩ := ok.calls k right
    have same : p = q := by
      apply one_reader (server_reachable reach) (line_reading (ok.lines p) stage)
        (line_reading (ok.lines q) stage')
      exact (home.symm.trans here).trans (there.symm.trans home')
    subst same
    rw [stage] at stage'
    cases stage'
    rfl
  · intro p
    by_cases member : p ∈ w.owners r
    · obtain ⟨home, -⟩ := room.owners p member
      have own : (w.accepted r).filter (fun e => e.producer = p) = w.own p := by rw [World.own, home]
      rw [own]
      apply own_rate ok checked.publishHz.1 checked.publishBurst.1
      intro absent
      have nothing := ok.lines p
      simp only [LineOk, absent] at nothing
      obtain ⟨e, listed, sender⟩ := List.mem_map.mp member
      exact nothing r e listed sender
    · have none_ : (w.accepted r).filter (fun e => e.producer = p) = [] := by
        rw [List.filter_eq_nil_iff]
        intro e listed sender
        exact member (List.mem_map.mpr ⟨e, listed, of_decide_eq_true sender⟩)
      rw [none_]
      intro i j _ bound
      exact absurd bound (Nat.not_lt_zero j)

theorem producers_in_turn_handover :
    handoverWorld.owners (bytes "room") = [0, 1] ∧
      InTurn exampleConfig handoverWorld (bytes "room") :=
  ⟨by decide +kernel, producers_in_turn exampleStdlib exampleConfig exampleConfig_accepted
    handover_reachable (bytes "room")⟩

end Runs

end RelayPipeline
