import GameSecurity.RelayFreshness

/- Every frame that goes into a viewer's queue is received, still queued or overwritten, and the
   frames that publishes overwrite are those the relay reports as dropped. -/
namespace RelayAccounting
open Runs RelayRoom RelayDelivery RelayFreshness LatestSlot

inductive Event where
  | put (v : ViewerId) (f : Frame)
  | overwritten (v : ViewerId) (f : Frame) (source : Source)
  | returned (v : ViewerId) (source : Source) (replaced : Bool)
  deriving DecidableEq, Repr

def Event.viewer : Event → ViewerId
  | .put v _ => v
  | .overwritten v _ _ => v
  | .returned v _ _ => v

/-- What a step does to the queues and what offers return in it. -/
def events (w : World) : Act → List Event
  | .initialOffer v =>
    let handler := w.handlers v
    if handler.stage = .joined ∧ handler.latest.prepared ≠ none ∧
        ((w.cells v).accept handler.latest .handler).isNone then
      [.returned v .handler false]
    else []
  | .offer k v =>
    if ((w.cells v).accept (w.publishes k).update (.publish k)).isNone then
      [.returned v (.publish k) false]
    else []
  | .drain v =>
    match (w.cells v).offering, (w.cells v).object.updates with
    | some o, some f => [.overwritten v f o.source]
    | _, _ => []
  | .send v =>
    match (w.cells v).offering with
    | some ⟨update, source, some replaced⟩ =>
      (if ((w.cells v).object.send update).2 then [.put v update] else []) ++
        [.returned v source replaced]
    | _ => []
  | _ => []

def puts (v : ViewerId) (log : List Event) : List Frame :=
  log.filterMap fun e => match e with
    | .put u f => if u = v then some f else none
    | _ => none

def overwrites (v : ViewerId) (log : List Event) : List Frame :=
  log.filterMap fun e => match e with
    | .overwritten u f _ => if u = v then some f else none
    | _ => none

def returnsTrue (v : ViewerId) (log : List Event) : Nat :=
  log.countP fun e => match e with
    | .returned u _ replaced => u = v ∧ replaced
    | _ => false

/-- The frames overwritten by publishes that are chosen. -/
def overwrittenBy (chosen : PublishId → Bool) (log : List Event) : Nat :=
  log.countP fun e => match e with
    | .overwritten _ _ (.publish k) => chosen k
    | _ => false

/-- A frame was taken out of the queue by the offer in progress. -/
def taken (c : Cell) : Bool := c.offering.any fun o => o.replaced = some true

/-- The books of one viewer. -/
structure Accounted (c : Cell) (v : ViewerId) (log : List Event) : Prop where
  sent : c.sent = (puts v log).length
  balance : (puts v log).Perm (c.received ++ (c.object.updates.toList ++ overwrites v log))
  returned : c.overwritten = returnsTrue v log
  pending : (overwrites v log).length = c.overwritten + (taken c).toNat
  initial : Event.returned v .handler true ∉ log
  handler : ∀ o, c.offering = some o → o.source = .handler → o.replaced ≠ some true

theorem accounted_new (v : ViewerId) : Accounted newCell v [] where
  sent := rfl
  balance := List.Perm.refl _
  returned := rfl
  pending := rfl
  initial := List.not_mem_nil
  handler _ offering := by cases offering

theorem puts_append (v : ViewerId) (log more : List Event) :
    puts v (log ++ more) = puts v log ++ puts v more := List.filterMap_append

theorem overwrites_append (v : ViewerId) (log more : List Event) :
    overwrites v (log ++ more) = overwrites v log ++ overwrites v more := List.filterMap_append

theorem returnsTrue_append (v : ViewerId) (log more : List Event) :
    returnsTrue v (log ++ more) = returnsTrue v log + returnsTrue v more := List.countP_append

theorem overwrittenBy_append (chosen : PublishId → Bool) (log more : List Event) :
    overwrittenBy chosen (log ++ more) = overwrittenBy chosen log + overwrittenBy chosen more :=
  List.countP_append

theorem accounted_blank {c : Cell} {v : ViewerId} {log more : List Event}
    (accounted : Accounted c v log) (put : puts v more = []) (overwrite : overwrites v more = [])
    (return_ : returnsTrue v more = 0) : Accounted c v (log ++ more) := by
  refine ⟨?_, ?_, ?_, ?_, ?_, accounted.handler⟩
  · rw [puts_append, put, List.append_nil]
    exact accounted.sent
  · rw [puts_append, overwrites_append, put, overwrite, List.append_nil, List.append_nil]
    exact accounted.balance
  · rw [returnsTrue_append, return_]
    exact accounted.returned
  · rw [overwrites_append, overwrite, List.append_nil]
    exact accounted.pending
  · intro member
    rcases List.mem_append.mp member with old | new
    · exact accounted.initial old
    · exact List.countP_eq_zero.mp return_ _ new (decide_eq_true ⟨rfl, rfl⟩)

theorem accounted_elsewhere {c : Cell} {v : ViewerId} {log more : List Event}
    (accounted : Accounted c v log) (elsewhere : ∀ e ∈ more, e.viewer ≠ v) :
    Accounted c v (log ++ more) := by
  have put : puts v more = [] := by
    rw [puts, List.filterMap_eq_nil_iff]
    intro e member
    have other := elsewhere e member
    cases e with
    | put u f => exact if_neg other
    | overwritten u f source => rfl
    | returned u source replaced => rfl
  have overwrite : overwrites v more = [] := by
    rw [overwrites, List.filterMap_eq_nil_iff]
    intro e member
    have other := elsewhere e member
    cases e with
    | put u f => rfl
    | overwritten u f source => exact if_neg other
    | returned u source replaced => rfl
  have return_ : returnsTrue v more = 0 := by
    rw [returnsTrue, List.countP_eq_zero]
    intro e member
    have other := elsewhere e member
    cases e with
    | put u f => exact Bool.false_ne_true
    | overwritten u f source => exact Bool.false_ne_true
    | returned u source replaced =>
      rw [decide_eq_true_eq]
      exact fun same => other same.1
  exact accounted_blank accounted put overwrite return_

section OneViewer

variable {c next : Cell} {v : ViewerId} {log : List Event} {update : Frame} {source : Source}

/-- The books are about the queue, the offer in progress and what has come of the others. -/
theorem accounted_same (accounted : Accounted c v log) (sent : next.sent = c.sent)
    (overwritten : next.overwritten = c.overwritten) (received : next.received = c.received)
    (updates : next.object.updates = c.object.updates) (offering : next.offering = c.offering) :
    Accounted next v log where
  sent := sent.trans accounted.sent
  balance := by
    rw [received, updates]
    exact accounted.balance
  returned := overwritten.trans accounted.returned
  pending := by
    unfold taken
    rw [overwritten, offering]
    exact accounted.pending
  initial := accounted.initial
  handler := by
    rw [offering]
    exact accounted.handler

theorem accounted_accept (accounted : Accounted c v log) (free : c.offering = none)
    (ok : c.accept update source = some next) : Accounted next v log := by
  obtain ⟨-, rfl⟩ := accept_some ok
  have pending := accounted.pending
  unfold taken at pending
  rw [free] at pending
  refine ⟨accounted.sent, accounted.balance, accounted.returned, pending, accounted.initial, ?_⟩
  intro o current _
  rw [← Option.some.inj current]
  exact (Option.some_ne_none _).symm

theorem accounted_drain (accounted : Accounted c v log)
    (current : c.offering = some ⟨update, source, none⟩)
    (first : source = .handler → c.object.updates = none) :
    Accounted (c.drain ⟨update, source, none⟩) v
      (log ++ c.object.updates.toList.map fun f => .overwritten v f source) := by
  have pending := accounted.pending
  have balance := accounted.balance
  unfold taken at pending
  rw [current] at pending
  rw [drain_eq]
  cases queued : c.object.updates with
  | none =>
    rw [queued] at balance
    rw [Option.toList_none, List.map_nil, List.append_nil]
    refine ⟨accounted.sent, balance, accounted.returned, pending, accounted.initial, ?_⟩
    intro o drained _
    rw [← Option.some.inj drained]
    simp
  | some f =>
    rw [queued] at balance
    have own : source ≠ .handler := by
      intro same
      rw [first same] at queued
      cases queued
    have out : overwrites v [.overwritten v f source] = [f] := by simp [overwrites]
    rw [Option.toList_some, List.map_singleton]
    refine ⟨?_, ?_, ?_, ?_, ?_, ?_⟩
    · rw [puts_append]
      exact accounted.sent.trans (congrArg List.length (List.append_nil _).symm)
    · have none_ : puts v [.overwritten v f source] = [] := rfl
      rw [puts_append, none_, List.append_nil, overwrites_append, out]
      refine balance.trans (List.Perm.append_left _ ?_)
      exact List.perm_append_comm
    · rw [returnsTrue_append]
      exact accounted.returned
    · rw [overwrites_append, out, List.length_append, pending]
      rfl
    · intro member
      rcases List.mem_append.mp member with old | new
      · exact accounted.initial old
      · cases List.mem_singleton.mp new
    · intro o drained handler
      rw [← Option.some.inj drained] at handler
      exact absurd handler own

theorem accounted_send {replaced : Bool} (accounted : Accounted c v log)
    (current : c.offering = some ⟨update, source, some replaced⟩)
    (vacant : c.object.updates = none) :
    Accounted (c.send ⟨update, source, some replaced⟩ replaced) v
      (log ++ [.put v update, .returned v source replaced]) := by
  have pending := accounted.pending
  have balance := accounted.balance
  have put : puts v [.put v update, .returned v source replaced] = [update] := by simp [puts]
  have none_ : overwrites v [.put v update, .returned v source replaced] = [] := rfl
  have one : returnsTrue v [.put v update, .returned v source replaced] = replaced.toNat := by
    cases replaced <;> simp [returnsTrue]
  unfold taken at pending
  rw [current] at pending
  rw [vacant] at balance
  simp only [Cell.send, Viewer.send, vacant]
  refine ⟨?_, ?_, ?_, ?_, ?_, ?_⟩
  · rw [puts_append, put, List.length_append, ← accounted.sent]
    rfl
  · rw [puts_append, put, overwrites_append, none_, List.append_nil]
    refine (balance.append_right _).trans ?_
    rw [Option.toList_none, List.nil_append, List.append_assoc]
    exact List.Perm.append_left _ List.perm_append_comm
  · rw [returnsTrue_append, one, ← accounted.returned]
  · rw [overwrites_append, none_, List.append_nil, pending]
    cases replaced <;> simp [taken]
  · intro member
    rcases List.mem_append.mp member with old | new
    · exact accounted.initial old
    · simp only [List.mem_cons, reduceCtorEq, Event.returned.injEq, List.not_mem_nil, or_false,
        false_or] at new
      obtain ⟨-, handler, replaced_⟩ := new
      exact accounted.handler _ current handler.symm (congrArg some replaced_.symm)
  · intro o offering
    cases offering

theorem accounted_receive (accounted : Accounted c v log) (ok : c.receive = some next) :
    Accounted next v log := by
  obtain ⟨-, f, queued, rfl⟩ := receive_some ok
  have balance := accounted.balance
  rw [queued] at balance
  refine ⟨accounted.sent, ?_, accounted.returned, accounted.pending, accounted.initial,
    accounted.handler⟩
  rw [List.append_assoc]
  exact balance

end OneViewer

def holds (c : Cell) (k : PublishId) : Bool :=
  c.offering.any fun o => o.source = .publish k ∧ o.replaced = some true

/-- What a publish has taken out and not counted yet. -/
def inHand (w : World) (k : PublishId) : Nat :=
  ((w.publishes k).current.any fun v => holds (w.cells v) k).toNat

/-- The first frame of a viewer is not newer than those published before it joined. -/
structure Early (w : World) (v : ViewerId) : Prop where
  bound : (w.handlers v).latest.prepared ≠ none →
    (w.handlers v).latest.generation ≤ (w.handlers v).joinedAt
  own : ∀ o, (w.cells v).offering = some o → o.source = .handler →
    o.update = (w.handlers v).latest

def finished (w : World) (k : PublishId) : Bool := (w.publishes k).stage = .returned

/-- Outside its loop a publish is in no offer; before it, it has counted nothing. -/
structure AtRest (call : Publish) : Prop where
  unused : call.stage = .idle → call.dropped = 0
  nobody : call.stage ≠ .offering → call.current = none

structure Books (log : List Event) (w : World) : Prop where
  viewers : ∀ v, Accounted (w.cells v) v log
  early : ∀ v, Early w v
  calls : ∀ k, (w.publishes k).dropped + inHand w k = overwrittenBy (fun j => j = k) log
  rest : ∀ k, AtRest (w.publishes k)
  total : w.viewerFramesDropped = overwrittenBy (finished w) log
  publishers : ∀ v f, Event.overwritten v f .handler ∉ log

theorem books_started (maxViewers : RoomId → Nat) : Books [] (started maxViewers) where
  viewers v := accounted_new v
  early v := ⟨fun some_ => absurd rfl some_, fun o offering => by cases offering⟩
  calls _ := rfl
  rest _ := ⟨fun _ => rfl, fun _ => rfl⟩
  total := rfl
  publishers _ _ := List.not_mem_nil

theorem inHand_same {w next : World} {k : PublishId}
    (current : (next.publishes k).current = (w.publishes k).current)
    (same : ∀ v, (w.publishes k).current = some v → holds (next.cells v) k = holds (w.cells v) k) :
    inHand next k = inHand w k := by
  unfold inHand
  rw [current]
  cases here : (w.publishes k).current with
  | none => rfl
  | some v => simp only [Option.any_some, same v here]

theorem inHand_free {w : World} {k : PublishId} (nobody : (w.publishes k).current = none) :
    inHand w k = 0 := by
  simp [inHand, nobody]

/-- The first offer of a viewer comes before anything newer, so it finds the queue empty. -/
theorem first_offer_finds_empty {ttl : Int} {w : World} {v : ViewerId} {update : Frame}
    (h : Ok ttl w) (early : Early w v)
    (current : (w.cells v).offering = some ⟨update, .handler, none⟩) :
    (w.cells v).object.updates = none := by
  have forward := (h.viewers v).cell.forward
  rw [held, current] at forward
  obtain ⟨candidate, top, lower, -⟩ := forward.offering update false rfl
  have own := early.own _ current rfl
  change update = _ at own
  subst own
  have some_ : (w.handlers v).latest.prepared ≠ none := by
    rcases candidate with ⟨-, some_⟩ | ⟨published, -⟩
    · exact some_
    · exact (h.rooms _).prepared _ published
  rw [Option.eq_none_iff_forall_ne_some]
  intro f queued
  have member : f ∈ stream (w.cells v).received (w.cells v).object.updates := by
    rw [queued, stream_some]
    exact List.mem_append_right _ List.mem_cons_self
  have below := lower f member
  have bound := early.bound some_
  rcases forward.candidates f member with ⟨same, -⟩ | ⟨-, later⟩
  · rw [same, top] at below
    exact absurd below (Nat.lt_irrefl _)
  · omega

/-- A step after which the publishes have taken out as many frames as before. -/
structure Level (w next : World) : Prop where
  returned : finished next = finished w
  calls : ∀ k, (next.publishes k).dropped + inHand next k = (w.publishes k).dropped + inHand w k
  rest : ∀ k, AtRest (next.publishes k)
  total : next.viewerFramesDropped = w.viewerFramesDropped

theorem overwrittenBy_clean {more : List Event}
    (clean : ∀ v f source, Event.overwritten v f source ∉ more) (chosen : PublishId → Bool) :
    overwrittenBy chosen more = 0 := by
  rw [overwrittenBy, List.countP_eq_zero]
  intro e member
  cases e with
  | put v f => exact Bool.false_ne_true
  | overwritten v f source => exact absurd member (clean v f source)
  | returned v source replaced => exact Bool.false_ne_true

section OneStep

variable {w next : World} {log more : List Event} {v : ViewerId}

theorem books_level (books : Books log w) (level : Level w next)
    (clean : ∀ u f source, Event.overwritten u f source ∉ more)
    (viewers : ∀ u, Accounted (next.cells u) u (log ++ more)) (early : ∀ u, Early next u) :
    Books (log ++ more) next where
  viewers := viewers
  early := early
  calls k := by
    rw [overwrittenBy_append, overwrittenBy_clean clean, Nat.add_zero, level.calls]
    exact books.calls k
  rest := level.rest
  total := by
    rw [overwrittenBy_append, overwrittenBy_clean clean, Nat.add_zero, level.returned, level.total]
    exact books.total
  publishers u f member := by
    rcases List.mem_append.mp member with old | new
    · exact books.publishers u f old
    · exact clean u f .handler new

theorem accounted_step (books : Books log w) (others : ∀ u, u ≠ v → next.cells u = w.cells u)
    (about : ∀ e ∈ more, e.viewer = v) (own : Accounted (next.cells v) v (log ++ more))
    (u : ViewerId) : Accounted (next.cells u) u (log ++ more) := by
  by_cases e : u = v
  · subst u
    exact own
  · rw [others u e]
    refine accounted_elsewhere (books.viewers u) fun event member => ?_
    rw [about event member]
    exact fun same => e same.symm

theorem early_kept (early : ∀ u, Early w u)
    (latest : ∀ u, (next.handlers u).latest = (w.handlers u).latest)
    (joinedAt : ∀ u, (next.handlers u).joinedAt = (w.handlers u).joinedAt)
    (own : ∀ u o, (next.cells u).offering = some o → o.source = .handler →
      o.update = (w.handlers u).latest) (u : ViewerId) : Early next u where
  bound := by
    rw [latest, joinedAt]
    exact (early u).bound
  own := by
    rw [latest]
    exact own u

theorem early_at (early : ∀ u, Early w u) (others : ∀ u, u ≠ v → next.cells u = w.cells u)
    (latest : ∀ u, (next.handlers u).latest = (w.handlers u).latest)
    (joinedAt : ∀ u, (next.handlers u).joinedAt = (w.handlers u).joinedAt)
    (first : ∀ o, (next.cells v).offering = some o → o.source = .handler →
      o.update = (w.handlers v).latest) : ∀ u, Early next u := by
  refine early_kept early latest joinedAt fun u => ?_
  by_cases e : u = v
  · subst u
    exact first
  · rw [others u e]
    exact (early u).own

theorem level_calls (books : Books log w) (publishes : next.publishes = w.publishes)
    (total : next.viewerFramesDropped = w.viewerFramesDropped)
    (same : ∀ u k, holds (next.cells u) k = holds (w.cells u) k) : Level w next where
  returned := by
    funext k
    unfold finished
    rw [publishes]
  calls k := by
    rw [inHand_same (by rw [publishes]) fun u _ => same u k, publishes]
  rest k := by
    rw [publishes]
    exact books.rest k
  total := total

theorem books_outside (books : Books log w) (cells : next.cells = w.cells)
    (publishes : next.publishes = w.publishes)
    (total : next.viewerFramesDropped = w.viewerFramesDropped)
    (early : ∀ u, Early next u) : Books (log ++ []) next := by
  refine books_level books (level_calls books publishes total fun u k => ?_)
    (fun _ _ _ => List.not_mem_nil) (fun u => ?_) early
  · rw [cells]
  · rw [cells, List.append_nil]
    exact books.viewers u

theorem books_cell {cell : Cell} (books : Books log w)
    (cells : next.cells = Function.update w.cells v cell)
    (publishes : next.publishes = w.publishes)
    (total : next.viewerFramesDropped = w.viewerFramesDropped)
    (latest : ∀ u, (next.handlers u).latest = (w.handlers u).latest)
    (joinedAt : ∀ u, (next.handlers u).joinedAt = (w.handlers u).joinedAt)
    (clean : ∀ u f source, Event.overwritten u f source ∉ more)
    (about : ∀ e ∈ more, e.viewer = v) (own : Accounted cell v (log ++ more))
    (same : ∀ k, holds cell k = holds (w.cells v) k)
    (first : ∀ o, cell.offering = some o → o.source = .handler →
      o.update = (w.handlers v).latest) : Books (log ++ more) next := by
  have here : next.cells v = cell := by rw [cells, Function.update_self]
  have others : ∀ u, u ≠ v → next.cells u = w.cells u := fun u other => by
    rw [cells, Function.update_of_ne other]
  refine books_level books (level_calls books publishes total fun u k => ?_) clean
    (accounted_step books others about (by rw [here]; exact own))
    (early_at books.early others latest joinedAt (by rw [here]; exact first))
  by_cases e : u = v
  · subst u
    rw [here, same]
  · rw [others u e]

theorem level_setPublish {k : PublishId} {call : Publish} (books : Books log w)
    (publishes : next.publishes = Function.update w.publishes k call)
    (before : (w.publishes k).stage ≠ .returned) (running : call.stage = .offering)
    (total : next.viewerFramesDropped = w.viewerFramesDropped)
    (own : call.dropped + inHand next k = (w.publishes k).dropped + inHand w k)
    (others : ∀ u j, j ≠ k → holds (next.cells u) j = holds (w.cells u) j) : Level w next := by
  have here : next.publishes k = call := by rw [publishes, Function.update_self]
  have there : ∀ j, j ≠ k → next.publishes j = w.publishes j := fun j other => by
    rw [publishes, Function.update_of_ne other]
  refine ⟨funext fun j => ?_, fun j => ?_, fun j => ?_, total⟩
  all_goals by_cases e : j = k
  · subst j
    simp [finished, here, running, before]
  · unfold finished
    rw [there j e]
  · subst j
    rw [here]
    exact own
  · rw [there j e, inHand_same (by rw [there j e]) fun u _ => others u j e]
  · subst j
    rw [here]
    refine ⟨fun idle => ?_, fun over_ => absurd running over_⟩
    rw [running] at idle
    cases idle
  · rw [there j e]
    exact books.rest j

end OneStep

theorem stage_kept (w : World) (v : ViewerId) (stage : HandlerStage) (u : ViewerId) :
    ((w.setHandler v { w.handlers v with stage }).handlers u).latest = (w.handlers u).latest ∧
      ((w.setHandler v { w.handlers v with stage }).handlers u).joinedAt =
        (w.handlers u).joinedAt := by
  by_cases e : u = v
  · subst u
    simp [World.setHandler]
  · simp [World.setHandler, e]

theorem early_stage {w : World} {log : List Event} (books : Books log w) (v : ViewerId)
    (stage : HandlerStage) (u : ViewerId) :
    Early (w.setHandler v { w.handlers v with stage }) u :=
  early_kept books.early (fun u => (stage_kept w v stage u).1)
    (fun u => (stage_kept w v stage u).2) (fun u => (books.early u).own) u

theorem accounted_refused {c : Cell} {v u : ViewerId} {log : List Event} {source : Source}
    (accounted : Accounted c v log) : Accounted c v (log ++ [.returned u source false]) :=
  accounted_blank accounted rfl rfl (by simp [returnsTrue])

theorem holds_free {c : Cell} (free : c.offering = none) (k : PublishId) : holds c k = false := by
  simp [holds, free]

theorem holds_accept {c cell : Cell} {update : Frame} {source : Source}
    (ok : c.accept update source = some cell) (k : PublishId) : holds cell k = false := by
  obtain ⟨-, rfl⟩ := accept_some ok
  simp [holds]

section Steps

variable {ttl : Int} {w next : World} {log : List Event} {v : ViewerId}

theorem books_initial (books : Books log w)
    (taken : step ttl w (.initialOffer v) = some next) :
    Books (log ++ events w (.initialOffer v)) next := by
  simp only [step, Option.ite_none_right_eq_some] at taken
  obtain ⟨stage, taken⟩ := taken
  by_cases nothing : (w.handlers v).latest.prepared = none
  · rw [if_pos nothing] at taken
    have none_ : events w (.initialOffer v) = [] := by simp [events, nothing]
    rw [none_, ← Option.some.inj taken]
    exact books_outside books rfl rfl rfl (early_stage books v .offered)
  · rw [if_neg nothing] at taken
    split at taken
    · cases taken
    · rename_i busy
      have free : (w.cells v).offering = none := by simpa using busy
      split at taken <;> rw [← Option.some.inj taken]
      · rename_i refused
        have one : events w (.initialOffer v) = [.returned v .handler false] := by
          simp [events, stage, nothing, refused]
        rw [one]
        exact books_level books (level_calls books rfl rfl fun _ _ => rfl) (by simp)
          (fun u => accounted_refused (books.viewers u)) (early_stage books v .offered)
      · rename_i cell ok
        have none_ : events w (.initialOffer v) = [] := by simp [events, ok]
        rw [none_]
        refine books_cell books rfl rfl rfl (fun u => (stage_kept w v .offering u).1)
          (fun u => (stage_kept w v .offering u).2) (by simp) (by simp) ?_ (fun k => ?_) ?_
        · rw [List.append_nil]
          exact accounted_accept (books.viewers v) free ok
        · rw [holds_accept ok, holds_free free]
        · obtain ⟨-, rfl⟩ := accept_some ok
          intro o current _
          rw [← Option.some.inj current]

theorem books_join {r : RoomId} {now : Time} (h : Ok ttl w) (books : Books log w)
    (taken : step ttl w (.join v r now) = some next) : Books (log ++ []) next := by
  simp only [step, Option.ite_none_right_eq_some] at taken
  obtain ⟨idle, taken⟩ := taken
  split at taken <;> rw [← Option.some.inj taken]
  · exact books_outside books rfl rfl rfl (early_stage books v .gone)
  · rename_i room latest ok
    have joined := joined_join ok
    obtain ⟨-, -, -, kept⟩ := add_viewer_ok ok
    refine books_outside books rfl rfl rfl fun u => ?_
    by_cases e : u = v
    · subst u
      refine ⟨fun some_ => ?_, fun o current => ?_⟩
      · rw [joined.self] at some_ ⊢
        rcases kept with zero | ⟨same, -⟩
        · exact absurd (congrArg Frame.prepared zero) some_
        · rw [same] at some_ ⊢
          exact (generation_bounds (h.rooms r) ((h.rooms r).latest some_)).2
      · have fresh : (w.cells v).offering = some o := current
        rw [(h.viewers v).fresh idle] at fresh
        cases fresh
    · have old := books.early u
      constructor
      · rw [joined.others u e]
        exact old.bound
      · rw [joined.others u e]
        exact old.own

theorem books_offer {k : PublishId} (books : Books log w)
    (taken : step ttl w (.offer k v) = some next) :
    Books (log ++ events w (.offer k v)) next := by
  simp only [step, Option.ite_none_right_eq_some] at taken
  obtain ⟨⟨stage, -, idle, free⟩, taken⟩ := taken
  have before : (w.publishes k).stage ≠ .returned := by simp [stage]
  split at taken <;> rw [← Option.some.inj taken]
  · rename_i refused
    have one : events w (.offer k v) = [.returned v (.publish k) false] := by
      simp [events, refused]
    rw [one]
    refine books_level books (level_setPublish books rfl before stage rfl ?_ fun _ _ _ => rfl)
      (by simp) (fun u => accounted_refused (books.viewers u))
      (fun u => ⟨(books.early u).bound, (books.early u).own⟩)
    exact congrArg ((w.publishes k).dropped + ·)
      (inHand_same (by simp [World.setPublish]) fun _ _ => rfl)
  · rename_i cell ok
    have none_ : events w (.offer k v) = [] := by simp [events, ok]
    rw [none_]
    have here : ((w.setCell v cell).setPublish k { w.publishes k with
        pending := (w.publishes k).pending.erase v, current := some v }).cells v = cell :=
      Function.update_self _ _ _
    have others : ∀ u, u ≠ v → ((w.setCell v cell).setPublish k { w.publishes k with
        pending := (w.publishes k).pending.erase v, current := some v }).cells u = w.cells u :=
      fun _ other => Function.update_of_ne other _ _
    refine books_level books (level_setPublish books rfl before stage rfl ?_ fun u j _ => ?_)
      (by simp) (accounted_step books others (by simp) ?_)
      (early_at books.early others (fun _ => rfl) (fun _ => rfl) ?_)
    · simp [inHand, idle, holds_accept ok, World.setPublish, World.setCell]
    · by_cases e : u = v
      · subst u
        rw [here, holds_accept ok, holds_free free]
      · rw [others u e]
    · rw [here, List.append_nil]
      exact accounted_accept (books.viewers v) free ok
    · rw [here]
      obtain ⟨-, rfl⟩ := accept_some ok
      intro o current handler
      rw [← Option.some.inj current] at handler
      cases handler

theorem books_publish {k : PublishId} {r : RoomId} {payload : Bytes} {now : Time}
    (books : Books log w) (taken : step ttl w (.publish k r payload now) = some next) :
    Books (log ++ []) next := by
  simp only [step, Option.ite_none_right_eq_some] at taken
  obtain ⟨idle, taken⟩ := taken
  rw [← Option.some.inj taken]
  have unused := (books.rest k).unused idle
  have nobody := (books.rest k).nobody (by simp [idle])
  refine books_level books (level_setPublish books rfl (by simp [idle]) rfl rfl ?_ fun _ _ _ => rfl)
    (fun _ _ _ => List.not_mem_nil) (fun u => ?_)
    (fun u => ⟨(books.early u).bound, (books.early u).own⟩)
  · rw [unused, inHand_free nobody]
    exact (Nat.zero_add _).trans (inHand_free (by simp [World.setPublish]))
  · rw [List.append_nil]
    exact books.viewers u

theorem overwrittenBy_add {chosen : PublishId → Bool} {k : PublishId} (new : chosen k = false) :
    overwrittenBy (fun j => chosen j || j = k) log =
      overwrittenBy chosen log + overwrittenBy (fun j => j = k) log := by
  induction log with
  | nil => rfl
  | cons e rest ih =>
    have split (some_ : PublishId → Bool) := overwrittenBy_append some_ [e] rest
    rw [List.singleton_append] at split
    rw [split, split, split, ih]
    have one : overwrittenBy (fun j => chosen j || j = k) [e] =
        overwrittenBy chosen [e] + overwrittenBy (fun j => j = k) [e] := by
      cases e with
      | put v f => rfl
      | returned v source replaced => rfl
      | overwritten v f source =>
        cases source with
        | handler => rfl
        | publish j =>
          by_cases e : j = k
          · subst j
            simp [overwrittenBy, new]
          · simp [overwrittenBy, e]
    omega

/-- The loop is over: what the publish took out is now in the relay's count. -/
theorem books_finish {k : PublishId} (books : Books log w)
    (taken : step ttl w (.finish k) = some next) : Books (log ++ []) next := by
  simp only [step, Option.ite_none_right_eq_some, Option.some.injEq] at taken
  obtain ⟨⟨stage, -, nobody⟩, rfl⟩ := taken
  rw [List.append_nil]
  refine ⟨books.viewers, fun u => ⟨(books.early u).bound, (books.early u).own⟩, fun j => ?_,
    fun j => ?_, ?_, books.publishers⟩
  · rw [← books.calls j]
    by_cases e : j = k
    · subst j
      simp [inHand, World.setPublish]
    · simp [inHand, World.setPublish, e]
  · by_cases e : j = k
    · subst j
      simp only [World.setPublish, Function.update_self]
      exact ⟨fun idle => (by cases idle), fun _ => nobody⟩
    · simp only [World.setPublish, Function.update_of_ne e]
      exact books.rest j
  · have running : finished w k = false := by simp [finished, stage]
    have counted : (w.publishes k).dropped = overwrittenBy (fun j => j = k) log := by
      rw [← books.calls k, inHand_free nobody, Nat.add_zero]
    have more : finished { w.setPublish k { w.publishes k with stage := .returned } with
        viewerFramesDropped := w.viewerFramesDropped + (w.publishes k).dropped } =
        fun j => finished w j || j = k := by
      funext j
      by_cases e : j = k
      · subst j
        simp [finished, World.setPublish]
      · simp [finished, World.setPublish, e]
    rw [more, overwrittenBy_add running, ← counted, ← books.total]

theorem drain_taken (taken : step ttl w (.drain v) = some next) :
    ∃ update source, (w.cells v).offering = some ⟨update, source, none⟩ ∧
      next = w.setCell v ((w.cells v).drain ⟨update, source, none⟩) := by
  simp only [step] at taken
  split at taken
  · rename_i update source current
    exact ⟨update, source, current, (Option.some.inj taken).symm⟩
  · cases taken

theorem send_taken (taken : step ttl w (.send v) = some next) :
    ∃ update source replaced, (w.cells v).offering = some ⟨update, source, some replaced⟩ ∧
      next = (w.setCell v
        ((w.cells v).send ⟨update, source, some replaced⟩ replaced)).offered v replaced source := by
  simp only [step] at taken
  split at taken
  · rename_i update source replaced current
    exact ⟨update, source, replaced, current, (Option.some.inj taken).symm⟩
  · cases taken

theorem caller_running (h : Ok ttl w) {update : Frame} {k : PublishId} {replaced : Option Bool}
    (current : (w.cells v).offering = some ⟨update, .publish k, replaced⟩) :
    (w.publishes k).stage = .offering ∧ (w.publishes k).current = some v := by
  rcases (h.viewers v).caller _ current with ⟨source, -⟩ | ⟨j, source, running, serving⟩
  · cases source
  · cases source
    exact ⟨running, serving⟩

/-- A publish takes a frame out: it has one more in hand until it counts it. -/
theorem books_drain_publish {update f : Frame} {k : PublishId} (h : Ok ttl w)
    (books : Books log w) (current : (w.cells v).offering = some ⟨update, .publish k, none⟩)
    (queued : (w.cells v).object.updates = some f) :
    Books (log ++ [.overwritten v f (.publish k)])
      (w.setCell v ((w.cells v).drain ⟨update, .publish k, none⟩)) := by
  obtain ⟨running, serving⟩ := caller_running h current
  have own := accounted_drain (books.viewers v) current fun handler => by cases handler
  rw [queued] at own
  have drained : ((w.cells v).drain ⟨update, .publish k, none⟩).offering =
      some ⟨update, .publish k, some true⟩ := by rw [drain_eq, queued, Option.isSome_some]
  generalize (w.cells v).drain ⟨update, .publish k, none⟩ = cell at *
  have here : (w.setCell v cell).cells v = cell := Function.update_self _ _ _
  have others : ∀ u, u ≠ v → (w.setCell v cell).cells u = w.cells u :=
    fun _ other => Function.update_of_ne other _ _
  refine ⟨accounted_step books others (fun e member => ?_) (by rw [here]; exact own),
    early_at books.early others (fun _ => rfl) (fun _ => rfl) ?_, fun j => ?_, books.rest,
    ?_, fun u g member => ?_⟩
  · rw [List.mem_singleton.mp member]
    rfl
  · rw [here, drained]
    intro o now handler
    rw [← Option.some.inj now] at handler
    cases handler
  · rw [overwrittenBy_append, ← books.calls j]
    by_cases e : j = k
    · subst j
      have after : inHand (w.setCell v cell) k = 1 := by
        simp [inHand, World.setCell, serving, holds, drained]
      have before : inHand w k = 0 := by simp [inHand, serving, holds, current]
      have one : overwrittenBy (fun j => j = k) [.overwritten v f (.publish k)] = 1 := by
        simp [overwrittenBy]
      rw [after, before, one]
      rfl
    · have same : inHand (w.setCell v cell) j = inHand w j := by
        refine inHand_same rfl fun u _ => ?_
        by_cases e' : u = v
        · subst u
          simp [here, holds, drained, current, Ne.symm e]
        · rw [others u e']
      have none_ : overwrittenBy (fun i => i = j) [.overwritten v f (.publish k)] = 0 := by
        simp [overwrittenBy, Ne.symm e]
      rw [same, none_]
      rfl
  · have none_ : overwrittenBy (finished w) [.overwritten v f (.publish k)] = 0 := by
      simp [overwrittenBy, finished, running]
    have still : finished (w.setCell v cell) = finished w := rfl
    rw [overwrittenBy_append, still, none_]
    exact books.total
  · rcases List.mem_append.mp member with old | new
    · exact books.publishers u g old
    · cases List.mem_singleton.mp new

theorem books_drain (h : Ok ttl w) (books : Books log w)
    (taken : step ttl w (.drain v) = some next) : Books (log ++ events w (.drain v)) next := by
  obtain ⟨update, source, current, rfl⟩ := drain_taken taken
  have first : source = .handler → (w.cells v).object.updates = none := by
    rintro rfl
    exact first_offer_finds_empty h (books.early v) current
  cases queued : (w.cells v).object.updates with
  | none =>
    have own := accounted_drain (books.viewers v) current first
    have none_ : events w (.drain v) = [] := by simp [events, current, queued]
    have drained : ((w.cells v).drain ⟨update, source, none⟩).offering =
        some ⟨update, source, some false⟩ := by rw [drain_eq, queued, Option.isSome_none]
    rw [queued] at own
    rw [none_]
    refine books_cell books rfl rfl rfl (fun _ => rfl) (fun _ => rfl) (by simp) (by simp) own
      (fun k => ?_) ?_
    · simp [holds, drained, current]
    · rw [drained]
      intro o now handler
      rw [← Option.some.inj now] at handler ⊢
      exact (books.early v).own ⟨update, source, none⟩ current handler
  | some f =>
    cases source with
    | handler =>
      rw [first rfl] at queued
      cases queued
    | publish k =>
      have one : events w (.drain v) = [.overwritten v f (.publish k)] := by
        simp [events, current, queued]
      rw [one]
      exact books_drain_publish h books current queued

theorem books_send_publish {update : Frame} {k : PublishId} {replaced : Bool} (h : Ok ttl w)
    (books : Books log w)
    (current : (w.cells v).offering = some ⟨update, .publish k, some replaced⟩) :
    Books (log ++ [.put v update, .returned v (.publish k) replaced])
      ((w.setCell v ((w.cells v).send ⟨update, .publish k, some replaced⟩ replaced)).offered v
        replaced (.publish k)) := by
  obtain ⟨running, serving⟩ := caller_running h current
  have own := accounted_send (books.viewers v) current (send_finds_room (h.viewers v).cell current)
  have free := (send_eq (h.viewers v).cell current).1
  generalize (w.cells v).send ⟨update, .publish k, some replaced⟩ replaced = cell at *
  have here : ((w.setCell v cell).offered v replaced (.publish k)).cells v = cell :=
    Function.update_self _ _ _
  have others : ∀ u, u ≠ v →
      ((w.setCell v cell).offered v replaced (.publish k)).cells u = w.cells u :=
    fun _ other => Function.update_of_ne other _ _
  refine books_level books (level_setPublish books rfl (by simp [running]) running rfl ?_ ?_)
    (by simp) (accounted_step books others (by simp [Event.viewer]) (by rw [here]; exact own))
    (early_at books.early others (fun _ => rfl) (fun _ => rfl) ?_)
  · have after : inHand ((w.setCell v cell).offered v replaced (.publish k)) k = 0 :=
      inHand_free (by simp [World.offered, World.setPublish])
    have before : inHand w k = replaced.toNat := by simp [inHand, serving, holds, current]
    rw [after, before]
    rfl
  · intro u j other
    by_cases e : u = v
    · subst u
      rw [here, holds_free free]
      simp [holds, current, Ne.symm other]
    · rw [others u e]
  · rw [here, free]
    exact fun o now => by cases now

theorem books_send (h : Ok ttl w) (books : Books log w)
    (taken : step ttl w (.send v) = some next) : Books (log ++ events w (.send v)) next := by
  obtain ⟨update, source, replaced, current, rfl⟩ := send_taken taken
  have vacant := send_finds_room (h.viewers v).cell current
  have both : events w (.send v) = [.put v update, .returned v source replaced] := by
    simp [events, current, Viewer.send, vacant]
  rw [both]
  cases source with
  | publish k => exact books_send_publish h books current
  | handler =>
    have free := (send_eq (h.viewers v).cell current).1
    refine books_cell books rfl rfl rfl (fun u => (stage_kept w v .offered u).1)
      (fun u => (stage_kept w v .offered u).2) (by simp) (by simp [Event.viewer])
      (accounted_send (books.viewers v) current vacant) (fun k => ?_) ?_
    · rw [holds_free free]
      simp [holds, current]
    · rw [free]
      exact fun o now => by cases now

theorem books_writer {cell : Cell} (books : Books log w)
    (offering : cell.offering = (w.cells v).offering) (own : Accounted cell v log) :
    Books (log ++ []) (w.setCell v cell) := by
  refine books_cell books rfl rfl rfl (fun _ => rfl) (fun _ => rfl) (by simp) (by simp)
    (by rw [List.append_nil]; exact own) (fun k => ?_) ?_
  · unfold holds
    rw [offering]
  · rw [offering]
    exact (books.early v).own

theorem books_receive (books : Books log w) (taken : step ttl w (.receive v) = some next) :
    Books (log ++ []) next := by
  simp only [step] at taken
  split at taken
  · rename_i cell ok
    rw [← Option.some.inj taken]
    refine books_writer books ?_ (accounted_receive (books.viewers v) ok)
    obtain ⟨-, f, -, rfl⟩ := receive_some ok
    rfl
  · cases taken

theorem books_decide {now : Time} (books : Books log w)
    (taken : step ttl w (.decide v now) = some next) : Books (log ++ []) next := by
  simp only [step] at taken
  split at taken
  · rename_i cell ok
    rw [← Option.some.inj taken]
    obtain ⟨update, -, rfl | ⟨deadline, -, rfl⟩⟩ := decide_some ok
    · exact books_writer books rfl (accounted_same (books.viewers v) rfl rfl rfl rfl rfl)
    · exact books_writer books rfl (accounted_same (books.viewers v) rfl rfl rfl rfl rfl)
  · cases taken

theorem books_step {a : Act} (h : Ok ttl w) (books : Books log w)
    (taken : step ttl w a = some next) : Books (log ++ events w a) next := by
  cases a with
  | join v r now => exact books_join h books taken
  | initialOffer v => exact books_initial books taken
  | publish k r payload now => exact books_publish books taken
  | offer k v => exact books_offer books taken
  | finish k => exact books_finish books taken
  | drain v => exact books_drain h books taken
  | send v => exact books_send h books taken
  | receive v => exact books_receive books taken
  | decide v now => exact books_decide books taken
  | startWriter v =>
    simp only [step, Option.ite_none_right_eq_some, Option.some.injEq] at taken
    obtain ⟨-, rfl⟩ := taken
    exact books_writer books rfl (accounted_same (books.viewers v) rfl rfl rfl rfl rfl)
  | leave v =>
    simp only [step, Option.ite_none_right_eq_some, Option.some.injEq] at taken
    obtain ⟨-, rfl⟩ := taken
    have early := early_stage books v .gone
    exact books_outside books rfl rfl rfl fun u => ⟨(early u).bound, (early u).own⟩
  | expire r now =>
    simp only [step, Option.some.injEq] at taken
    rw [← taken]
    exact books_outside books rfl rfl rfl
      fun u => ⟨(books.early u).bound, (books.early u).own⟩

end Steps

def overwritings (log : List Event) : Nat :=
  log.countP fun e => match e with
    | .overwritten _ _ _ => true
    | _ => false

/-- The counts in a state and what the run to it did to the queues. A frame that an offer in
   progress has taken out is overwritten already and returned for later. -/
structure Conserved (log : List Event) (w : World) : Prop where
  frames : ∀ v, (puts v log).Perm
    ((w.cells v).received ++ ((w.cells v).object.updates.toList ++ overwrites v log))
  returned : ∀ v, (overwrites v log).length = returnsTrue v log + (taken (w.cells v)).toNat
  balance : ∀ v, (puts v log).length = (w.cells v).received.length +
    (w.cells v).object.updates.toList.length + returnsTrue v log + (taken (w.cells v)).toNat
  settled : ∀ v, (w.cells v).offering = none → taken (w.cells v) = false
  queued : ∀ v, (w.cells v).object.updates.toList.length ≤ 1
  initial : ∀ v, Event.returned v .handler true ∉ log
  calls : ∀ k, (w.publishes k).stage = .returned →
    (w.publishes k).dropped = overwrittenBy (fun j => j = k) log
  reported : w.viewerFramesDropped = overwrittenBy (finished w) log
  total : (∀ k, (w.publishes k).stage ≠ .offering) → w.viewerFramesDropped = overwritings log

theorem overwritten_finished {log : List Event} {w : World} (books : Books log w)
    (over_ : ∀ k, (w.publishes k).stage ≠ .offering) :
    overwrittenBy (finished w) log = overwritings log := by
  refine List.countP_congr fun e member => ?_
  cases e with
  | put v f => exact Iff.rfl
  | returned v source replaced => exact Iff.rfl
  | overwritten v f source =>
    cases source with
    | handler => exact absurd member (books.publishers v f)
    | publish k =>
      have counted : overwrittenBy (fun j => j = k) log ≠ 0 := by
        rw [← Nat.pos_iff_ne_zero, overwrittenBy, List.countP_pos_iff]
        exact ⟨_, member, decide_eq_true rfl⟩
      have stage : (w.publishes k).stage = .returned := by
        cases now : (w.publishes k).stage with
        | idle =>
          have nobody := (books.rest k).nobody (over_ k)
          rw [← books.calls k, (books.rest k).unused now, inHand_free nobody] at counted
          exact absurd rfl counted
        | offering => exact absurd now (over_ k)
        | returned => rfl
      simp [finished, stage]

theorem frames_accounted (ttl : Int) (maxViewers : RoomId → Nat) {actions : List Act} {w : World}
    (run : (relay ttl).exec (started maxViewers) actions = some w) :
    Conserved ((relay ttl).history events (started maxViewers) actions) w := by
  have begun : (relay ttl).init (started maxViewers) := ⟨maxViewers, rfl⟩
  have kept : ∀ log s a t, (relay ttl).Reachable s → Books log s →
      (relay ttl).step s a = some t → Books (log ++ events s a) t :=
    fun log s a t reach books taken =>
      books_step (reachable_invariant (relay ttl) (ok_invariant ttl) reach) books taken
  have books := history_preserves (relay ttl) kept (reachable_start (relay ttl) begun)
    (books_started maxViewers) run
  have reach := reachable_exec (relay ttl) (reachable_start (relay ttl) begun) run
  rw [List.nil_append] at books
  generalize (relay ttl).history events (started maxViewers) actions = log at *
  constructor
  case frames => exact fun v => (books.viewers v).balance
  case returned =>
    intro v
    rw [← (books.viewers v).returned]
    exact (books.viewers v).pending
  case balance =>
    intro v
    have pending := (books.viewers v).pending
    rw [(books.viewers v).returned] at pending
    have length := (books.viewers v).balance.length_eq
    rw [List.length_append, List.length_append, pending] at length
    rw [length, ← Nat.add_assoc, ← Nat.add_assoc]
  case settled =>
    intro v free
    simp [taken, free]
  case queued =>
    intro v
    cases (w.cells v).object.updates with
    | none => exact Nat.zero_le 1
    | some f => exact Nat.le_refl 1
  case initial => exact fun v => (books.viewers v).initial
  case calls =>
    intro k returned
    have nobody := (books.rest k).nobody (by simp [returned])
    rw [← books.calls k, inHand_free nobody, Nat.add_zero]
  case reported => exact books.total
  case total =>
    intro over_
    rw [books.total]
    exact overwritten_finished books over_

/-- The retained frame goes in first and is overwritten before the writer starts; a second
   publish finds the queue emptied by the writer. -/
def behind : List Act :=
  [.publish 0 [97] [1] 10, .finish 0, .join 0 [97] 20, .initialOffer 0, .drain 0, .send 0,
   .publish 1 [97] [2] 30, .offer 1 0, .drain 0, .send 0, .publish 2 [97] [3] 40, .finish 1,
   .startWriter 0, .offer 2 0, .receive 0, .drain 0, .send 0, .finish 2]

def behindWorld : World := ((relay 3000).exec (started fun _ => 2) behind).get rfl

theorem frames_accounted_behind :
    behindWorld.viewerFramesDropped = 1 ∧
      (puts 0 ((relay 3000).history events (started fun _ => 2) behind)).map Frame.generation =
        [1, 2, 3] ∧
      Conserved ((relay 3000).history events (started fun _ => 2) behind) behindWorld :=
  ⟨rfl, rfl, frames_accounted 3000 (fun _ => 2) (Option.some_get _).symm⟩

end RelayAccounting
