import GameSecurity.RelayDelivery

/- What a viewer's writer sees of its room, over every interleaving of publishes, offers,
   joins, leaves, expiries and receives. -/
namespace RelayFreshness
open Runs RelayRoom RelayDelivery LatestSlot

/-- The frames a viewer is owed: what `addViewer` returned and what came after it. -/
def Since (w : World) (v : ViewerId) (f : Frame) : Prop :=
  (f = (w.handlers v).latest ∧ f.prepared ≠ none) ∨
    (f ∈ w.published (w.handlers v).room ∧ (w.handlers v).joinedAt < f.generation)

def held (c : Cell) : Option (Frame × Bool) :=
  c.offering.map fun o => (o.update, o.replaced.isSome)

structure CellOk (ttl : Int) (since : Frame → Prop) (c : Cell) : Prop where
  forward : Forward Frame.generation since c.object.newestGeneration c.object.updates c.received
    (held c)
  reading : ∀ f, c.writer = .read f → f ∈ c.received
  written : ∀ x ∈ c.writes, x.update ∈ c.received ∧
    x.now < x.update.publishedAt + ttl ∧ x.deadline ≤ x.update.publishedAt + ttl

theorem cellOk_new (ttl : Int) (since : Frame → Prop) : CellOk ttl since newCell :=
  ⟨forward_start, by simp [newCell], by simp [newCell]⟩

theorem cellOk_mono {ttl : Int} {since more : Frame → Prop} {c : Cell}
    (grows : ∀ f, since f → more f) (h : CellOk ttl since c) : CellOk ttl more c :=
  ⟨forward_mono grows h.forward, h.reading, h.written⟩

theorem accept_none {c : Cell} {update : Frame} {source : Source}
    (h : c.accept update source = none) : update.generation ≤ c.object.newestGeneration := by
  unfold Cell.accept Viewer.accept at h
  split at h
  · rename_i refused
    by_contra fresh
    simp [Nat.not_le.mpr (Nat.not_le.mp fresh)] at refused
  · cases h

theorem accept_some {c next : Cell} {update : Frame} {source : Source}
    (h : c.accept update source = some next) :
    c.object.newestGeneration < update.generation ∧
      next = { c with
        object := { c.object with newestGeneration := update.generation }
        offering := some ⟨update, source, none⟩ } := by
  unfold Cell.accept Viewer.accept at h
  split at h
  · cases h
  · rename_i object admitted
    simp only [Option.ite_none_left_eq_some, Option.some.injEq] at admitted h
    obtain ⟨fresh, rfl⟩ := admitted
    exact ⟨Nat.not_le.mp fresh, h.symm⟩

theorem cellOk_accept {ttl : Int} {since : Frame → Prop} {c next : Cell} {update : Frame}
    {source : Source} (h : CellOk ttl since c) (free : c.offering = none)
    (candidate : since update) (ok : c.accept update source = some next) :
    CellOk ttl since next := by
  obtain ⟨fresh, rfl⟩ := accept_some ok
  have forward := h.forward
  rw [held, free] at forward
  exact ⟨forward_accept forward fresh candidate, h.reading, h.written⟩

theorem drain_eq (c : Cell) (o : Offering) :
    c.drain o = { c with
      object := { c.object with updates := none }
      offering := some { o with replaced := some c.object.updates.isSome } } := by
  cases queued : c.object.updates <;> simp [Cell.drain, Viewer.drain, queued]
  rw [← queued]

theorem cellOk_drain {ttl : Int} {since : Frame → Prop} {c : Cell} {update : Frame}
    {source : Source} (h : CellOk ttl since c)
    (current : c.offering = some ⟨update, source, none⟩) :
    CellOk ttl since (c.drain ⟨update, source, none⟩) := by
  have forward := h.forward
  rw [held, current] at forward
  rw [drain_eq]
  exact ⟨forward_empty forward, h.reading, h.written⟩

/-- The channel is empty when `send` comes to it, whatever was received in between. -/
theorem send_finds_room {ttl : Int} {since : Frame → Prop} {c : Cell} {update : Frame}
    {source : Source} {replaced : Bool} (h : CellOk ttl since c)
    (current : c.offering = some ⟨update, source, some replaced⟩) : c.object.updates = none := by
  have forward := h.forward
  rw [held, current] at forward
  exact (forward_put forward).1

theorem cellOk_send {ttl : Int} {since : Frame → Prop} {c : Cell} {update : Frame}
    {source : Source} {replaced : Bool} (h : CellOk ttl since c)
    (current : c.offering = some ⟨update, source, some replaced⟩) :
    CellOk ttl since (c.send ⟨update, source, some replaced⟩ replaced) := by
  have vacant := send_finds_room h current
  have forward := h.forward
  rw [held, current] at forward
  have sent := (forward_put forward).2
  simp only [Cell.send, Viewer.send, vacant]
  exact ⟨sent, h.reading, h.written⟩

theorem receive_some {c next : Cell} (h : c.receive = some next) :
    c.writer = .waiting ∧ ∃ update, c.object.updates = some update ∧
      next = { c with
        object := { c.object with updates := none }, writer := .read update
        received := c.received ++ [update] } := by
  unfold Cell.receive at h
  split at h
  · rename_i update waiting queued
    exact ⟨waiting, update, queued, (Option.some.inj h).symm⟩
  · cases h

theorem cellOk_receive {ttl : Int} {since : Frame → Prop} {c next : Cell}
    (h : CellOk ttl since c) (ok : c.receive = some next) : CellOk ttl since next := by
  obtain ⟨-, update, queued, rfl⟩ := receive_some ok
  have forward := h.forward
  rw [queued] at forward
  refine ⟨forward_take forward, ?_, ?_⟩
  · intro f reading
    rw [← Writer.read.inj reading]
    simp
  · intro x member
    obtain ⟨received, rest⟩ := h.written x member
    exact ⟨List.mem_append_left _ received, rest⟩

theorem writeDeadline_some {ttl : Int} {update : Frame} {now deadline : Time}
    (h : writeDeadline ttl update now = some deadline) :
    now < update.publishedAt + ttl ∧ deadline ≤ update.publishedAt + ttl := by
  simp only [writeDeadline, Option.ite_none_left_eq_some, not_not, Option.some.injEq] at h
  obtain ⟨fresh, rfl⟩ := h
  refine ⟨fresh, ?_⟩
  split
  · exact Int.le_refl _
  · rename_i later
    exact Int.not_lt.mp later

theorem decide_some {ttl : Int} {c next : Cell} {now : Time} (h : c.decide ttl now = some next) :
    ∃ update, c.writer = .read update ∧
      (next = { c with writer := .waiting } ∨
        ∃ deadline, writeDeadline ttl update now = some deadline ∧
          next = { c with writer := .waiting, writes := c.writes ++ [⟨update, now, deadline⟩] }) := by
  unfold Cell.decide at h
  split at h
  · rename_i update reading
    refine ⟨update, reading, ?_⟩
    split at h
    · exact Or.inl (Option.some.inj h).symm
    · rename_i deadline chosen
      exact Or.inr ⟨deadline, chosen, (Option.some.inj h).symm⟩
  · cases h

theorem cellOk_decide {ttl : Int} {since : Frame → Prop} {c next : Cell} {now : Time}
    (h : CellOk ttl since c) (ok : c.decide ttl now = some next) : CellOk ttl since next := by
  obtain ⟨update, reading, rfl | ⟨deadline, chosen, rfl⟩⟩ := decide_some ok
  · exact ⟨h.forward, by simp, h.written⟩
  · refine ⟨h.forward, by simp, fun x member => ?_⟩
    rcases List.mem_append.mp member with old | last
    · exact h.written x old
    · rw [List.mem_singleton.mp last]
      exact ⟨h.reading update reading, writeDeadline_some chosen⟩

structure ViewerOk (ttl : Int) (w : World) (v : ViewerId) : Prop where
  cell : CellOk ttl (Since w v) (w.cells v)
  fresh : (w.handlers v).stage = .idle → w.cells v = newCell
  retained : (w.handlers v).latest.prepared ≠ none →
    (w.handlers v).latest ∈ w.published (w.handlers v).room
  caller : ∀ o, (w.cells v).offering = some o →
    (o.source = .handler ∧ (w.handlers v).stage = .offering) ∨
      ∃ k, o.source = .publish k ∧ (w.publishes k).stage = .offering ∧
        (w.publishes k).current = some v
  covered : v ∈ (w.rooms (w.handlers v).room).viewers → ∀ f, Since w v f →
    f.generation ≤ (w.cells v).object.newestGeneration ∨
      (∃ k, (w.publishes k).stage = .offering ∧ v ∈ (w.publishes k).pending ∧
        (w.publishes k).update = f) ∨
      ((w.handlers v).stage = .joined ∧ f = (w.handlers v).latest)

structure PublishOk (w : World) (call : Publish) : Prop where
  update : call.update ∈ w.published call.room
  served : ∀ v, v ∈ call.pending ∨ call.current = some v → (w.handlers v).stage ≠ .idle ∧
    (w.handlers v).room = call.room ∧ (w.handlers v).joinedAt < call.update.generation

/-- Frames are numbered from one in the order in which they were published. -/
structure RoomOk (w : World) (r : RoomId) : Prop where
  numbered : ∀ i (h : i < (w.published r).length), ((w.published r)[i]).generation = i + 1
  prepared : ∀ f ∈ w.published r, f.prepared ≠ none
  count : (w.rooms r).frameGeneration = (w.published r).length
  latest : (w.rooms r).latest.prepared ≠ none → (w.rooms r).latest ∈ w.published r
  members : ∀ v ∈ (w.rooms r).viewers, (w.handlers v).stage ≠ .idle ∧
    (w.handlers v).room = r ∧ (w.handlers v).joinedAt ≤ (w.published r).length

structure Ok (ttl : Int) (w : World) : Prop where
  rooms : ∀ r, RoomOk w r
  publishes : ∀ k, (w.publishes k).stage = .offering → PublishOk w (w.publishes k)
  viewers : ∀ v, ViewerOk ttl w v

/-- What a step may change in a publish when it is about viewer `v`. -/
structure CallKept (v : ViewerId) (old call : Publish) : Prop where
  stage : call.stage = .offering → old.stage = .offering
  update : call.update = old.update
  room : call.room = old.room
  served : ∀ u, u ∈ call.pending ∨ call.current = some u → u ∈ old.pending ∨ old.current = some u
  pending : ∀ u, u ≠ v → old.stage = .offering → u ∈ old.pending →
    call.stage = .offering ∧ u ∈ call.pending
  current : ∀ u, u ≠ v → old.stage = .offering → old.current = some u →
    call.stage = .offering ∧ call.current = some u

theorem callKept_refl (v : ViewerId) (call : Publish) : CallKept v call call :=
  ⟨id, rfl, rfl, fun _ => id, fun _ _ stage member => ⟨stage, member⟩,
    fun _ _ stage member => ⟨stage, member⟩⟩

/-- A step about viewer `v` that publishes nothing and lets nobody in. -/
structure Moved (w next : World) (v : ViewerId) : Prop where
  published : next.published = w.published
  viewers : ∀ r, (next.rooms r).viewers ⊆ (w.rooms r).viewers
  count : ∀ r, (next.rooms r).frameGeneration = (w.rooms r).frameGeneration
  latest : ∀ r, (next.rooms r).latest = (w.rooms r).latest ∨ (next.rooms r).latest = Frame.zero
  cells : ∀ u, u ≠ v → next.cells u = w.cells u
  handlers : ∀ u, u ≠ v → next.handlers u = w.handlers u
  begun : (w.handlers v).stage ≠ .idle → (next.handlers v).stage ≠ .idle
  home : (next.handlers v).room = (w.handlers v).room
  owed : (next.handlers v).latest = (w.handlers v).latest
  joinedAt : (next.handlers v).joinedAt = (w.handlers v).joinedAt
  calls : ∀ k, CallKept v (w.publishes k) (next.publishes k)

theorem moved_handler {w next : World} {v : ViewerId} (moved : Moved w next v) (u : ViewerId) :
    ((w.handlers u).stage ≠ .idle → (next.handlers u).stage ≠ .idle) ∧
      (next.handlers u).room = (w.handlers u).room ∧
      (next.handlers u).latest = (w.handlers u).latest ∧
      (next.handlers u).joinedAt = (w.handlers u).joinedAt := by
  by_cases e : u = v
  · subst u
    exact ⟨moved.begun, moved.home, moved.owed, moved.joinedAt⟩
  · rw [moved.handlers u e]
    exact ⟨id, rfl, rfl, rfl⟩

theorem moved_since {w next : World} {v : ViewerId} (moved : Moved w next v) (u : ViewerId) :
    Since next u = Since w u := by
  obtain ⟨-, room, latest, joinedAt⟩ := moved_handler moved u
  funext f
  simp only [Since, room, latest, joinedAt, moved.published]

theorem roomOk_moved {w next : World} {v : ViewerId} {r : RoomId} (moved : Moved w next v)
    (h : RoomOk w r) : RoomOk next r where
  numbered := by
    rw [moved.published]
    exact h.numbered
  prepared := by
    rw [moved.published]
    exact h.prepared
  count := by
    rw [moved.published, moved.count]
    exact h.count
  latest := by
    rw [moved.published]
    rcases moved.latest r with same | zero
    · rw [same]
      exact h.latest
    · rw [zero]
      exact fun some => absurd rfl some
  members u member := by
    obtain ⟨begun, room, -, joinedAt⟩ := moved_handler moved u
    obtain ⟨stage, home, joined⟩ := h.members u (moved.viewers r member)
    rw [room, joinedAt, moved.published]
    exact ⟨begun stage, home, joined⟩

theorem publishOk_moved {w next : World} {v : ViewerId} {k : PublishId} (moved : Moved w next v)
    (h : PublishOk w (w.publishes k)) : PublishOk next (next.publishes k) where
  update := by
    rw [moved.published, (moved.calls k).update, (moved.calls k).room]
    exact h.update
  served u member := by
    obtain ⟨begun, room, -, joinedAt⟩ := moved_handler moved u
    obtain ⟨stage, home, joined⟩ := h.served u ((moved.calls k).served u member)
    rw [room, joinedAt, (moved.calls k).update, (moved.calls k).room]
    exact ⟨begun stage, home, joined⟩

theorem viewerOk_moved {ttl : Int} {w next : World} {v u : ViewerId} (moved : Moved w next v)
    (other : u ≠ v) (h : ViewerOk ttl w u) : ViewerOk ttl next u where
  cell := by
    rw [moved_since moved u, moved.cells u other]
    exact h.cell
  fresh := by
    rw [moved.handlers u other, moved.cells u other]
    exact h.fresh
  retained := by
    rw [moved.handlers u other, moved.published]
    exact h.retained
  caller o := by
    rw [moved.handlers u other, moved.cells u other]
    intro current
    rcases h.caller o current with own | ⟨k, source, stage, serving⟩
    · exact Or.inl own
    · exact Or.inr ⟨k, source, (moved.calls k).current u other stage serving⟩
  covered := by
    rw [moved_since moved u, moved.handlers u other, moved.cells u other]
    intro member f owed
    rcases h.covered (moved.viewers _ member) f owed with
      offered | ⟨k, stage, waiting, same⟩ | first
    · exact Or.inl offered
    · obtain ⟨running, left⟩ := (moved.calls k).pending u other stage waiting
      exact Or.inr (Or.inl ⟨k, running, left, (moved.calls k).update.trans same⟩)
    · exact Or.inr (Or.inr first)

theorem ok_moved {ttl : Int} {w next : World} {v : ViewerId} (h : Ok ttl w)
    (moved : Moved w next v) (own : ViewerOk ttl next v) : Ok ttl next where
  rooms r := roomOk_moved moved (h.rooms r)
  publishes k stage := publishOk_moved moved (h.publishes k ((moved.calls k).stage stage))
  viewers u := by
    by_cases e : u = v
    · subst u
      exact own
    · exact viewerOk_moved moved e (h.viewers u)

theorem moved_setCell (w : World) (v : ViewerId) (cell : Cell) : Moved w (w.setCell v cell) v :=
  ⟨rfl, fun _ => subset_rfl, fun _ => rfl, fun _ => Or.inl rfl,
    fun _ other => Function.update_of_ne other _ _, fun _ _ => rfl, id, rfl, rfl, rfl,
    fun _ => callKept_refl _ _⟩

/-- A step of the cell alone: the same offer stays in progress and no owed frame is lost. -/
theorem ok_setCell {ttl : Int} {w : World} {v : ViewerId} {cell : Cell} (h : Ok ttl w)
    (begun : (w.handlers v).stage ≠ .idle) (ok : CellOk ttl (Since w v) cell)
    (newest : cell.object.newestGeneration = (w.cells v).object.newestGeneration)
    (offering : ∀ o, cell.offering = some o →
      ∃ old, (w.cells v).offering = some old ∧ o.source = old.source) :
    Ok ttl (w.setCell v cell) := by
  have self : (w.setCell v cell).cells v = cell := Function.update_self _ _ _
  have own := h.viewers v
  refine ok_moved h (moved_setCell w v cell) ⟨?_, ?_, own.retained, ?_, ?_⟩
  · rw [self]
    exact ok
  · exact fun idle => absurd idle begun
  · rw [self]
    intro o current
    obtain ⟨old, before, source⟩ := offering o current
    rw [source]
    exact own.caller old before
  · rw [self]
    intro member f owed
    rw [newest]
    exact own.covered member f owed

theorem begun_of_cell {ttl : Int} {w : World} {v : ViewerId} (h : Ok ttl w)
    (used : w.cells v ≠ newCell) : (w.handlers v).stage ≠ .idle :=
  fun idle => used ((h.viewers v).fresh idle)

theorem ok_drain {ttl : Int} {w : World} {v : ViewerId} {update : Frame} {source : Source}
    (h : Ok ttl w) (current : (w.cells v).offering = some ⟨update, source, none⟩) :
    Ok ttl (w.setCell v ((w.cells v).drain ⟨update, source, none⟩)) := by
  have used : w.cells v ≠ newCell := fun e => by simp [e, newCell] at current
  refine ok_setCell h (begun_of_cell h used) (cellOk_drain (h.viewers v).cell current) ?_ ?_
  · rw [drain_eq]
  · intro o drained
    rw [drain_eq] at drained
    exact ⟨_, current, by rw [← Option.some.inj drained]⟩

theorem ok_receive {ttl : Int} {w : World} {v : ViewerId} {cell : Cell} (h : Ok ttl w)
    (ok : (w.cells v).receive = some cell) : Ok ttl (w.setCell v cell) := by
  obtain ⟨waiting, update, queued, same⟩ := receive_some ok
  have used : w.cells v ≠ newCell := fun e => by simp [e, newCell] at waiting
  refine ok_setCell h (begun_of_cell h used) (cellOk_receive (h.viewers v).cell ok) ?_ ?_
  · rw [same]
  · rw [same]
    exact fun o current => ⟨o, current, rfl⟩

theorem ok_decide {ttl : Int} {w : World} {v : ViewerId} {cell : Cell} {now : Time} (h : Ok ttl w)
    (ok : (w.cells v).decide ttl now = some cell) : Ok ttl (w.setCell v cell) := by
  obtain ⟨update, reading, same⟩ := decide_some ok
  have used : w.cells v ≠ newCell := fun e => by simp [e, newCell] at reading
  refine ok_setCell h (begun_of_cell h used) (cellOk_decide (h.viewers v).cell ok) ?_ ?_
  · rcases same with rfl | ⟨deadline, -, rfl⟩ <;> rfl
  · rcases same with rfl | ⟨deadline, -, rfl⟩ <;> exact fun o current => ⟨o, current, rfl⟩

theorem ok_startWriter {ttl : Int} {w : World} {v : ViewerId} (h : Ok ttl w)
    (stage : (w.handlers v).stage = .offered) :
    Ok ttl (w.setCell v { w.cells v with writer := .waiting }) := by
  have cell := (h.viewers v).cell
  exact ok_setCell h (by simp [stage]) ⟨cell.forward, by simp, cell.written⟩ rfl
    fun o current => ⟨o, current, rfl⟩

theorem moved_setHandler {w : World} {v : ViewerId} {stage : HandlerStage}
    (begun : (w.handlers v).stage ≠ .idle → stage ≠ .idle) :
    Moved w (w.setHandler v { w.handlers v with stage }) v := by
  have self : (w.setHandler v { w.handlers v with stage }).handlers v =
      { w.handlers v with stage } := Function.update_self _ _ _
  exact ⟨rfl, fun _ => subset_rfl, fun _ => rfl, fun _ => Or.inl rfl, fun _ _ => rfl,
    fun _ other => Function.update_of_ne other _ _, by rw [self]; exact begun, by rw [self],
    by rw [self], by rw [self], fun _ => callKept_refl _ _⟩

theorem moved_trans {w mid next : World} {v : ViewerId} (first : Moved w mid v)
    (second : Moved mid next v) : Moved w next v where
  published := second.published.trans first.published
  viewers r := (second.viewers r).trans (first.viewers r)
  count r := (second.count r).trans (first.count r)
  latest r := by
    rcases second.latest r with same | zero
    · rw [same]
      exact first.latest r
    · exact Or.inr zero
  cells u other := (second.cells u other).trans (first.cells u other)
  handlers u other := (second.handlers u other).trans (first.handlers u other)
  begun stage := second.begun (first.begun stage)
  home := second.home.trans first.home
  owed := second.owed.trans first.owed
  joinedAt := second.joinedAt.trans first.joinedAt
  calls k :=
    { stage := fun running => (first.calls k).stage ((second.calls k).stage running)
      update := (second.calls k).update.trans (first.calls k).update
      room := (second.calls k).room.trans (first.calls k).room
      served := fun u member => (first.calls k).served u ((second.calls k).served u member)
      pending := fun u other stage member => by
        obtain ⟨running, left⟩ := (first.calls k).pending u other stage member
        exact (second.calls k).pending u other running left
      current := fun u other stage member => by
        obtain ⟨running, left⟩ := (first.calls k).current u other stage member
        exact (second.calls k).current u other running left }

theorem moved_setPublish {w : World} {v : ViewerId} {k : PublishId} {call : Publish}
    (kept : CallKept v (w.publishes k) call) : Moved w (w.setPublish k call) v := by
  refine ⟨rfl, fun _ => subset_rfl, fun _ => rfl, fun _ => Or.inl rfl, fun _ _ => rfl,
    fun _ _ => rfl, id, rfl, rfl, rfl, fun j => ?_⟩
  by_cases e : j = k
  · subst j
    simpa [World.setPublish] using kept
  · simpa [World.setPublish, e] using callKept_refl v (w.publishes j)

/-- The initial offer has nothing to send, or comes too late to be needed. -/
theorem ok_initial_skipped {ttl : Int} {w : World} {v : ViewerId} (h : Ok ttl w)
    (stage : (w.handlers v).stage = .joined)
    (late : (w.handlers v).latest.prepared ≠ none →
      (w.handlers v).latest.generation ≤ (w.cells v).object.newestGeneration) :
    Ok ttl (w.setHandler v { w.handlers v with stage := .offered }) := by
  have moved : Moved w (w.setHandler v { w.handlers v with stage := .offered }) v :=
    moved_setHandler (by simp)
  have self : (w.setHandler v { w.handlers v with stage := .offered }).handlers v =
      { w.handlers v with stage := .offered } := Function.update_self _ _ _
  have own := h.viewers v
  refine ok_moved h moved ⟨?_, ?_, ?_, ?_, ?_⟩
  · rw [moved_since moved v]
    exact own.cell
  · rw [self]
    simp
  · rw [self]
    exact own.retained
  · intro o current
    rcases own.caller o current with ⟨-, offering⟩ | publish
    · rw [stage] at offering
      cases offering
    · exact Or.inr publish
  · rw [moved_since moved v, self]
    intro member f owed
    rcases own.covered member f owed with offered | waiting | ⟨-, rfl⟩
    · exact Or.inl offered
    · exact Or.inr (Or.inl waiting)
    · refine Or.inl (late ?_)
      rcases owed with ⟨-, some⟩ | ⟨published, -⟩
      · exact some
      · exact (h.rooms _).prepared _ published

theorem ok_initial_offer {ttl : Int} {w : World} {v : ViewerId} {cell : Cell} (h : Ok ttl w)
    (some_ : (w.handlers v).latest.prepared ≠ none) (free : (w.cells v).offering = none)
    (ok : (w.cells v).accept (w.handlers v).latest .handler = some cell) :
    Ok ttl ((w.setCell v cell).setHandler v { w.handlers v with stage := .offering }) := by
  have moved : Moved w ((w.setCell v cell).setHandler v
      { w.handlers v with stage := .offering }) v :=
    moved_trans (moved_setCell w v cell) (moved_setHandler (by simp))
  have self : ((w.setCell v cell).setHandler v
      { w.handlers v with stage := .offering }).handlers v =
      { w.handlers v with stage := .offering } := Function.update_self _ _ _
  have here : ((w.setCell v cell).setHandler v
      { w.handlers v with stage := .offering }).cells v = cell := Function.update_self _ _ _
  have own := h.viewers v
  obtain ⟨fresh, same⟩ := accept_some ok
  refine ok_moved h moved ⟨?_, ?_, ?_, ?_, ?_⟩
  · rw [moved_since moved v, here]
    exact cellOk_accept own.cell free (Or.inl ⟨rfl, some_⟩) ok
  · rw [self]
    simp
  · rw [self]
    exact own.retained
  · rw [here, self, same]
    intro o current
    rw [← Option.some.inj current]
    exact Or.inl ⟨rfl, rfl⟩
  · rw [moved_since moved v, self, here, same]
    intro member f owed
    rcases own.covered member f owed with offered | waiting | ⟨-, rfl⟩
    · exact Or.inl (Nat.le_of_lt (Nat.lt_of_le_of_lt offered fresh))
    · exact Or.inr (Or.inl waiting)
    · exact Or.inl (Nat.le_refl _)

theorem callKept_served {v : ViewerId} {call : Publish} {current : Option ViewerId}
    (idle : call.current = none) (member : v ∈ call.pending)
    (one : current = none ∨ current = some v) :
    CallKept v call { call with pending := call.pending.erase v, current } where
  stage := id
  update := rfl
  room := rfl
  served u served := by
    rcases served with left | now
    · exact Or.inl (Finset.mem_of_mem_erase left)
    · rcases one with none | same
      · rw [none] at now
        cases now
      · rw [same] at now
        rw [← Option.some.inj now]
        exact Or.inl member
  pending u other stage waiting := ⟨stage, Finset.mem_erase.mpr ⟨other, waiting⟩⟩
  current _ _ _ now := by
    rw [idle] at now
    cases now

theorem ok_offer_refused {ttl : Int} {w : World} {v : ViewerId} {k : PublishId} (h : Ok ttl w)
    (member : v ∈ (w.publishes k).pending)
    (idle : (w.publishes k).current = none)
    (refused : (w.cells v).accept (w.publishes k).update (.publish k) = none) :
    Ok ttl (w.setPublish k
      { w.publishes k with pending := (w.publishes k).pending.erase v }) := by
  have kept := callKept_served idle member (Or.inl idle)
  have moved : Moved w (w.setPublish k
      { w.publishes k with pending := (w.publishes k).pending.erase v }) v := by
    have := moved_setPublish kept
    simpa [idle] using this
  have own := h.viewers v
  refine ok_moved h moved ⟨own.cell, own.fresh, own.retained, ?_, ?_⟩
  · intro o current
    rcases own.caller o current with handler | ⟨j, source, running, serving⟩
    · exact Or.inl handler
    · have other : j ≠ k := fun e => by simp [e, idle] at serving
      exact Or.inr ⟨j, source, by simpa [World.setPublish, other] using running,
        by simpa [World.setPublish, other] using serving⟩
  · intro inRoom f owed
    rcases own.covered inRoom f owed with offered | ⟨j, running, waiting, same⟩ | first
    · exact Or.inl offered
    · by_cases e : j = k
      · subst j
        rw [← same]
        exact Or.inl (accept_none refused)
      · exact Or.inr (Or.inl ⟨j, by simpa [World.setPublish, e] using running,
          by simpa [World.setPublish, e] using waiting,
          by simpa [World.setPublish, e] using same⟩)
    · exact Or.inr (Or.inr first)

theorem ok_offer_admitted {ttl : Int} {w : World} {v : ViewerId} {k : PublishId} {cell : Cell}
    (h : Ok ttl w) (stage : (w.publishes k).stage = .offering)
    (member : v ∈ (w.publishes k).pending) (idle : (w.publishes k).current = none)
    (free : (w.cells v).offering = none)
    (ok : (w.cells v).accept (w.publishes k).update (.publish k) = some cell) :
    Ok ttl ((w.setCell v cell).setPublish k
      { w.publishes k with pending := (w.publishes k).pending.erase v, current := some v }) := by
  have moved : Moved w ((w.setCell v cell).setPublish k
      { w.publishes k with pending := (w.publishes k).pending.erase v, current := some v }) v :=
    moved_trans (moved_setCell w v cell)
      (moved_setPublish (callKept_served idle member (Or.inr rfl)))
  have here : ((w.setCell v cell).setPublish k
      { w.publishes k with pending := (w.publishes k).pending.erase v, current := some v }).cells v =
      cell := Function.update_self _ _ _
  have own := h.viewers v
  obtain ⟨begun, home, joined⟩ := (h.publishes k stage).served v (Or.inl member)
  have candidate : Since w v (w.publishes k).update := by
    refine Or.inr ⟨?_, joined⟩
    rw [home]
    exact (h.publishes k stage).update
  obtain ⟨fresh, same⟩ := accept_some ok
  refine ok_moved h moved ⟨?_, fun idle => absurd idle begun, own.retained, ?_, ?_⟩
  · rw [moved_since moved v, here]
    exact cellOk_accept own.cell free candidate ok
  · rw [here, same]
    intro o current
    rw [← Option.some.inj current]
    exact Or.inr ⟨k, rfl, by simpa [World.setPublish, World.setCell] using stage,
      by simp [World.setPublish]⟩
  · rw [moved_since moved v, here, same]
    intro inRoom f owed
    rcases own.covered inRoom f owed with offered | ⟨j, running, waiting, rfl⟩ | first
    · exact Or.inl (Nat.le_of_lt (Nat.lt_of_le_of_lt offered fresh))
    · by_cases e : j = k
      · subst j
        exact Or.inl (Nat.le_refl _)
      · exact Or.inr (Or.inl ⟨j, by simpa [World.setPublish, World.setCell, e] using running,
          by simpa [World.setPublish, World.setCell, e] using waiting,
          by simp [World.setPublish, World.setCell, e]⟩)
    · exact Or.inr (Or.inr first)

theorem send_eq {ttl : Int} {since : Frame → Prop} {c : Cell} {update : Frame}
    {source : Source} {replaced : Bool} (h : CellOk ttl since c)
    (current : c.offering = some ⟨update, source, some replaced⟩) :
    (c.send ⟨update, source, some replaced⟩ replaced).offering = none ∧
      (c.send ⟨update, source, some replaced⟩ replaced).object.newestGeneration =
        c.object.newestGeneration := by
  simp [Cell.send, Viewer.send, send_finds_room h current]

theorem ok_send_publish {ttl : Int} {w : World} {v : ViewerId} {k : PublishId} {update : Frame}
    {replaced : Bool} (h : Ok ttl w)
    (current : (w.cells v).offering = some ⟨update, .publish k, some replaced⟩) :
    Ok ttl ((w.setCell v
        ((w.cells v).send ⟨update, .publish k, some replaced⟩ replaced)).offered v replaced
      (.publish k)) := by
  have own := h.viewers v
  obtain ⟨free, newest⟩ := send_eq own.cell current
  have sent := cellOk_send own.cell current
  have used : w.cells v ≠ newCell := fun e => by simp [e, newCell] at current
  have begun := begun_of_cell h used
  have serving : (w.publishes k).current = some v := by
    rcases own.caller _ current with ⟨source, -⟩ | ⟨j, source, -, serving⟩
    · cases source
    · cases source
      exact serving
  generalize (w.cells v).send ⟨update, .publish k, some replaced⟩ replaced = cell at *
  have kept : CallKept v (w.publishes k) { w.publishes k with
      current := none, dropped := (w.publishes k).dropped + replaced.toNat } :=
    { stage := id
      update := rfl
      room := rfl
      served := fun u member => by
        rcases member with left | now
        · exact Or.inl left
        · cases now
      pending := fun u _ running left => ⟨running, left⟩
      current := fun u other _ now => by
        rw [serving] at now
        exact absurd (Option.some.inj now).symm other }
  have moved : Moved w ((w.setCell v cell).offered v replaced (.publish k)) v :=
    moved_trans (moved_setCell w v cell) (moved_setPublish kept)
  have here : ((w.setCell v cell).offered v replaced (.publish k)).cells v = cell :=
    Function.update_self _ _ _
  refine ok_moved h moved ⟨?_, fun idle => absurd idle begun, own.retained, ?_, ?_⟩
  · rw [moved_since moved v, here]
    exact sent
  · rw [here, free]
    simp
  · rw [moved_since moved v, here, newest]
    intro inRoom f owed
    rcases own.covered inRoom f owed with offered | ⟨j, running, waiting, same⟩ | first
    · exact Or.inl offered
    · refine Or.inr (Or.inl ⟨j, ?_⟩)
      by_cases e : j = k
      · subst j
        simpa [World.offered, World.setPublish, World.setCell] using ⟨running, waiting, same⟩
      · simpa [World.offered, World.setPublish, World.setCell, e] using ⟨running, waiting, same⟩
    · exact Or.inr (Or.inr first)

theorem ok_send_handler {ttl : Int} {w : World} {v : ViewerId} {update : Frame}
    {replaced : Bool} (h : Ok ttl w)
    (current : (w.cells v).offering = some ⟨update, .handler, some replaced⟩) :
    Ok ttl ((w.setCell v
        ((w.cells v).send ⟨update, .handler, some replaced⟩ replaced)).offered v replaced
      .handler) := by
  have own := h.viewers v
  obtain ⟨free, newest⟩ := send_eq own.cell current
  have sent := cellOk_send own.cell current
  have stage : (w.handlers v).stage = .offering := by
    rcases own.caller _ current with ⟨-, stage⟩ | ⟨j, source, -⟩
    · exact stage
    · cases source
  generalize (w.cells v).send ⟨update, .handler, some replaced⟩ replaced = cell at *
  have moved : Moved w ((w.setCell v cell).offered v replaced .handler) v :=
    moved_trans (moved_setCell w v cell) (moved_setHandler (by simp))
  have here : ((w.setCell v cell).offered v replaced .handler).cells v = cell :=
    Function.update_self _ _ _
  have self : ((w.setCell v cell).offered v replaced .handler).handlers v =
      { w.handlers v with stage := .offered } := Function.update_self _ _ _
  refine ok_moved h moved ⟨?_, ?_, ?_, ?_, ?_⟩
  · rw [moved_since moved v, here]
    exact sent
  · rw [self]
    simp
  · rw [self]
    exact own.retained
  · rw [here, free]
    simp
  · rw [moved_since moved v, here, newest, self]
    intro inRoom f owed
    rcases own.covered inRoom f owed with offered | waiting | ⟨joined, -⟩
    · exact Or.inl offered
    · exact Or.inr (Or.inl waiting)
    · rw [stage] at joined
      cases joined

theorem ok_leave {ttl : Int} {w : World} {v : ViewerId} (h : Ok ttl w)
    (stage : (w.handlers v).stage = .joined ∨ (w.handlers v).stage = .offered) :
    Ok ttl ((w.setRoom (w.handlers v).room
        ((w.rooms (w.handlers v).room).removeViewer v)).setHandler v
      { w.handlers v with stage := .gone }) := by
  have own := h.viewers v
  have rooms : ∀ r, ((w.setRoom (w.handlers v).room
        ((w.rooms (w.handlers v).room).removeViewer v)).rooms r).viewers ⊆ (w.rooms r).viewers ∧
      ((w.setRoom (w.handlers v).room
        ((w.rooms (w.handlers v).room).removeViewer v)).rooms r).frameGeneration =
        (w.rooms r).frameGeneration ∧
      ((w.setRoom (w.handlers v).room
        ((w.rooms (w.handlers v).room).removeViewer v)).rooms r).latest = (w.rooms r).latest := by
    intro r
    by_cases e : r = (w.handlers v).room
    · subst r
      simp only [World.setRoom, Function.update_self, Room.removeViewer]
      exact ⟨Finset.erase_subset _ _, trivial, trivial⟩
    · simp [World.setRoom, e]
  have left : Moved w (w.setRoom (w.handlers v).room
      ((w.rooms (w.handlers v).room).removeViewer v)) v :=
    ⟨rfl, fun r => (rooms r).1, fun r => (rooms r).2.1, fun r => Or.inl (rooms r).2.2,
      fun _ _ => rfl, fun _ _ => rfl, id, rfl, rfl, rfl, fun _ => callKept_refl _ _⟩
  have moved : Moved w ((w.setRoom (w.handlers v).room
        ((w.rooms (w.handlers v).room).removeViewer v)).setHandler v
      { w.handlers v with stage := .gone }) v := moved_trans left (moved_setHandler (by simp))
  have self : ((w.setRoom (w.handlers v).room
        ((w.rooms (w.handlers v).room).removeViewer v)).setHandler v
      { w.handlers v with stage := .gone }).handlers v =
      { w.handlers v with stage := .gone } := Function.update_self _ _ _
  refine ok_moved h moved ⟨?_, ?_, ?_, ?_, ?_⟩
  · rw [moved_since moved v]
    exact own.cell
  · rw [self]
    simp
  · rw [self]
    exact own.retained
  · intro o current
    rcases own.caller o current with ⟨-, offering⟩ | publish
    · rcases stage with joined | offered
      · rw [joined] at offering
        cases offering
      · rw [offered] at offering
        cases offering
    · exact Or.inr publish
  · rw [self]
    intro member
    simp [World.setHandler, World.setRoom, Room.removeViewer] at member

theorem expire_fields (room : Room) (now : Time) (ttl : Int) :
    (room.expire now ttl).viewers = room.viewers ∧
      (room.expire now ttl).frameGeneration = room.frameGeneration ∧
      ((room.expire now ttl).latest = room.latest ∨ (room.expire now ttl).latest = Frame.zero) := by
  unfold Room.expire
  split
  · exact ⟨rfl, rfl, Or.inr rfl⟩
  · exact ⟨rfl, rfl, Or.inl rfl⟩

theorem ok_expire {ttl : Int} {w : World} {r : RoomId} {now : Time} (h : Ok ttl w) :
    Ok ttl (w.setRoom r ((w.rooms r).expire now ttl)) := by
  have fields := expire_fields (w.rooms r) now ttl
  have rooms : ∀ j, ((w.setRoom r ((w.rooms r).expire now ttl)).rooms j).viewers =
        (w.rooms j).viewers ∧
      ((w.setRoom r ((w.rooms r).expire now ttl)).rooms j).frameGeneration =
        (w.rooms j).frameGeneration ∧
      (((w.setRoom r ((w.rooms r).expire now ttl)).rooms j).latest = (w.rooms j).latest ∨
        ((w.setRoom r ((w.rooms r).expire now ttl)).rooms j).latest = Frame.zero) := by
    intro j
    by_cases e : j = r
    · subst j
      simpa [World.setRoom] using fields
    · simp [World.setRoom, e]
  -- no viewer is involved, so any will do
  have moved : ∀ v, Moved w (w.setRoom r ((w.rooms r).expire now ttl)) v := fun v =>
    ⟨rfl, fun j => (rooms j).1.subset, fun j => (rooms j).2.1, fun j => (rooms j).2.2,
      fun _ _ => rfl, fun _ _ => rfl, id, rfl, rfl, rfl, fun _ => callKept_refl _ _⟩
  have own := h.viewers 0
  refine ok_moved h (moved 0) ⟨own.cell, own.fresh, own.retained, own.caller, ?_⟩
  intro member
  rw [(rooms _).1] at member
  exact own.covered member

theorem ok_finish {ttl : Int} {w : World} {k : PublishId} (h : Ok ttl w)
    (empty : (w.publishes k).pending = ∅) (idle : (w.publishes k).current = none) :
    Ok ttl { w.setPublish k { w.publishes k with stage := .returned } with
      viewerFramesDropped := w.viewerFramesDropped + (w.publishes k).dropped } := by
  have kept : ∀ v, CallKept v (w.publishes k) { w.publishes k with stage := .returned } := fun v =>
    { stage := fun running => by cases running
      update := rfl
      room := rfl
      served := fun _ => id
      pending := fun u _ _ member => by simp [empty] at member
      current := fun u _ _ now => by simp [idle] at now }
  have counted : ∀ v, Moved w { w.setPublish k { w.publishes k with stage := .returned } with
      viewerFramesDropped := w.viewerFramesDropped + (w.publishes k).dropped } v := fun v =>
    { moved_setPublish (kept v) with }
  have own := h.viewers 0
  refine ok_moved h (counted 0) ⟨own.cell, own.fresh, own.retained, ?_, ?_⟩
  · intro o current
    rcases own.caller o current with handler | ⟨j, source, running, serving⟩
    · exact Or.inl handler
    · have other : j ≠ k := fun e => by simp [e, idle] at serving
      exact Or.inr ⟨j, source, by simpa [World.setPublish, other] using running,
        by simpa [World.setPublish, other] using serving⟩
  · intro inRoom f owed
    rcases own.covered inRoom f owed with offered | ⟨j, running, waiting, same⟩ | first
    · exact Or.inl offered
    · have other : j ≠ k := fun e => by simp [e, empty] at waiting
      exact Or.inr (Or.inl ⟨j, by simpa [World.setPublish, other] using running,
        by simpa [World.setPublish, other] using waiting,
        by simpa [World.setPublish, other] using same⟩)
    · exact Or.inr (Or.inr first)

/-- A refused join: the run is over before it had anything. -/
theorem ok_join_refused {ttl : Int} {w : World} {v : ViewerId} (h : Ok ttl w)
    (stage : (w.handlers v).stage = .idle) :
    Ok ttl (w.setHandler v { w.handlers v with stage := .gone }) := by
  have moved : Moved w (w.setHandler v { w.handlers v with stage := .gone }) v :=
    moved_setHandler (by simp)
  have self : (w.setHandler v { w.handlers v with stage := .gone }).handlers v =
      { w.handlers v with stage := .gone } := Function.update_self _ _ _
  have own := h.viewers v
  refine ok_moved h moved ⟨?_, ?_, ?_, ?_, ?_⟩
  · rw [moved_since moved v]
    exact own.cell
  · rw [self]
    simp
  · rw [self]
    exact own.retained
  · intro o current
    have empty : (w.cells v).offering = some o := current
    rw [own.fresh stage] at empty
    cases empty
  · rw [self]
    intro member
    exact absurd stage ((h.rooms _).members v member).1

theorem generation_bounds {w : World} {r : RoomId} {f : Frame} (h : RoomOk w r)
    (published : f ∈ w.published r) : 0 < f.generation ∧ f.generation ≤ (w.published r).length := by
  obtain ⟨i, bound, rfl⟩ := List.mem_iff_getElem.mp published
  have number := h.numbered i bound
  omega

/-- A successful join: one viewer more, owed the retained frame. -/
structure Joined (w next : World) (v : ViewerId) (r : RoomId) (latest : Frame) : Prop where
  published : next.published = w.published
  cells : next.cells = w.cells
  publishes : next.publishes = w.publishes
  others : ∀ u, u ≠ v → next.handlers u = w.handlers u
  self : next.handlers v = ⟨.joined, r, latest, (w.published r).length⟩
  members : ∀ j u, u ∈ (next.rooms j).viewers → u = v ∧ j = r ∨ u ∈ (w.rooms j).viewers
  count : ∀ j, (next.rooms j).frameGeneration = (w.rooms j).frameGeneration
  last : ∀ j, (next.rooms j).latest = (w.rooms j).latest

theorem joined_join {ttl : Int} {w : World} {v : ViewerId} {r : RoomId} {now : Time} {room : Room}
    {latest : Frame} (ok : (w.rooms r).addViewer v now ttl = .ok (room, latest)) :
    Joined w ((w.setRoom r room).setHandler v ⟨.joined, r, latest, (w.published r).length⟩)
      v r latest := by
  obtain ⟨-, -, rfl, -⟩ := add_viewer_ok ok
  refine ⟨rfl, rfl, rfl, fun u other => Function.update_of_ne other _ _,
    Function.update_self _ _ _, fun j u member => ?_, fun j => ?_, fun j => ?_⟩
  all_goals by_cases e : j = r
  · subst j
    simp only [World.setHandler, World.setRoom, Function.update_self, Finset.mem_insert] at member
    exact member.imp_left fun same => ⟨same, rfl⟩
  · simp only [World.setHandler, World.setRoom, Function.update_of_ne e] at member
    exact Or.inr member
  all_goals simp [World.setHandler, World.setRoom, e]

theorem roomOk_joined {w next : World} {v : ViewerId} {r j : RoomId} {latest : Frame}
    (joined : Joined w next v r latest) (idle : (w.handlers v).stage = .idle)
    (h : RoomOk w j) : RoomOk next j where
  numbered := by
    rw [joined.published]
    exact h.numbered
  prepared := by
    rw [joined.published]
    exact h.prepared
  count := by
    rw [joined.published, joined.count]
    exact h.count
  latest := by
    rw [joined.published, joined.last]
    exact h.latest
  members u member := by
    rw [joined.published]
    rcases joined.members j u member with ⟨rfl, rfl⟩ | before
    · rw [joined.self]
      exact ⟨by simp, rfl, Nat.le_refl _⟩
    · have other : u ≠ v := fun e => (h.members u before).1 (e ▸ idle)
      rw [joined.others u other]
      exact h.members u before

theorem joiner_ok {ttl : Int} {w next : World} {v : ViewerId} {r : RoomId} {latest : Frame}
    (joined : Joined w next v r latest) (idle : (w.handlers v).stage = .idle)
    (retained : latest.prepared ≠ none → latest ∈ w.published r) (room : RoomOk w r)
    (h : ViewerOk ttl w v) : ViewerOk ttl next v where
  cell := by
    rw [joined.cells, h.fresh idle]
    exact cellOk_new ttl _
  fresh := by
    rw [joined.self]
    simp
  retained := by
    rw [joined.self, joined.published]
    exact retained
  caller o := by
    rw [joined.cells, h.fresh idle]
    simp [newCell]
  covered _ f owed := by
    rw [joined.self]
    unfold Since at owed
    rw [joined.self, joined.published] at owed
    rcases owed with ⟨first, -⟩ | ⟨published, later⟩
    · exact Or.inr (Or.inr ⟨rfl, first⟩)
    · exact absurd (generation_bounds room published).2 (Nat.not_le.mpr later)

theorem viewerOk_joined {ttl : Int} {w next : World} {v u : ViewerId} {r : RoomId}
    {latest : Frame} (joined : Joined w next v r latest) (other : u ≠ v)
    (h : ViewerOk ttl w u) : ViewerOk ttl next u := by
  have since : Since next u = Since w u := by
    funext f
    simp only [Since, joined.others u other, joined.published]
  constructor
  · rw [since, joined.cells]
    exact h.cell
  · rw [joined.others u other, joined.cells]
    exact h.fresh
  · rw [joined.others u other, joined.published]
    exact h.retained
  · rw [joined.others u other, joined.cells, joined.publishes]
    exact h.caller
  · rw [since, joined.others u other, joined.cells, joined.publishes]
    intro member
    rcases joined.members _ u member with ⟨same, -⟩ | before
    · exact absurd same other
    · exact h.covered before

theorem ok_join {ttl : Int} {w : World} {v : ViewerId} {r : RoomId} {now : Time} {room : Room}
    {latest : Frame} (h : Ok ttl w) (idle : (w.handlers v).stage = .idle)
    (ok : (w.rooms r).addViewer v now ttl = .ok (room, latest)) :
    Ok ttl ((w.setRoom r room).setHandler v ⟨.joined, r, latest, (w.published r).length⟩) := by
  have joined := joined_join ok
  obtain ⟨-, -, -, kept⟩ := add_viewer_ok ok
  generalize (w.setRoom r room).setHandler v ⟨.joined, r, latest, (w.published r).length⟩ =
    next at *
  refine ⟨fun j => roomOk_joined joined idle (h.rooms j), fun k => ?_, fun u => ?_⟩
  · rw [joined.publishes]
    intro running
    have old := h.publishes k running
    refine ⟨by rw [joined.published]; exact old.update, fun u member => ?_⟩
    have served := old.served u member
    have other : u ≠ v := fun e => served.1 (e ▸ idle)
    rw [joined.others u other]
    exact served
  · by_cases e : u = v
    · subst u
      refine joiner_ok joined idle (fun some_ => ?_) (h.rooms r) (h.viewers v)
      rcases kept with zero | ⟨same, -⟩
      · simp [zero, Frame.zero] at some_
      · rw [same] at some_ ⊢
        exact (h.rooms r).latest some_
    · exact viewerOk_joined joined e (h.viewers u)

/-- A publish past its locked section: one frame more, and every viewer in line for it. -/
structure Published (w next : World) (k : PublishId) (r : RoomId) (update : Frame) : Prop where
  generation : update.generation = (w.published r).length + 1
  prepared : update.prepared ≠ none
  self : next.published r = w.published r ++ [update]
  elsewhere : ∀ j, j ≠ r → next.published j = w.published j
  cells : next.cells = w.cells
  handlers : next.handlers = w.handlers
  viewers : ∀ j, (next.rooms j).viewers = (w.rooms j).viewers
  count : (next.rooms r).frameGeneration = update.generation
  latest : (next.rooms r).latest = update
  rooms : ∀ j, j ≠ r → next.rooms j = w.rooms j
  call : next.publishes k = ⟨.offering, r, update, (w.rooms r).viewers, none, 0⟩
  calls : ∀ j, j ≠ k → next.publishes j = w.publishes j

theorem published_publish {w : World} {k : PublishId} {r : RoomId} {payload : Bytes} {now : Time}
    {room : Room} {update : Frame} {viewers : Finset ViewerId} (h : RoomOk w r)
    (stamped : (w.rooms r).stamp payload now = (room, update, viewers)) :
    Published w { (w.setRoom r room).setPublish k ⟨.offering, r, update, viewers, none, 0⟩ with
      published := Function.update w.published r (w.published r ++ [update]) } k r update := by
  simp only [Room.stamp, Prod.mk.injEq] at stamped
  obtain ⟨rfl, rfl, rfl⟩ := stamped
  refine ⟨?_, by simp, Function.update_self _ _ _, fun j other => Function.update_of_ne other _ _,
    rfl, rfl, fun j => ?_, ?_, ?_, fun j other => Function.update_of_ne other _ _,
    Function.update_self _ _ _, fun j other => Function.update_of_ne other _ _⟩
  · simp [h.count]
  · by_cases e : j = r <;> simp [World.setPublish, World.setRoom, e]
  · simp [World.setPublish, World.setRoom]
  · simp [World.setPublish, World.setRoom]

theorem published_grows {w next : World} {k : PublishId} {r : RoomId} {update : Frame}
    (published : Published w next k r update) (j : RoomId) {f : Frame}
    (member : f ∈ w.published j) : f ∈ next.published j := by
  by_cases e : j = r
  · subst j
    rw [published.self]
    exact List.mem_append_left _ member
  · rwa [published.elsewhere j e]

theorem roomOk_published {w next : World} {k : PublishId} {r j : RoomId} {update : Frame}
    (published : Published w next k r update) (h : RoomOk w j) : RoomOk next j := by
  by_cases e : j = r
  · subst j
    have counted : (next.published r).length = (w.published r).length + 1 := by
      simp [published.self]
    refine ⟨fun i bound => ?_, fun f member => ?_, ?_, fun _ => ?_, fun u member => ?_⟩
    · simp only [published.self]
      rw [List.getElem_append]
      split
      · rename_i old
        exact h.numbered i old
      · rename_i last
        simp only [List.getElem_singleton]
        have := published.generation
        omega
    · rw [published.self, List.mem_append] at member
      rcases member with old | last
      · exact h.prepared f old
      · rw [List.mem_singleton.mp last]
        exact published.prepared
    · rw [published.count, counted]
      exact published.generation
    · rw [published.latest, published.self]
      simp
    · rw [published.viewers] at member
      obtain ⟨stage, home, joined⟩ := h.members u member
      rw [published.handlers, counted]
      exact ⟨stage, home, by omega⟩
  · constructor
    · rw [published.elsewhere j e]
      exact h.numbered
    · rw [published.elsewhere j e]
      exact h.prepared
    · rw [published.elsewhere j e, published.rooms j e]
      exact h.count
    · rw [published.elsewhere j e, published.rooms j e]
      exact h.latest
    · rw [published.elsewhere j e, published.rooms j e, published.handlers]
      exact h.members

theorem since_published {w next : World} {k : PublishId} {r : RoomId} {update : Frame}
    (published : Published w next k r update) {u : ViewerId} {f : Frame} (owed : Since next u f) :
    Since w u f ∨ (w.handlers u).room = r ∧ f = update := by
  unfold Since at owed
  rw [published.handlers] at owed
  rcases owed with first | ⟨member, later⟩
  · exact Or.inl (Or.inl first)
  · by_cases e : (w.handlers u).room = r
    · rw [e, published.self, List.mem_append] at member
      rcases member with old | last
      · exact Or.inl (Or.inr ⟨e ▸ old, later⟩)
      · exact Or.inr ⟨e, List.mem_singleton.mp last⟩
    · rw [published.elsewhere _ e] at member
      exact Or.inl (Or.inr ⟨member, later⟩)

theorem viewerOk_published {ttl : Int} {w next : World} {k : PublishId} {r : RoomId}
    {update : Frame} (published : Published w next k r update)
    (idle : (w.publishes k).stage = .idle) {u : ViewerId} (h : ViewerOk ttl w u) :
    ViewerOk ttl next u := by
  have other : ∀ j, (w.publishes j).stage = .offering → j ≠ k := by
    rintro j running rfl
    rw [idle] at running
    cases running
  constructor
  · rw [published.cells]
    refine cellOk_mono (fun f owed => ?_) h.cell
    unfold Since
    rw [published.handlers]
    exact owed.imp_right fun ⟨member, later⟩ => ⟨published_grows published _ member, later⟩
  · rw [published.handlers, published.cells]
    exact h.fresh
  · rw [published.handlers]
    exact fun some_ => published_grows published _ (h.retained some_)
  · rw [published.handlers, published.cells]
    intro o current
    rcases h.caller o current with own | ⟨j, source, running, serving⟩
    · exact Or.inl own
    · have there := published.calls j (other j running)
      exact Or.inr ⟨j, source, by rw [there]; exact ⟨running, serving⟩⟩
  · rw [published.handlers, published.cells, published.viewers]
    intro member f owed
    rcases since_published published owed with before | ⟨home, rfl⟩
    · rcases h.covered member f before with offered | ⟨j, running, waiting, same⟩ | first
      · exact Or.inl offered
      · have there := published.calls j (other j running)
        exact Or.inr (Or.inl ⟨j, by rw [there]; exact ⟨running, waiting, same⟩⟩)
      · exact Or.inr (Or.inr first)
    · rw [home] at member
      exact Or.inr (Or.inl ⟨k, by rw [published.call]; exact ⟨rfl, member, rfl⟩⟩)

theorem ok_publish {ttl : Int} {w next : World} {k : PublishId} {r : RoomId} {update : Frame}
    (published : Published w next k r update) (idle : (w.publishes k).stage = .idle)
    (h : Ok ttl w) : Ok ttl next where
  rooms j := roomOk_published published (h.rooms j)
  publishes j := by
    by_cases e : j = k
    · subst j
      rw [published.call]
      intro _
      refine ⟨?_, fun u member => ?_⟩
      · rw [published.self]
        simp
      · rcases member with waiting | now
        · obtain ⟨stage, home, joined⟩ := (h.rooms r).members u waiting
          rw [published.handlers]
          have := published.generation
          exact ⟨stage, home, by simp only; omega⟩
        · cases now
    · rw [published.calls j e]
      intro running
      have old := h.publishes j running
      refine ⟨published_grows published _ old.update, ?_⟩
      rw [published.handlers]
      exact old.served
  viewers u := viewerOk_published published idle (h.viewers u)

theorem ok_initial {ttl : Int} {w next : World} {v : ViewerId} (h : Ok ttl w)
    (taken : step ttl w (.initialOffer v) = some next) : Ok ttl next := by
  simp only [step, Option.ite_none_right_eq_some] at taken
  obtain ⟨stage, taken⟩ := taken
  by_cases nothing : (w.handlers v).latest.prepared = none
  · rw [if_pos nothing] at taken
    rw [← Option.some.inj taken]
    exact ok_initial_skipped h stage fun some_ => absurd nothing some_
  · rw [if_neg nothing] at taken
    split at taken
    · cases taken
    · rename_i free
      split at taken <;> rw [← Option.some.inj taken]
      · rename_i refused
        exact ok_initial_skipped h stage fun _ => accept_none refused
      · rename_i cell ok
        exact ok_initial_offer h nothing (by simpa using free) ok

theorem ok_offer {ttl : Int} {w next : World} {k : PublishId} {v : ViewerId} (h : Ok ttl w)
    (taken : step ttl w (.offer k v) = some next) : Ok ttl next := by
  simp only [step, Option.ite_none_right_eq_some] at taken
  obtain ⟨⟨stage, member, idle, free⟩, taken⟩ := taken
  split at taken <;> rw [← Option.some.inj taken]
  · rename_i refused
    exact ok_offer_refused h member idle refused
  · rename_i cell ok
    exact ok_offer_admitted h stage member idle free ok

theorem ok_send {ttl : Int} {w next : World} {v : ViewerId} (h : Ok ttl w)
    (taken : step ttl w (.send v) = some next) : Ok ttl next := by
  simp only [step] at taken
  split at taken
  · rename_i update source replaced current
    rw [← Option.some.inj taken]
    cases source with
    | publish k => exact ok_send_publish h current
    | handler => exact ok_send_handler h current
  · cases taken

theorem ok_step {ttl : Int} {w next : World} {a : Act} (h : Ok ttl w)
    (taken : step ttl w a = some next) : Ok ttl next := by
  cases a with
  | initialOffer v => exact ok_initial h taken
  | offer k v => exact ok_offer h taken
  | send v => exact ok_send h taken
  | join v r now =>
    simp only [step, Option.ite_none_right_eq_some] at taken
    obtain ⟨idle, taken⟩ := taken
    split at taken <;> rw [← Option.some.inj taken]
    · exact ok_join_refused h idle
    · rename_i room latest ok
      exact ok_join h idle ok
  | startWriter v =>
    simp only [step, Option.ite_none_right_eq_some, Option.some.injEq] at taken
    obtain ⟨⟨stage, -⟩, rfl⟩ := taken
    exact ok_startWriter h stage
  | leave v =>
    simp only [step, Option.ite_none_right_eq_some, Option.some.injEq] at taken
    obtain ⟨stage, rfl⟩ := taken
    exact ok_leave h stage
  | publish k r payload now =>
    simp only [step, Option.ite_none_right_eq_some] at taken
    obtain ⟨idle, taken⟩ := taken
    rw [← Option.some.inj taken]
    exact ok_publish (published_publish (h.rooms r) rfl) idle h
  | finish k =>
    simp only [step, Option.ite_none_right_eq_some, Option.some.injEq] at taken
    obtain ⟨⟨-, empty, idle⟩, rfl⟩ := taken
    exact ok_finish h empty idle
  | drain v =>
    simp only [step] at taken
    split at taken
    · rename_i update source current
      rw [← Option.some.inj taken]
      exact ok_drain h current
    · cases taken
  | receive v =>
    simp only [step] at taken
    split at taken
    · rename_i cell ok
      rw [← Option.some.inj taken]
      exact ok_receive h ok
    · cases taken
  | decide v now =>
    simp only [step] at taken
    split at taken
    · rename_i cell ok
      rw [← Option.some.inj taken]
      exact ok_decide h ok
    · cases taken
  | expire r now =>
    simp only [step, Option.some.injEq] at taken
    rw [← taken]
    exact ok_expire h

theorem ok_started (ttl : Int) (maxViewers : RoomId → Nat) : Ok ttl (started maxViewers) where
  rooms r := by constructor <;> simp [started, newRoom, Frame.zero]
  publishes k running := by cases running
  viewers v :=
    { cell := cellOk_new ttl _
      fresh := fun _ => rfl
      retained := fun some_ => absurd rfl some_
      caller := fun o current => by cases current
      covered := fun member => by simp [started, newRoom] at member }

theorem ok_invariant (ttl : Int) : Invariant (relay ttl) (Ok ttl) where
  start w := by
    rintro ⟨maxViewers, rfl⟩
    exact ok_started ttl maxViewers
  kept _ _ _ h taken := ok_step h taken

/-- The frames published in a viewer's room since it was added, and the one `addViewer`
   returned. -/
def candidates (w : World) (v : ViewerId) : List Frame :=
  let handler := w.handlers v
  (if handler.latest.prepared = none then [] else [handler.latest]) ++
    (w.published handler.room).drop handler.joinedAt

/-- No offer to the viewer is under way or still to come from a started publish. -/
def OffersFinished (w : World) (v : ViewerId) : Prop :=
  ∀ k, (w.publishes k).stage = .offering →
    v ∉ (w.publishes k).pending ∧ (w.publishes k).current ≠ some v

structure Delivery (ttl : Int) (w : World) (v : ViewerId) : Prop where
  ascending : (w.cells v).received.Pairwise fun f g => f.generation < g.generation
  ownRoom : ∀ f ∈ (w.cells v).received, f ∈ w.published (w.handlers v).room
  written : ∀ x ∈ (w.cells v).writes, x.update ∈ (w.cells v).received ∧
    x.now < x.update.publishedAt + ttl ∧ x.deadline ≤ x.update.publishedAt + ttl
  neverDefault : ∀ o replaced, (w.cells v).offering = some o → o.replaced = some replaced →
    ((w.cells v).object.send o.update).2 = true
  newest : v ∈ (w.rooms (w.handlers v).room).viewers → (w.handlers v).stage = .offered →
    OffersFinished w v → ∀ f ∈ candidates w v,
    (∀ g ∈ candidates w v, g.generation ≤ f.generation) →
    f ∈ (w.cells v).received ∨ (w.cells v).object.updates = some f

theorem since_published_room {ttl : Int} {w : World} (h : Ok ttl w) {v : ViewerId} {f : Frame}
    (owed : Since w v f) : f ∈ w.published (w.handlers v).room := by
  rcases owed with ⟨rfl, some_⟩ | ⟨published, -⟩
  · exact (h.viewers v).retained some_
  · exact published

theorem mem_candidates {ttl : Int} {w : World} (h : Ok ttl w) {v : ViewerId} {f : Frame} :
    f ∈ candidates w v ↔ Since w v f := by
  have numbered := (h.rooms (w.handlers v).room).numbered
  have later : f ∈ (w.published (w.handlers v).room).drop (w.handlers v).joinedAt ↔
      f ∈ w.published (w.handlers v).room ∧ (w.handlers v).joinedAt < f.generation := by
    constructor
    · intro member
      obtain ⟨i, bound, rfl⟩ := List.mem_iff_getElem.mp member
      rw [List.getElem_drop]
      rw [List.length_drop] at bound
      exact ⟨List.getElem_mem _, by rw [numbered]; omega⟩
    · rintro ⟨member, after⟩
      obtain ⟨i, bound, rfl⟩ := List.mem_iff_getElem.mp member
      rw [numbered] at after
      refine List.mem_iff_getElem.mpr ⟨i - (w.handlers v).joinedAt, ?_, ?_⟩
      · rw [List.length_drop]
        omega
      · rw [List.getElem_drop]
        congr 1
        omega
  unfold candidates Since
  rw [List.mem_append, later]
  by_cases none : (w.handlers v).latest.prepared = none
  · simp only [none, if_true, List.not_mem_nil, false_or]
    constructor
    · exact Or.inr
    · rintro (⟨rfl, some_⟩ | published)
      · exact absurd none some_
      · exact published
  · simp only [none, if_false, List.mem_singleton]
    constructor
    · exact Or.imp_left fun same => ⟨same, same ▸ none⟩
    · exact Or.imp_left fun ⟨same, _⟩ => same

/-- A generation names one frame of a room. -/
theorem same_generation {w : World} {r : RoomId} {f g : Frame} (h : RoomOk w r)
    (left : f ∈ w.published r) (right : g ∈ w.published r)
    (same : f.generation = g.generation) : f = g := by
  obtain ⟨i, boundI, rfl⟩ := List.mem_iff_getElem.mp left
  obtain ⟨j, boundJ, rfl⟩ := List.mem_iff_getElem.mp right
  rw [h.numbered i boundI, h.numbered j boundJ] at same
  have index : i = j := by omega
  subst j
  rfl

theorem newest_frame_delivered {ttl : Int} {w : World} (h : Ok ttl w) {v : ViewerId}
    (member : v ∈ (w.rooms (w.handlers v).room).viewers)
    (offered : (w.handlers v).stage = .offered) (finished : OffersFinished w v) {f : Frame}
    (owed : Since w v f) (top : ∀ g, Since w v g → g.generation ≤ f.generation) :
    f ∈ (w.cells v).received ∨ (w.cells v).object.updates = some f := by
  have own := h.viewers v
  have room := h.rooms (w.handlers v).room
  have reached : f.generation ≤ (w.cells v).object.newestGeneration := by
    rcases own.covered member f owed with done | ⟨k, running, waiting, -⟩ | ⟨joined, -⟩
    · exact done
    · exact absurd waiting (finished k running).1
    · rw [offered] at joined
      cases joined
  have free : (w.cells v).offering = none := by
    rw [Option.eq_none_iff_forall_ne_some]
    intro o current
    rcases own.caller o current with ⟨-, offering⟩ | ⟨k, -, running, serving⟩
    · rw [offered] at offering
      cases offering
    · exact (finished k running).2 serving
  have forward := own.cell.forward
  rw [held, free] at forward
  have numbered := generation_bounds room (since_published_room h owed)
  obtain ⟨g, candidate, newest, where_⟩ := newest_delivered forward (by omega)
  have below := top g candidate
  have same : f = g := same_generation room (since_published_room h owed)
    (since_published_room h candidate) (by omega)
  rwa [same]

theorem viewer_delivery (ttl : Int) {w : World} (reach : (relay ttl).Reachable w)
    (v : ViewerId) : Delivery ttl w v := by
  have h := reachable_invariant (relay ttl) (ok_invariant ttl) reach
  have own := h.viewers v
  constructor
  case ascending => exact taken_ascending own.cell.forward
  case ownRoom =>
    intro f received
    exact since_published_room h (own.cell.forward.candidates f (stream_subset received))
  case written => exact own.cell.written
  case neverDefault =>
    rintro ⟨update, source, -⟩ replaced current rfl
    have vacant := send_finds_room own.cell current
    simp [Viewer.send, vacant]
  case newest =>
    intro member offered finished f owed top
    refine newest_frame_delivered h member offered finished ((mem_candidates h).mp owed) ?_
    exact fun g candidate => top g ((mem_candidates h).mpr candidate)

/-- Two publishes overlap around the initial offer of a third, older frame. -/
def overlapping : List Act :=
  [.publish 0 [97] [1] 10, .finish 0, .join 0 [97] 20, .publish 1 [97] [2] 30,
   .publish 2 [97] [3] 40, .offer 2 0, .drain 0, .send 0, .offer 1 0, .initialOffer 0,
   .startWriter 0, .receive 0, .decide 0 50, .finish 1, .finish 2]

def overlappingWorld : World := ((relay 3000).exec (started fun _ => 2) overlapping).get rfl

theorem viewer_delivery_overlapping :
    (overlappingWorld.cells 0).received = [⟨3, some [3], 1, 40⟩] ∧
      Delivery 3000 overlappingWorld 0 :=
  ⟨rfl, viewer_delivery 3000 ⟨_, overlapping, ⟨_, rfl⟩, (Option.some_get _).symm⟩ 0⟩

end RelayFreshness
