import Mathlib.Data.Finset.Card
import Mathlib.Data.Finset.Option
import Mathlib.Data.Finset.Union

/- The critical sections of `viewer` and `room` in the relay. A section that holds
   the mutex from start to end is one function of the guarded fields. Generations
   are uint64 counters stepped once a publish or claim; they are counted in Nat. -/
namespace RelayRoom

abbrev Bytes := List UInt8

/-- Nanoseconds since the zero `time.Time`. Durations are nanoseconds too. -/
abbrev Time := Int

abbrev Digest := Vector UInt8 32
abbrev RoomId := Bytes
abbrev ViewerId := Nat
abbrev ProducerId := Nat

def nanosPerSecond : Int := 1000000000
def nanosPerMillisecond : Int := 1000000

/-- A run upgrades at most one connection, which is named after it. -/
inductive Conn where
  | viewer : ViewerId → Conn
  | producer : ProducerId → Conn
  deriving DecidableEq, Repr

/- `prepared` is the prepared message's payload, none for the nil pointer. -/
structure Frame where
  generation : Nat
  prepared : Option Bytes
  payloadSize : Nat
  publishedAt : Time
  deriving DecidableEq, Repr

def Frame.zero : Frame := ⟨0, none, 0, 0⟩

/- `updates` is a channel of capacity one: none when it is empty. -/
structure Viewer where
  newestGeneration : Nat
  updates : Option Frame
  conn : Option Conn
  deriving DecidableEq, Repr

def newViewer : Viewer := ⟨0, none, none⟩

/-- The generation test at the head of `offer`, with the store it guards. -/
def Viewer.accept (v : Viewer) (update : Frame) : Option Viewer :=
  if update.generation ≤ v.newestGeneration then none
  else some { v with newestGeneration := update.generation }

/-- First select of `offer`: receive what is queued, or fall through. -/
def Viewer.drain (v : Viewer) : Viewer × Bool :=
  match v.updates with
  | some _ => ({ v with updates := none }, true)
  | none => (v, false)

/-- Second select of `offer`: false is its default branch. -/
def Viewer.send (v : Viewer) (update : Frame) : Viewer × Bool :=
  match v.updates with
  | none => ({ v with updates := some update }, true)
  | some _ => (v, false)

def Viewer.offer (v : Viewer) (update : Frame) : Viewer × Bool :=
  match v.accept update with
  | none => (v, false)
  | some admitted =>
    let (drained, replaced) := admitted.drain
    ((drained.send update).1, replaced)

inductive RoomError where
  | producerAlreadyConnected
  | viewerCapacity
  | roomClosing
  deriving DecidableEq, Repr

def RoomError.text : RoomError → String
  | .producerAlreadyConnected => "a producer is already connected"
  | .viewerCapacity => "room viewer capacity reached"
  | .roomClosing => "room is closing"

structure Room where
  id : RoomId
  producerHash : Digest
  inviteHashes : List Digest
  maxViewers : Nat
  producerActive : Bool
  producerGeneration : Nat
  producerConn : Option Conn
  viewers : Finset ViewerId
  latest : Frame
  latestAt : Time
  frameGeneration : Nat
  closing : Bool

/-- The composite literal of `New`: fields it does not name are zero. -/
def newRoom (id : RoomId) (producerHash : Digest) (inviteHashes : List Digest)
    (maxViewers : Nat) : Room :=
  { id, producerHash, inviteHashes, maxViewers, producerActive := false,
    producerGeneration := 0, producerConn := none, viewers := ∅, latest := Frame.zero,
    latestAt := 0, frameGeneration := 0, closing := false }

def Room.claimProducer (r : Room) : Except RoomError (Room × Nat) :=
  if r.closing then .error .roomClosing
  else if r.producerActive then .error .producerAlreadyConnected
  else .ok ({ r with producerActive := true, producerGeneration := r.producerGeneration + 1 },
    r.producerGeneration + 1)

/-- none is the false return, which leaves the room as it was. -/
def Room.attachProducer (r : Room) (generation : Nat) (conn : Conn) : Option Room :=
  if r.closing = true ∨ r.producerActive = false ∨ generation ≠ r.producerGeneration then none
  else some { r with producerConn := some conn }

def Room.releaseProducer (r : Room) (generation : Nat) : Room :=
  if generation ≠ r.producerGeneration then r
  else { r with producerActive := false, producerConn := none }

/-- Writes the viewer object, whose conn the room's mutex guards. -/
def Room.attachViewer (r : Room) (v : ViewerId) (object : Viewer) (conn : Conn) :
    Option Viewer :=
  if r.closing then none
  else if v ∈ r.viewers then some { object with conn := some conn }
  else none

def Room.addViewer (r : Room) (v : ViewerId) (now : Time) (ttl : Int) :
    Except RoomError (Room × Frame) :=
  if r.closing then .error .roomClosing
  else if r.maxViewers ≤ r.viewers.card then .error .viewerCapacity
  else
    let joined := { r with viewers := insert v r.viewers }
    if r.latest.prepared = none ∨ ttl < now - r.latestAt then .ok (joined, Frame.zero)
    else .ok (joined, r.latest)

def Room.removeViewer (r : Room) (v : ViewerId) : Room :=
  { r with viewers := r.viewers.erase v }

/-- The locked section of `publish`: the stamped room, the frame and the copied
   viewers. The offers follow after the unlock. -/
def Room.stamp (r : Room) (payload : Bytes) (now : Time) : Room × Frame × Finset ViewerId :=
  let update : Frame := ⟨r.frameGeneration + 1, some payload, payload.length, now⟩
  ({ r with frameGeneration := r.frameGeneration + 1, latest := update, latestAt := now },
    update, r.viewers)

def Room.expire (r : Room) (now : Time) (ttl : Int) : Room :=
  if r.latest.prepared ≠ none ∧ ttl < now - r.latestAt then
    { r with latest := Frame.zero, latestAt := 0 }
  else r

/-- The locked section of `closeConnections`: the room marked closing and the
   connections that are closed after the unlock. -/
def Room.collect (r : Room) (objects : ViewerId → Viewer) : Room × Finset Conn :=
  ({ r with closing := true },
    r.producerConn.toFinset ∪ r.viewers.biUnion fun v => (objects v).conn.toFinset)

theorem claim_ok_iff {r next : Room} {generation : Nat} :
    r.claimProducer = .ok (next, generation) ↔
      r.closing = false ∧ r.producerActive = false ∧
        generation = r.producerGeneration + 1 ∧
        next = { r with producerActive := true, producerGeneration := generation } := by
  unfold Room.claimProducer
  cases r.closing <;> cases r.producerActive <;> simp
  constructor
  · rintro ⟨eq, rfl⟩
    exact ⟨rfl, eq.symm⟩
  · rintro ⟨rfl, eq⟩
    exact ⟨eq.symm, rfl⟩

theorem attach_producer_some_iff {r next : Room} {generation : Nat} {conn : Conn} :
    r.attachProducer generation conn = some next ↔
      r.closing = false ∧ r.producerActive = true ∧ generation = r.producerGeneration ∧
        next = { r with producerConn := some conn } := by
  unfold Room.attachProducer
  cases r.closing <;> cases r.producerActive <;> simp
  intro _
  exact eq_comm

theorem attach_viewer_some_iff {r : Room} {v : ViewerId} {object next : Viewer} {conn : Conn} :
    r.attachViewer v object conn = some next ↔
      r.closing = false ∧ v ∈ r.viewers ∧ next = { object with conn := some conn } := by
  unfold Room.attachViewer
  cases r.closing <;> simp
  intro _
  exact eq_comm

/-- What a successful `addViewer` did; the frame is the retained one or the zero one. -/
theorem add_viewer_ok {r next : Room} {v : ViewerId} {now : Time} {ttl : Int} {frame : Frame}
    (h : r.addViewer v now ttl = .ok (next, frame)) :
    r.closing = false ∧ r.viewers.card < r.maxViewers ∧
      next = { r with viewers := insert v r.viewers } ∧
      (frame = Frame.zero ∨ frame = r.latest ∧ r.latest.prepared ≠ none) := by
  unfold Room.addViewer at h
  split at h
  · cases h
  · rename_i notClosing
    split at h
    · cases h
    · rename_i notFull
      have isOpen : r.closing = false := by simpa using notClosing
      split at h
      · simp only [Except.ok.injEq, Prod.mk.injEq] at h
        exact ⟨isOpen, by omega, h.1.symm, Or.inl h.2.symm⟩
      · rename_i kept
        simp only [Except.ok.injEq, Prod.mk.injEq] at h
        exact ⟨isOpen, by omega, h.1.symm, Or.inr ⟨h.2.symm, fun e => kept (Or.inl e)⟩⟩

theorem closing_refuses {r : Room} (closing : r.closing = true) :
    r.claimProducer = .error .roomClosing ∧
      (∀ generation conn, r.attachProducer generation conn = none) ∧
      (∀ v now ttl, r.addViewer v now ttl = .error .roomClosing) ∧
      (∀ v object conn, r.attachViewer v object conn = none) := by
  simp [Room.claimProducer, Room.attachProducer, Room.addViewer, Room.attachViewer, closing]

theorem mem_collect {r : Room} {objects : ViewerId → Viewer} {c : Conn} :
    c ∈ (r.collect objects).2 ↔
      r.producerConn = some c ∨ ∃ v ∈ r.viewers, (objects v).conn = some c := by
  simp [Room.collect]

end RelayRoom
