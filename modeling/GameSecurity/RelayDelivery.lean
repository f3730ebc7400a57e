import GameSecurity.Runs
import GameSecurity.RelayRoom
import GameSecurity.LatestSlot

/- The way of a frame from `publish` to a viewer's writer. Offers are taken apart at the
   two selects of `offer`, since the writer receives without the viewer's mutex. -/
namespace RelayDelivery
open Runs RelayRoom LatestSlot

abbrev PublishId := Nat

/-- Who called `offer`: a publish, or the viewer's own handler. -/
inductive Source where
  | publish (k : PublishId)
  | handler
  deriving DecidableEq, Repr

/-- An offer past its generation test; `replaced` is none until the first select. -/
structure Offering where
  update : Frame
  source : Source
  replaced : Option Bool
  deriving DecidableEq, Repr

structure Write where
  update : Frame
  now : Time
  deadline : Time
  deriving DecidableEq, Repr

inductive Writer where
  | absent
  | waiting
  | read (update : Frame)
  deriving DecidableEq, Repr

/-- One viewer object with the offer that holds its mutex and its writer. The last four
   fields are history: what was received, written, put in the channel and replaced. -/
structure Cell where
  object : Viewer
  offering : Option Offering
  writer : Writer
  received : List Frame
  writes : List Write
  sent : Nat
  overwritten : Nat

def newCell : Cell := ⟨newViewer, none, .absent, [], [], 0, 0⟩

/-- The deadline `writeViewer` sets after reading the time; none is its `continue`. -/
def writeDeadline (ttl : Int) (update : Frame) (now : Time) : Option Time :=
  let expiresAt := update.publishedAt + ttl
  if ¬ now < expiresAt then none
  else
    let deadline := now + 5 * nanosPerSecond
    some (if expiresAt < deadline then expiresAt else deadline)

def Cell.accept (c : Cell) (update : Frame) (source : Source) : Option Cell :=
  match c.object.accept update with
  | none => none
  | some object => some { c with object, offering := some ⟨update, source, none⟩ }

def Cell.drain (c : Cell) (o : Offering) : Cell :=
  let (object, replaced) := c.object.drain
  { c with object, offering := some { o with replaced := some replaced } }

/-- The second select and the unlock; a true result of the offer is counted. -/
def Cell.send (c : Cell) (o : Offering) (replaced : Bool) : Cell :=
  let (object, sent) := c.object.send o.update
  { c with
    object, offering := none, sent := c.sent + sent.toNat
    overwritten := c.overwritten + replaced.toNat }

def Cell.receive (c : Cell) : Option Cell :=
  match c.writer, c.object.updates with
  | .waiting, some update =>
    some { c with
      object := { c.object with updates := none }, writer := .read update
      received := c.received ++ [update] }
  | _, _ => none

def Cell.decide (c : Cell) (ttl : Int) (now : Time) : Option Cell :=
  match c.writer with
  | .read update =>
    match writeDeadline ttl update now with
    | none => some { c with writer := .waiting }
    | some deadline =>
      some { c with writer := .waiting, writes := c.writes ++ [⟨update, now, deadline⟩] }
  | _ => none

inductive HandlerStage where
  | idle
  | joined
  | offering
  | offered
  | gone
  deriving DecidableEq, Repr

/- `joinedAt` is how many frames the room had published when the viewer was added. -/
structure Handler where
  stage : HandlerStage
  room : RoomId
  latest : Frame
  joinedAt : Nat

inductive PublishStage where
  | idle
  | offering
  | returned
  deriving DecidableEq, Repr

/- `pending` are the copied viewers the loop has not come to yet. -/
structure Publish where
  stage : PublishStage
  room : RoomId
  update : Frame
  pending : Finset ViewerId
  current : Option ViewerId
  dropped : Nat

structure World where
  rooms : RoomId → Room
  cells : ViewerId → Cell
  handlers : ViewerId → Handler
  publishes : PublishId → Publish
  published : RoomId → List Frame
  viewerFramesDropped : Nat

def World.setRoom (w : World) (r : RoomId) (room : Room) : World :=
  { w with rooms := Function.update w.rooms r room }

def World.setCell (w : World) (v : ViewerId) (cell : Cell) : World :=
  { w with cells := Function.update w.cells v cell }

def World.setHandler (w : World) (v : ViewerId) (handler : Handler) : World :=
  { w with handlers := Function.update w.handlers v handler }

def World.setPublish (w : World) (k : PublishId) (call : Publish) : World :=
  { w with publishes := Function.update w.publishes k call }

inductive Act where
  | join (v : ViewerId) (r : RoomId) (now : Time)
  | initialOffer (v : ViewerId)
  | startWriter (v : ViewerId)
  | leave (v : ViewerId)
  | publish (k : PublishId) (r : RoomId) (payload : Bytes) (now : Time)
  | offer (k : PublishId) (v : ViewerId)
  | finish (k : PublishId)
  | drain (v : ViewerId)
  | send (v : ViewerId)
  | receive (v : ViewerId)
  | decide (v : ViewerId) (now : Time)
  | expire (r : RoomId) (now : Time)
  deriving DecidableEq, Repr

/-- The caller of an offer goes on with its result. -/
def World.offered (w : World) (v : ViewerId) (replaced : Bool) : Source → World
  | .publish k =>
    w.setPublish k { w.publishes k with
      current := none, dropped := (w.publishes k).dropped + replaced.toNat }
  | .handler => w.setHandler v { w.handlers v with stage := .offered }

def step (ttl : Int) (w : World) : Act → Option World
  | .join v r now =>
    if (w.handlers v).stage = .idle then
      match (w.rooms r).addViewer v now ttl with
      | .error _ => some (w.setHandler v { w.handlers v with stage := .gone })
      | .ok (room, latest) =>
        some ((w.setRoom r room).setHandler v ⟨.joined, r, latest, (w.published r).length⟩)
    else none
  | .initialOffer v =>
    let handler := w.handlers v
    if handler.stage = .joined then
      if handler.latest.prepared = none then
        some (w.setHandler v { handler with stage := .offered })
      else if (w.cells v).offering.isSome then none
      else
        match (w.cells v).accept handler.latest .handler with
        | none => some (w.setHandler v { handler with stage := .offered })
        | some cell => some ((w.setCell v cell).setHandler v { handler with stage := .offering })
    else none
  | .startWriter v =>
    if (w.handlers v).stage = .offered ∧ (w.cells v).writer = .absent then
      some (w.setCell v { w.cells v with writer := .waiting })
    else none
  | .leave v =>
    let handler := w.handlers v
    if handler.stage = .joined ∨ handler.stage = .offered then
      some ((w.setRoom handler.room ((w.rooms handler.room).removeViewer v)).setHandler v
        { handler with stage := .gone })
    else none
  | .publish k r payload now =>
    if (w.publishes k).stage = .idle then
      let (room, update, viewers) := (w.rooms r).stamp payload now
      some { (w.setRoom r room).setPublish k ⟨.offering, r, update, viewers, none, 0⟩ with
        published := Function.update w.published r (w.published r ++ [update]) }
    else none
  | .offer k v =>
    let call := w.publishes k
    if call.stage = .offering ∧ v ∈ call.pending ∧ call.current = none ∧
        (w.cells v).offering = none then
      let left := call.pending.erase v
      match (w.cells v).accept call.update (.publish k) with
      | none => some (w.setPublish k { call with pending := left })
      | some cell =>
        some ((w.setCell v cell).setPublish k { call with pending := left, current := some v })
    else none
  | .finish k =>
    let call := w.publishes k
    if call.stage = .offering ∧ call.pending = ∅ ∧ call.current = none then
      some { w.setPublish k { call with stage := .returned } with
        viewerFramesDropped := w.viewerFramesDropped + call.dropped }
    else none
  | .drain v =>
    match (w.cells v).offering with
    | some ⟨update, source, none⟩ =>
      some (w.setCell v ((w.cells v).drain ⟨update, source, none⟩))
    | _ => none
  | .send v =>
    match (w.cells v).offering with
    | some ⟨update, source, some replaced⟩ =>
      some ((w.setCell v ((w.cells v).send ⟨update, source, some replaced⟩ replaced)).offered v
        replaced source)
    | _ => none
  | .receive v =>
    match (w.cells v).receive with
    | some cell => some (w.setCell v cell)
    | none => none
  | .decide v now =>
    match (w.cells v).decide ttl now with
    | some cell => some (w.setCell v cell)
    | none => none
  | .expire r now => some (w.setRoom r ((w.rooms r).expire now ttl))

def started (maxViewers : RoomId → Nat) : World where
  rooms r := newRoom r (Vector.replicate 32 0) [] (maxViewers r)
  cells _ := newCell
  handlers _ := ⟨.idle, [], Frame.zero, 0⟩
  publishes _ := ⟨.idle, [], Frame.zero, ∅, none, 0⟩
  published _ := []
  viewerFramesDropped := 0

def relay (ttl : Int) : Machine World Act where
  init w := ∃ maxViewers, w = started maxViewers
  step := step ttl

end RelayDelivery
