import Mathlib.Algebra.Group.Int.Defs
import Mathlib.Algebra.Group.Nat.Defs
import GameSecurity.Runs
import GameSecurity.SlotLedger

/- The teleport mailbox of SharedState: QueueTeleport in the controllers and
   ProcessTeleportAfterOriginalTick in the game, one read or write of a shared word a
   step. Steps are sequentially consistent. -/
namespace TeleportMailbox
open Runs SlotLedger

/-- A float by its single-precision bits. -/
abbrev Single := BitVec 32

def exponent (v : Single) : Nat := v.toNat / 2 ^ 23 % 2 ^ 8

def fraction (v : Single) : Nat := v.toNat % 2 ^ 23

/-- Finite values are multiples of 2 ^ -149, the smallest positive one. -/
def perUnit : Nat := 2 ^ 149

/- `std::fabs` of a finite value, in those multiples. -/
def magnitude (v : Single) : Nat :=
  if exponent v = 0 then fraction v else (2 ^ 23 + fraction v) * 2 ^ (exponent v - 1)

def signed (v : Single) : Int := if v.msb then -magnitude v else magnitude v

def isfinite (v : Single) : Prop := exponent v ≠ 255

instance (v : Single) : Decidable (isfinite v) := inferInstanceAs (Decidable (_ ≠ _))

structure Vector3 where
  x : Single
  y : Single
  z : Single
  deriving DecidableEq, Repr

/-- The controller's own limit on what it queues. -/
def IsValidWorldCoordinate (v : Single) : Prop :=
  isfinite v ∧ magnitude v ≤ 200000 * perUnit

instance (v : Single) : Decidable (IsValidWorldCoordinate v) :=
  inferInstanceAs (Decidable (_ ∧ _))

def kCoordinateLimit : Nat := 1000000

/-- The game thread's limit on what it carries out. -/
def ValidTeleport (position : Vector3) : Prop :=
  isfinite position.x ∧ isfinite position.y ∧ isfinite position.z ∧
    magnitude position.x ≤ kCoordinateLimit * perUnit ∧
    magnitude position.y ≤ kCoordinateLimit * perUnit ∧
    magnitude position.z ≤ kCoordinateLimit * perUnit

instance (position : Vector3) : Decidable (ValidTeleport position) :=
  inferInstanceAs (Decidable (_ ∧ _))

/-- PublishPosition on what Actor::GetPosition gave; none is its false. -/
def publishPosition (result : Option Vector3) : Option Vector3 :=
  result.filter fun position =>
    isfinite position.x ∧ isfinite position.y ∧ isfinite position.z ∧
      (magnitude position.x ≠ 0 ∨ magnitude position.y ≠ 0 ∨ magnitude position.z ≠ 0)

/- `std::fabs(a - b) <= 2.0F`. The difference is rounded to the nearest float, and all
   up to half a step above 2 comes out as 2. -/
def withinTolerance (a b : Single) : Prop :=
  (signed a - signed b).natAbs ≤ 2 * perUnit + 2 ^ 126

instance (a b : Single) : Decidable (withinTolerance a b) :=
  inferInstanceAs (Decidable (_ ≤ _))

def arrived (observed : Option Vector3) (requested : Vector3) : Bool :=
  match observed with
  | none => false
  | some coordinate =>
    withinTolerance coordinate.x requested.x && withinTolerance coordinate.y requested.y &&
      withinTolerance coordinate.z requested.z

/-- A LONG is kept as its value; sums wrap to 32 bits. -/
def long (n : Int) : Int := n.bmod (2 ^ 32)

def longMax : Int := 2 ^ 31 - 1

theorem long_eq {n : Int} (low : 0 ≤ n) (high : n ≤ longMax) : long n = n := by
  unfold longMax at high
  simp only [long, Int.bmod]
  omega

abbrev CallId := Nat

inductive Outcome where
  | invalidCoordinate
  | noTick
  | noPlayer
  | pending
  | lost
  | timedOut
  | setPositionFailed
  | completed
  deriving DecidableEq, Repr

/-- What QueueTeleport does next. -/
inductive CallStage where
  | notCalled
  | readRequest
  | readCompleted
  | acquire
  | writeX
  | writeY
  | writeZ
  | publish
  | poll
  | readResult
  | returned (outcome : Outcome)
  deriving DecidableEq, Repr

structure Call where
  stage : CallStage
  position : Vector3
  previous : Int
  deriving DecidableEq, Repr

/-- What ProcessTeleportAfterOriginalTick does next. -/
inductive GameStage where
  | idle
  | readRequest
  | readCompleted
  | copyX
  | copyY
  | copyZ
  | recheck
  | setPosition
  | publishPosition
  | storeSucceeded
  | storeCompleted
  deriving DecidableEq, Repr

structure Game where
  stage : GameStage
  requestId : Int
  requested : Vector3
  succeeded : Int
  deriving DecidableEq, Repr

/-- A call of Actor::SetPosition for a request. -/
structure Execution where
  id : Int
  position : Vector3
  deriving DecidableEq, Repr

/-- An acknowledged request with the result stored for it. -/
structure Acknowledged where
  id : Int
  succeeded : Int
  deriving DecidableEq, Repr

/-- The six words of the mailbox, the calls, the game thread and three histories. -/
structure World where
  teleport : Vector3
  requestId : Int
  completedId : Int
  succeeded : Int
  calls : CallId → Call
  game : Game
  published : List (Entry CallId Vector3)
  executed : List Execution
  processed : List Acknowledged

def World.setCall (w : World) (c : CallId) (call : Call) : World :=
  { w with calls := Function.update w.calls c call }

def World.setGame (w : World) (game : Game) : World := { w with game }

/-- The checks QueueTeleport makes before it looks at the mailbox. -/
def queueTeleport (position : Vector3) (tickObserved playerAvailable : Bool) : CallStage :=
  if ¬ (IsValidWorldCoordinate position.x ∧ IsValidWorldCoordinate position.y ∧
      IsValidWorldCoordinate position.z) then .returned .invalidCoordinate
  else if ¬ tickObserved then .returned .noTick
  else if ¬ playerAvailable then .returned .noPlayer
  else .readRequest

def World.acquire (w : World) (c : CallId) (call : Call) : World :=
  if call.previous > longMax - 2 ∨ w.requestId ≠ call.previous then
    w.setCall c { call with stage := .returned .lost }
  else
    { w.setCall c { call with stage := .writeX } with requestId := long (call.previous + 1) }

def World.publish (w : World) (c : CallId) (call : Call) : World :=
  let requestId := long (call.previous + 2)
  { w.setCall c { call with stage := .poll } with
    requestId, published := w.published ++ [⟨requestId, c, call.position⟩] }

def World.advance (w : World) (c : CallId) (call : Call) : Option World :=
  match call.stage with
  | .readRequest =>
    some (w.setCall c { call with
      previous := w.requestId
      stage := if w.requestId % 2 = 0 then .readCompleted else .returned .pending })
  | .readCompleted =>
    some (w.setCall c { call with
      stage := if call.previous = w.completedId then .acquire else .returned .pending })
  | .acquire => some (w.acquire c call)
  | .writeX =>
    some { w.setCall c { call with stage := .writeY } with
      teleport := { w.teleport with x := call.position.x } }
  | .writeY =>
    some { w.setCall c { call with stage := .writeZ } with
      teleport := { w.teleport with y := call.position.y } }
  | .writeZ =>
    some { w.setCall c { call with stage := .publish } with
      teleport := { w.teleport with z := call.position.z } }
  | .publish => some (w.publish c call)
  | .readResult =>
    some (w.setCall c { call with
      stage := .returned (if w.succeeded = 1 then .completed else .setPositionFailed) })
  | _ => none

/-- One turn of the wait; `expired` is its timer. -/
def World.poll (w : World) (call : Call) (expired : Bool) : CallStage :=
  if w.completedId = long (call.previous + 2) then .readResult
  else if expired then .returned .timedOut
  else .poll

def World.setPosition (w : World) (game : Game) : World :=
  if ValidTeleport game.requested then
    { w.setGame { game with stage := .publishPosition } with
      executed := w.executed ++ [⟨game.requestId, game.requested⟩] }
  else w.setGame { game with stage := .storeSucceeded }

def World.process (w : World) (game : Game) : Option World :=
  match game.stage with
  | .readRequest =>
    some (w.setGame { game with
      requestId := w.requestId
      stage := if w.requestId = 0 ∨ w.requestId % 2 ≠ 0 then .idle else .readCompleted })
  | .readCompleted =>
    some (w.setGame { game with
      stage := if game.requestId = w.completedId then .idle else .copyX })
  | .copyX =>
    some (w.setGame { game with
      requested := { game.requested with x := w.teleport.x }, stage := .copyY })
  | .copyY =>
    some (w.setGame { game with
      requested := { game.requested with y := w.teleport.y }, stage := .copyZ })
  | .copyZ =>
    some (w.setGame { game with
      requested := { game.requested with z := w.teleport.z }, stage := .recheck })
  | .recheck =>
    some (w.setGame { game with
      succeeded := 0
      stage := if game.requestId ≠ w.requestId then .idle else .setPosition })
  | .setPosition => some (w.setPosition game)
  | .storeSucceeded =>
    some { w.setGame { game with stage := .storeCompleted } with succeeded := game.succeeded }
  | .storeCompleted =>
    some { w.setGame { game with stage := .idle } with
      completedId := game.requestId
      processed := w.processed ++ [⟨game.requestId, game.succeeded⟩] }
  | _ => none

/- `advance` and `process` make the next read or write of a call and of the game thread.
   A party that stops is one that takes no more steps. -/
inductive Act where
  | call (c : CallId) (position : Vector3) (tickObserved playerAvailable : Bool)
  | advance (c : CallId)
  | poll (c : CallId) (expired : Bool)
  | tick (ready : Bool)
  | process
  | publishPosition (result : Option Vector3)

def World.step (w : World) : Act → Option World
  | .call c position tickObserved playerAvailable =>
    if (w.calls c).stage = .notCalled then
      some (w.setCall c
        ⟨queueTeleport position tickObserved playerAvailable, position, (w.calls c).previous⟩)
    else none
  | .advance c => w.advance c (w.calls c)
  | .poll c expired =>
    if (w.calls c).stage = .poll then
      some (w.setCall c { w.calls c with stage := w.poll (w.calls c) expired })
    else none
  | .tick ready =>
    if w.game.stage = .idle then
      some (w.setGame { w.game with stage := if ready then .readRequest else .idle })
    else none
  | .process => w.process w.game
  | .publishPosition result =>
    if w.game.stage = .publishPosition then
      some (w.setGame { w.game with
        succeeded := if arrived (publishPosition result) w.game.requested then 1 else 0
        stage := .storeSucceeded })
    else none

/-- The mapping is fresh: all ids are zero, whatever else it holds. -/
def Starting (w : World) : Prop :=
  w.requestId = 0 ∧ w.completedId = 0 ∧ (∀ c, (w.calls c).stage = .notCalled) ∧
    w.game.stage = .idle ∧ w.published = [] ∧ w.executed = [] ∧ w.processed = []

def mailbox : Machine World Act where
  init := Starting
  step := World.step

end TeleportMailbox
