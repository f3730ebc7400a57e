import GameSecurity.RadarFloors
import Mathlib.Data.List.Forall2

/- Where the native overlay and the web radar place the bomb: bombPosition of
   local_fixed_radar.cpp and resolveBombPosition of RadarMap.tsx. -/
namespace BombMarker
open FixedMapRadar (WorldPosition)
open WebRadarFloor (Vector3)
open RadarFloors (wirePosition tally tally_injective)

namespace Native

structure PlayerSnapshot where
  id : Nat
  position : Option WorldPosition
  hasBomb : Bool
  deriving DecidableEq, Repr

structure BombSnapshot where
  position : Option WorldPosition
  carrierPlayerId : Option Nat
  deriving DecidableEq, Repr

structure GameSnapshot where
  players : List PlayerSnapshot
  bomb : BombSnapshot
  deriving DecidableEq, Repr

def carrier (snapshot : GameSnapshot) (id : Nat) : Option PlayerSnapshot :=
  snapshot.players.find? fun player => player.id = id

def marked (snapshot : GameSnapshot) : Option PlayerSnapshot :=
  snapshot.players.find? fun player => player.hasBomb

def bombPosition (snapshot : GameSnapshot) : Option WorldPosition :=
  match snapshot.bomb.position with
  | some position => some position
  | none =>
    match snapshot.bomb.carrierPlayerId.bind (carrier snapshot) with
    | some player => player.position
    | none => (marked snapshot).bind fun player => player.position

end Native

namespace Web

/-- A property of a JavaScript object, or what reading a missing one gives. -/
inductive Property (α : Type) where
  | undefined
  | null
  | value (a : α)
  deriving DecidableEq, Repr

def Property.toOption {α : Type} : Property α → Option α
  | .value a => some a
  | _ => none

/-- The operator `??`. -/
def Property.coalesce {α : Type} (property other : Property α) : Property α :=
  match property with
  | .value a => .value a
  | _ => other

structure PlayerSnapshot where
  id : String
  position : Property Vector3
  hasBomb : Property Bool
  deriving DecidableEq, Repr

structure BombSnapshot where
  position : Property Vector3
  carrierPlayerId : Property String
  carrierId : Property String
  deriving DecidableEq, Repr

def positionOf (player : Option PlayerSnapshot) : Property Vector3 :=
  match player with
  | none => .undefined
  | some player => player.position

def resolveBombPosition (bomb : BombSnapshot) (players : List PlayerSnapshot) : Property Vector3 :=
  match bomb.position with
  | .value position => .value position
  | _ =>
    match bomb.carrierPlayerId.coalesce bomb.carrierId with
    | .value carrierId =>
      -- an empty id is falsy and counts as none
      if carrierId ≠ "" then positionOf (players.find? fun player => player.id = carrierId)
      else positionOf (players.find? fun player => player.hasBomb = .value true)
    | _ => positionOf (players.find? fun player => player.hasBomb = .value true)

end Web

/-- An optional value reaches the web radar as a value, or as null or a missing property. -/
def Sent {α β : Type} (encode : α → β) (native : Option α) (web : Web.Property β) : Prop :=
  web.toOption = native.map encode

structure SentPlayer (wireId : Nat → String) (native : Native.PlayerSnapshot)
    (web : Web.PlayerSnapshot) : Prop where
  id : web.id = wireId native.id
  position : Sent wirePosition native.position web.position
  hasBomb : web.hasBomb = .value true ↔ native.hasBomb = true

/-- A snapshot as the web radar has it, without the legacy carrierId. -/
structure SentSnapshot (wireId : Nat → String) (snapshot : Native.GameSnapshot)
    (bomb : Web.BombSnapshot) (players : List Web.PlayerSnapshot) : Prop where
  position : Sent wirePosition snapshot.bomb.position bomb.position
  carrierPlayerId : Sent wireId snapshot.bomb.carrierPlayerId bomb.carrierPlayerId
  carrierId : bomb.carrierId.toOption = none
  players : List.Forall₂ (SentPlayer wireId) snapshot.players players

theorem wirePosition_injective : Function.Injective wirePosition := by
  intro a b same
  simp only [wirePosition, Vector3.mk.injEq] at same
  obtain ⟨x, y, z⟩ := same
  cases a
  cases b
  subst x y z
  rfl

variable {wireId : Nat → String} {snapshot : Native.GameSnapshot} {bomb : Web.BombSnapshot}
  {players : List Web.PlayerSnapshot}

theorem find_sent {natives : List Native.PlayerSnapshot} {webs : List Web.PlayerSnapshot}
    {wanted : Native.PlayerSnapshot → Bool} {sought : Web.PlayerSnapshot → Bool}
    (same : ∀ native web, SentPlayer wireId native web → wanted native = sought web)
    (sent : List.Forall₂ (SentPlayer wireId) natives webs) :
    Option.Rel (SentPlayer wireId) (natives.find? wanted) (webs.find? sought) := by
  induction sent with
  | nil => exact .none
  | @cons native web natives webs here later ih =>
    rw [List.find?_cons, List.find?_cons, same native web here]
    cases sought web with
    | true => exact .some here
    | false => exact ih

theorem positionOf_sent {native : Option Native.PlayerSnapshot} {web : Option Web.PlayerSnapshot}
    (sent : Option.Rel (SentPlayer wireId) native web) :
    Sent wirePosition (native.bind fun player => player.position) (Web.positionOf web) := by
  cases sent with
  | none => rfl
  | some here => exact here.position

theorem SentSnapshot.carried (sent : SentSnapshot wireId snapshot bomb players)
    (injective : Function.Injective wireId) (id : Nat) :
    Sent wirePosition ((Native.carrier snapshot id).bind fun player => player.position)
      (Web.positionOf (players.find? fun player => player.id = wireId id)) := by
  apply positionOf_sent
  refine find_sent ?_ sent.players
  intro native web here
  rw [here.id]
  exact decide_eq_decide.mpr injective.eq_iff.symm

theorem SentSnapshot.marked (sent : SentSnapshot wireId snapshot bomb players) :
    Sent wirePosition ((Native.marked snapshot).bind fun player => player.position)
      (Web.positionOf (players.find? fun player => player.hasBomb = .value true)) := by
  apply positionOf_sent
  refine find_sent ?_ sent.players
  intro native web here
  rw [Bool.eq_iff_iff, decide_eq_true_eq]
  exact here.hasBomb.symm

theorem Web.Property.toOption_some {α : Type} {property : Web.Property α} {a : α}
    (here : property.toOption = some a) : property = .value a := by
  cases property with
  | undefined => cases here
  | null => cases here
  | value b =>
    cases here
    rfl

theorem Web.Property.toOption_none {α : Type} {property : Web.Property α}
    (here : property.toOption = none) : property = .undefined ∨ property = .null := by
  cases property with
  | undefined => exact Or.inl rfl
  | null => exact Or.inr rfl
  | value b => cases here

theorem Web.Property.coalesce_none {α : Type} {property other : Web.Property α}
    (here : property.toOption = none) : property.coalesce other = other := by
  rcases Web.Property.toOption_none here with missing | null_
  · rw [missing]
    rfl
  · rw [null_]
    rfl

namespace Web

theorem resolveBombPosition_named {id : String} (unplaced : bomb.position.toOption = none)
    (named : bomb.carrierPlayerId = .value id) :
    resolveBombPosition bomb players =
      if id ≠ "" then positionOf (players.find? fun player => player.id = id)
      else positionOf (players.find? fun player => player.hasBomb = .value true) := by
  unfold resolveBombPosition
  rw [named, Property.coalesce]
  rcases Property.toOption_none unplaced with missing | null_
  · rw [missing]
  · rw [null_]

theorem resolveBombPosition_unnamed (unplaced : bomb.position.toOption = none)
    (unnamed : bomb.carrierPlayerId.toOption = none) (legacy : bomb.carrierId.toOption = none) :
    resolveBombPosition bomb players =
      positionOf (players.find? fun player => player.hasBomb = .value true) := by
  unfold resolveBombPosition
  rw [Property.coalesce_none unnamed]
  rcases Property.toOption_none unplaced with missing | null_ <;>
    rcases Property.toOption_none legacy with missing' | null'
  · rw [missing, missing']
  · rw [missing, null']
  · rw [null_, missing']
  · rw [null_, null']

end Web

def resolved (wireId : Nat → String) (snapshot : Native.GameSnapshot) : Option WorldPosition :=
  match snapshot.bomb.position, snapshot.bomb.carrierPlayerId with
  | some position, _ => some position
  | none, some id =>
    if wireId id ≠ "" then (Native.carrier snapshot id).bind fun player => player.position
    else (Native.marked snapshot).bind fun player => player.position
  | none, none => (Native.marked snapshot).bind fun player => player.position

theorem resolveBombPosition_sent (injective : Function.Injective wireId)
    (sent : SentSnapshot wireId snapshot bomb players) :
    Sent wirePosition (resolved wireId snapshot) (Web.resolveBombPosition bomb players) := by
  have placed := sent.position
  have named := sent.carrierPlayerId
  unfold Sent at placed named
  unfold resolved
  cases position_ : snapshot.bomb.position with
  | some position =>
    rw [position_] at placed
    rw [Web.resolveBombPosition, Web.Property.toOption_some placed]
    rfl
  | none =>
    rw [position_] at placed
    cases id_ : snapshot.bomb.carrierPlayerId with
    | some id =>
      rw [id_] at named
      simp only
      rw [Web.resolveBombPosition_named placed (Web.Property.toOption_some named)]
      by_cases filled : wireId id ≠ ""
      · rw [if_pos filled, if_pos filled]
        exact sent.carried injective id
      · rw [if_neg filled, if_neg filled]
        exact sent.marked
    | none =>
      rw [id_] at named
      simp only
      rw [Web.resolveBombPosition_unnamed placed named sent.carrierId]
      exact sent.marked

/-- The carrier is in the player list, or no marked player would be taken for it. A carrier with
    an empty id is where the first marked player is. -/
def Agreeing (wireId : Nat → String) (snapshot : Native.GameSnapshot) : Prop :=
  snapshot.bomb.position = none → ∀ id, snapshot.bomb.carrierPlayerId = some id →
    if wireId id ≠ "" then
      Native.carrier snapshot id ≠ none ∨
        (Native.marked snapshot).bind (fun player => player.position) = none
    else
      ∀ player, Native.carrier snapshot id = some player →
        player.position = (Native.marked snapshot).bind fun player => player.position

theorem resolved_eq_iff :
    resolved wireId snapshot = Native.bombPosition snapshot ↔ Agreeing wireId snapshot := by
  unfold resolved Native.bombPosition Agreeing
  cases position_ : snapshot.bomb.position with
  | some position => simp
  | none =>
    cases id_ : snapshot.bomb.carrierPlayerId with
    | none => simp
    | some id =>
      generalize (Native.marked snapshot).bind (fun player => player.position) = mark
      by_cases empty : wireId id = ""
      · cases found : Native.carrier snapshot id with
        | none => simp [empty, found]
        | some player => simp [empty, found, eq_comm (a := mark)]
      · cases found : Native.carrier snapshot id with
        | none => simp [empty, found, eq_comm (a := none)]
        | some player => simp [empty, found]

/-- Both clients place the marker at one point exactly when the list of players has the carrier
    wherever a marked player could stand in for it. -/
theorem bombPosition_agrees_iff (injective : Function.Injective wireId)
    (sent : SentSnapshot wireId snapshot bomb players) :
    (Web.resolveBombPosition bomb players).toOption =
      (Native.bombPosition snapshot).map wirePosition ↔ Agreeing wireId snapshot := by
  rw [← resolved_eq_iff, resolveBombPosition_sent injective sent]
  exact (Option.map_injective wirePosition_injective).eq_iff

def twoPlayers (carrier : Nat) : Native.GameSnapshot where
  players := [⟨1, some ⟨some 10, some 20, some 0⟩, false⟩,
    ⟨2, some ⟨some 30, some 40, some 0⟩, true⟩]
  bomb := ⟨none, some carrier⟩

def webPlayers : List Web.PlayerSnapshot :=
  [⟨tally 1, .value ⟨some 10, some 20, some 0⟩, .undefined⟩,
    ⟨tally 2, .value ⟨some 30, some 40, some 0⟩, .value true⟩]

def webBomb (carrier : Nat) : Web.BombSnapshot := ⟨.null, .value (tally carrier), .undefined⟩

theorem twoPlayers_sent (carrier : Nat) :
    SentSnapshot tally (twoPlayers carrier) (webBomb carrier) webPlayers where
  position := rfl
  carrierPlayerId := rfl
  carrierId := rfl
  players := by
    refine .cons ⟨rfl, rfl, ?_⟩ (.cons ⟨rfl, rfl, ?_⟩ .nil)
    · decide
    · decide

/-- With the carrier in the list, both markers are at the carrier and not at the marked player. -/
theorem bombPosition_agrees_first :
    (Web.resolveBombPosition (webBomb 1) webPlayers).toOption =
      (Native.bombPosition (twoPlayers 1)).map wirePosition := by
  refine (bombPosition_agrees_iff tally_injective (twoPlayers_sent 1)).mpr ?_
  intro _ id named
  cases named
  rw [if_pos (by decide)]
  exact Or.inl (by decide)

/-- A carrier who is not in the list: the overlay falls back to the marked player, the web radar
    shows nothing. -/
theorem bombPosition_lost_carrier :
    ((twoPlayers 9).players.map (·.id)).Nodup ∧ Function.Injective tally ∧
      SentSnapshot tally (twoPlayers 9) (webBomb 9) webPlayers ∧
      Native.bombPosition (twoPlayers 9) = some ⟨some 30, some 40, some 0⟩ ∧
      (Web.resolveBombPosition (webBomb 9) webPlayers).toOption = none ∧
      (Web.resolveBombPosition (webBomb 9) webPlayers).toOption ≠
        (Native.bombPosition (twoPlayers 9)).map wirePosition := by
  refine ⟨by decide, tally_injective, twoPlayers_sent 9, rfl, ?_, ?_⟩
  · decide
  · decide

end BombMarker
