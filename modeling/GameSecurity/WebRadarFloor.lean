import Mathlib.Data.Rat.Defs
import Mathlib.Algebra.Order.Ring.Rat

/- The web radar's choice of a floor: coordinates.ts and the floor of RadarMap.tsx, in exact
   arithmetic. -/
namespace WebRadarFloor

/-- A number; none is NaN or an infinity. -/
abbrev Number := Option ℚ

structure Vector3 where
  x : Number
  y : Number
  z : Number
  deriving DecidableEq, Repr

inductive Team where
  | T
  | CT
  | SPEC
  | NONE
  deriving DecidableEq, Repr

structure FloorReferencePlayer where
  id : String
  team : Team
  alive : Bool
  position : Option Vector3
  deriving DecidableEq, Repr

structure MapLevelDefinition where
  id : String
  image : String
  minZ : ℚ
  maxZ : ℚ
  deriving DecidableEq, Repr

/-- The properties of RadarMap the floor depends on; the levels are none where the map is not
   in the manifest. -/
structure RadarMapProps where
  mapId : String
  levels : Option (List MapLevelDefinition)
  players : List FloorReferencePlayer
  localPlayerId : Option String
  observedPlayerId : Option String
  localTeam : Option Team
  deriving DecidableEq, Repr

def contains (z : ℚ) (level : MapLevelDefinition) : Bool := z ≥ level.minZ ∧ z < level.maxZ

def distance (z : ℚ) (level : MapLevelDefinition) : ℚ :=
  if z < level.minZ then level.minZ - z else z - level.maxZ

def nearer (z : ℚ) (nearest : Option MapLevelDefinition) (level : MapLevelDefinition) :
    Option MapLevelDefinition :=
  match nearest with
  | none => some level
  | some nearest => if distance z level < distance z nearest then some level else some nearest

def selectMapLevel (levels : List MapLevelDefinition) (z : Number) : Option MapLevelDefinition :=
  match z with
  | none => none
  | some z =>
    if levels = [] then none
    else
      let valid := levels.filter fun level => level.minZ < level.maxZ
      match valid.find? (contains z) with
      | some containing => some containing
      | none => valid.foldl (nearer z) none

structure StableMapLevelSelection where
  level : Option MapLevelDefinition
  confidence : ℚ
  retained : Bool
  deriving DecidableEq, Repr

def defaultHysteresis : ℚ := 24

/-- An empty id counts as none. -/
def findPrevious (levels : List MapLevelDefinition) (previousLevelId : Option String) :
    Option MapLevelDefinition :=
  match previousLevelId with
  | none => none
  | some id => if id = "" then none else levels.find? fun level => level.id = id

def selectStableMapLevel (levels : List MapLevelDefinition) (z : Number)
    (previousLevelId : Option String) (hysteresis : ℚ) : StableMapLevelSelection :=
  match selectMapLevel levels z, z with
  | some selected, some z =>
    if levels = [] ∨ hysteresis ≤ 0 then ⟨some selected, 0, false⟩
    else
      let previous := findPrevious levels previousLevelId
      let retainPrevious := previous.any fun previous => previous.id ≠ selected.id ∧
        z ≥ previous.minZ - hysteresis ∧ z < previous.maxZ + hysteresis
      let level := if retainPrevious then previous.getD selected else selected
      let boundaryDistance := min |z - level.minZ| |level.maxZ - z|
      ⟨some level, min 1 (max 0 (boundaryDistance / hysteresis)), retainPrevious⟩
  | selected, _ => ⟨selected, 0, false⟩

def validZ (player : FloorReferencePlayer) : Option ℚ :=
  match player.position with
  | none => none
  | some position =>
    if position.x.isSome ∧ position.y.isSome ∧ position.z.isSome then position.z else none

def isPlayingTeam (team : Option Team) : Bool := team = some .T ∨ team = some .CT

/-- The height of a player who is alive. -/
def livingZ (player : FloorReferencePlayer) : Option ℚ :=
  if player.alive then validZ player else none

def referenceTeam (localPlayer : Option FloorReferencePlayer) (localTeam : Option Team) :
    Option Team :=
  if isPlayingTeam (localPlayer.map (·.team)) then localPlayer.map (·.team)
  else if isPlayingTeam localTeam then localTeam
  else none

def selectReferenceZ (players : List FloorReferencePlayer) (localPlayerId : Option String)
    (observedPlayerId : Option String) (localTeam : Option Team) : Option ℚ :=
  let localPlayer := players.find? fun player => some player.id = localPlayerId
  let observedPlayer := players.find? fun player => some player.id = observedPlayerId
  localPlayer.bind livingZ <|> observedPlayer.bind livingZ <|>
    ((referenceTeam localPlayer localTeam).bind fun team =>
      players.findSome? fun player =>
        if ¬ player.alive ∨ player.team ≠ team then none else validZ player) <|>
    (players.findSome? fun player => if ¬ player.alive then none else validZ player) <|>
    localPlayer.bind validZ <|> players.findSome? validZ

/-- The reference selectedFloor with the dependencies of the effect that writes it. -/
structure SelectedFloor where
  mapId : String
  levelId : Option String
  effect : Option (Option String × String)
  deriving DecidableEq, Repr

structure Floor where
  referenceZ : Option ℚ
  level : Option MapLevelDefinition
  deriving DecidableEq, Repr

def selectFloor (props : RadarMapProps) (selectedFloor : SelectedFloor) : Floor :=
  let referenceZ := selectReferenceZ props.players props.localPlayerId props.observedPlayerId
    props.localTeam
  match props.levels, referenceZ with
  | some levels, some z =>
    let previous := if selectedFloor.mapId = props.mapId then selectedFloor.levelId else none
    ⟨referenceZ, (selectStableMapLevel levels (some z) previous defaultHysteresis).level⟩
  | _, _ => ⟨referenceZ, none⟩

/-- The effect runs after a render whose dependencies differ from those of the last one. -/
def commit (mapId : String) (level : Option MapLevelDefinition) (selectedFloor : SelectedFloor) :
    SelectedFloor :=
  let deps := (level.map (·.id), mapId)
  if selectedFloor.effect = some deps then selectedFloor
  else ⟨mapId, level.map (·.id), some deps⟩

/-- One render and its commit; none: the component is not mounted yet. -/
def render (selectedFloor : Option SelectedFloor) (props : RadarMapProps) :
    Option SelectedFloor × Floor :=
  let selectedFloor := selectedFloor.getD ⟨props.mapId, none, none⟩
  let floor := selectFloor props selectedFloor
  (some (commit props.mapId floor.level selectedFloor), floor)

/-- What the effect has written is what it has last depended on. -/
def Committed (selectedFloor : SelectedFloor) : Prop :=
  ∀ deps ∈ selectedFloor.effect, deps = (selectedFloor.levelId, selectedFloor.mapId)

theorem commit_eq {mapId : String} {level : Option MapLevelDefinition}
    {selectedFloor : SelectedFloor} (committed : Committed selectedFloor) :
    commit mapId level selectedFloor =
      ⟨mapId, level.map (·.id), some (level.map (·.id), mapId)⟩ := by
  unfold commit
  simp only
  split
  · rename_i same
    obtain ⟨ids, maps⟩ := Prod.mk.inj (committed _ same)
    obtain ⟨oldMap, oldLevel, effect⟩ := selectedFloor
    simp only at ids maps same
    rw [ids, maps, same, ids, maps]
  · rfl

theorem selectStableMapLevel_fresh {levels : List MapLevelDefinition} {z : Number}
    {hysteresis : ℚ} {previousLevelId : Option String}
    (fresh : hysteresis ≤ 0 ∨ selectMapLevel levels z = none ∨
      findPrevious levels previousLevelId = none) :
    (selectStableMapLevel levels z previousLevelId hysteresis).level =
      selectMapLevel levels z := by
  unfold selectStableMapLevel
  split
  · rename_i selected z chosen
    split
    · exact chosen.symm
    · rename_i wide
      rcases fresh with off | absent | new
      · exact absurd (Or.inr off) wide
      · rw [chosen] at absent
        cases absent
      · rw [new, chosen]
        rfl
  · rfl

theorem selectStableMapLevel_previous {levels : List MapLevelDefinition} {z hysteresis : ℚ}
    {previousLevelId : Option String} {selected previous : MapLevelDefinition}
    (chosen : selectMapLevel levels (some z) = some selected)
    (found : findPrevious levels previousLevelId = some previous) (wide : ¬ hysteresis ≤ 0) :
    (selectStableMapLevel levels (some z) previousLevelId hysteresis).level =
      if previous.id ≠ selected.id ∧ z ≥ previous.minZ - hysteresis ∧
        z < previous.maxZ + hysteresis then some previous else some selected := by
  have some_level : levels ≠ [] := by
    rintro rfl
    cases chosen
  simp only [selectStableMapLevel, chosen, found, some_level, wide, or_self, if_false,
    Option.any_some, Option.getD_some, decide_eq_true_eq]
  split <;> rfl

end WebRadarFloor
