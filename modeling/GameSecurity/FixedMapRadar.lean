import Mathlib.Data.Rat.Defs
import Mathlib.Algebra.Order.Ring.Rat

/- fixed_map_radar and the floor of local_fixed_radar::render, in exact arithmetic. -/
namespace FixedMapRadar

/-- A float; none is a NaN or an infinity. -/
abbrev Number := Option ℚ

structure WorldPosition where
  x : Number
  y : Number
  z : Number
  deriving DecidableEq, Repr

inductive Team where
  | unknown
  | spectator
  | terrorists
  | counterTerrorists
  deriving DecidableEq, Repr

structure PlayerSnapshot where
  id : Nat
  team : Team
  alive : Bool
  position : Option WorldPosition
  deriving DecidableEq, Repr

structure GameSnapshot where
  mapId : String
  connected : Bool
  localPlayerId : Option Nat
  observedPlayerId : Option Nat
  localTeam : Team
  players : List PlayerSnapshot
  deriving DecidableEq, Repr

/-- A level of the catalogue; its generator refuses bounds that are not finite. -/
structure MapLevel where
  id : String
  imagePath : String
  minimumZ : ℚ
  maximumZ : ℚ
  deriving DecidableEq, Repr

/-- The levels of one map as the generator accepts them. -/
structure Levels where
  levels : List MapLevel
  distinct : (levels.map MapLevel.id).Nodup
  named : ∀ level ∈ levels, level.id ≠ ""
  ordered : ∀ level ∈ levels, level.minimumZ < level.maximumZ

structure Catalog where
  find : String → Option Levels
  named : find "" = none

def isFinite (position : WorldPosition) : Bool :=
  position.x.isSome && position.y.isSome && position.z.isSome

def isValid (level : MapLevel) : Bool := level.minimumZ < level.maximumZ

def validZ (player : PlayerSnapshot) : Option ℚ :=
  match player.position with
  | none => none
  | some position => if ¬ isFinite position then none else position.z

def findPlayer (snapshot : GameSnapshot) (id : Option Nat) : Option PlayerSnapshot :=
  match id with
  | none => none
  | some id => snapshot.players.find? fun candidate => candidate.id = id

def isPlaying (team : Team) : Bool := team = .terrorists ∨ team = .counterTerrorists

def livingZ (player : PlayerSnapshot) : Option ℚ := if player.alive then validZ player else none

def referenceTeam (snapshot : GameSnapshot) : Team :=
  match findPlayer snapshot snapshot.localPlayerId with
  | some localPlayer => if isPlaying localPlayer.team then localPlayer.team else snapshot.localTeam
  | none => snapshot.localTeam

def selectReferenceZ (snapshot : GameSnapshot) : Option ℚ :=
  let localPlayer := findPlayer snapshot snapshot.localPlayerId
  let observedPlayer := findPlayer snapshot snapshot.observedPlayerId
  localPlayer.bind livingZ <|> observedPlayer.bind livingZ <|>
    (if isPlaying (referenceTeam snapshot) then
      snapshot.players.findSome? fun player =>
        if player.alive ∧ player.team = referenceTeam snapshot then validZ player else none
    else none) <|>
    snapshot.players.findSome? livingZ <|> localPlayer.bind validZ <|>
    snapshot.players.findSome? validZ

def distance (level : MapLevel) (z : ℚ) : ℚ :=
  if z < level.minimumZ then level.minimumZ - z else z - level.maximumZ

/-- The loop of selectLevel; no nearest level yet is an infinite distance. -/
def selectLevelFrom (z : ℚ) (index : Nat) (nearest : Option (Nat × ℚ)) :
    List MapLevel → Option Nat
  | [] => nearest.map Prod.fst
  | level :: rest =>
    if ¬ isValid level then selectLevelFrom z (index + 1) nearest rest
    else if z ≥ level.minimumZ ∧ z < level.maximumZ then some index
    else
      match nearest with
      | none => selectLevelFrom z (index + 1) (some (index, distance level z)) rest
      | some (nearestIndex, nearestDistance) =>
        if distance level z < nearestDistance then
          selectLevelFrom z (index + 1) (some (index, distance level z)) rest
        else selectLevelFrom z (index + 1) (some (nearestIndex, nearestDistance)) rest

def selectLevel (levels : List MapLevel) (z : Number) : Option Nat :=
  match z with
  | none => none
  | some z => if levels = [] then none else selectLevelFrom z 0 none levels

def defaultHysteresis : ℚ := 24

def selectLevelWithHysteresis (levels : List MapLevel) (z : Number) (previousLevel : Option Nat)
    (hysteresis : ℚ) : Option Nat :=
  let selected := selectLevel levels z
  match z, selected, previousLevel with
  | some z, some index, some previousIndex =>
    if index = previousIndex ∨ hysteresis ≤ 0 then selected
    else
      match levels[previousIndex]? with
      | none => selected
      | some previous =>
        if ¬ isValid previous then selected
        else if z ≥ previous.minimumZ - hysteresis ∧ z < previous.maximumZ + hysteresis then
          previousLevel
        else selected
  | _, _, _ => selected

structure Memory where
  selectedLevelMapId : String := ""
  selectedLevelIndex : Option Nat := none
  deriving DecidableEq, Repr

structure Floor where
  referenceZ : Option ℚ
  levelIndex : Option Nat
  deriving DecidableEq, Repr

/-- local_fixed_radar::render up to the choice of the floor; none: a message is drawn. -/
def render (catalog : Catalog) (memory : Memory) (snapshot : GameSnapshot) :
    Memory × Option Floor :=
  if ¬ snapshot.connected ∨ snapshot.mapId = "" then (memory, none)
  else
    match catalog.find snapshot.mapId with
    | none => (memory, none)
    | some map =>
      let referenceZ := selectReferenceZ snapshot
      let memory : Memory :=
        if memory.selectedLevelMapId ≠ snapshot.mapId then ⟨snapshot.mapId, none⟩ else memory
      let levelIndex := match referenceZ with
        | some z => selectLevelWithHysteresis map.levels (some z) memory.selectedLevelIndex
            defaultHysteresis
        | none => none
      ({ memory with selectedLevelIndex := levelIndex }, some ⟨referenceZ, levelIndex⟩)

/-- The index a level is looked for from: the one before, of the same map. -/
def Memory.previous (memory : Memory) (mapId : String) : Option Nat :=
  if memory.selectedLevelMapId ≠ mapId then none else memory.selectedLevelIndex

theorem render_shown {catalog : Catalog} {memory : Memory} {snapshot : GameSnapshot} {map : Levels}
    (connected : snapshot.connected = true) (found : catalog.find snapshot.mapId = some map) :
    let levelIndex := (selectReferenceZ snapshot).bind fun z =>
      selectLevelWithHysteresis map.levels (some z) (memory.previous snapshot.mapId)
        defaultHysteresis
    render catalog memory snapshot =
      (⟨snapshot.mapId, levelIndex⟩, some ⟨selectReferenceZ snapshot, levelIndex⟩) := by
  have named : snapshot.mapId ≠ "" := by
    intro empty
    rw [empty, catalog.named] at found
    cases found
  intro levelIndex
  rw [render, if_neg (by simp [connected, named]), found]
  simp only [levelIndex, Memory.previous]
  by_cases same : memory.selectedLevelMapId ≠ snapshot.mapId
  · simp only [if_pos same]
    cases selectReferenceZ snapshot <;> rfl
  · simp only [if_neg same]
    rw [not_not] at same
    rw [← same]
    cases selectReferenceZ snapshot <;> rfl

theorem selectLevelFrom_lt {z : ℚ} {index i : Nat} {nearest : Option (Nat × ℚ)}
    {rest : List MapLevel} (bound : ∀ n ∈ nearest, n.1 < index)
    (chosen : selectLevelFrom z index nearest rest = some i) : i < index + rest.length := by
  fun_induction selectLevelFrom z index nearest rest with
  | case1 index nearest =>
    obtain ⟨n, here, rfl⟩ := Option.map_eq_some_iff.mp chosen
    exact bound n here
  | case2 index nearest level rest invalid ih =>
    have later := ih (fun n here => Nat.lt_succ_of_lt (bound n here)) chosen
    rw [List.length_cons]
    omega
  | case3 index nearest level rest valid contains =>
    cases chosen
    rw [List.length_cons]
    omega
  | case4 index level rest valid outside ih =>
    have later := ih (by simp) chosen
    rw [List.length_cons]
    omega
  | case5 index level rest valid outside nearestIndex nearestDistance closer ih =>
    have later := ih (by simp) chosen
    rw [List.length_cons]
    omega
  | case6 index level rest valid outside nearestIndex nearestDistance farther ih =>
    have later := ih (fun n here => Nat.lt_succ_of_lt (bound n here)) chosen
    rw [List.length_cons]
    omega

theorem selectLevel_lt {levels : List MapLevel} {z : Number} {i : Nat}
    (chosen : selectLevel levels z = some i) : i < levels.length := by
  unfold selectLevel at chosen
  split at chosen
  · cases chosen
  · split at chosen
    · cases chosen
    · have bound := selectLevelFrom_lt (by simp) chosen
      omega

theorem selectLevelWithHysteresis_fresh {levels : List MapLevel} {z : Number} {hysteresis : ℚ}
    {previousLevel : Option Nat}
    (fresh : hysteresis ≤ 0 ∨ selectLevel levels z = none ∨
      (previousLevel.bind fun i => levels[i]?) = none) :
    selectLevelWithHysteresis levels z previousLevel hysteresis = selectLevel levels z := by
  unfold selectLevelWithHysteresis
  simp only
  split
  · rename_i z index before selected
    split
    · rfl
    · rename_i wide
      rcases fresh with off | absent | new
      · exact absurd (Or.inr off) wide
      · rw [selected] at absent
        cases absent
      · rw [Option.bind_some] at new
        rw [new]
  · rfl

/-- A valid level before is kept while z stays in its widened band. -/
theorem selectLevelWithHysteresis_previous {levels : List MapLevel} {z hysteresis : ℚ}
    {index before : Nat} {previous : MapLevel}
    (selected : selectLevel levels (some z) = some index)
    (found : levels[before]? = some previous) (valid : isValid previous = true)
    (wide : ¬ hysteresis ≤ 0) :
    selectLevelWithHysteresis levels (some z) (some before) hysteresis =
      if index ≠ before ∧ z ≥ previous.minimumZ - hysteresis ∧
        z < previous.maximumZ + hysteresis then some before else some index := by
  simp only [selectLevelWithHysteresis, selected, found, valid, wide, or_false]
  by_cases still : index = before
  · simp [still]
  · simp [still]

theorem selectLevelWithHysteresis_lt {levels : List MapLevel} {z : Number}
    {previousLevel : Option Nat} {hysteresis : ℚ} {i : Nat}
    (chosen : selectLevelWithHysteresis levels z previousLevel hysteresis = some i) :
    i < levels.length := by
  unfold selectLevelWithHysteresis at chosen
  simp only at chosen
  split at chosen
  · rename_i z index previousIndex selected
    split at chosen
    · exact selectLevel_lt chosen
    · split at chosen
      · exact selectLevel_lt chosen
      · rename_i previous here
        split at chosen
        · exact selectLevel_lt chosen
        · split at chosen
          · cases chosen
            exact (List.getElem?_eq_some_iff.mp here).1
          · exact selectLevel_lt chosen
  · exact selectLevel_lt chosen

end FixedMapRadar
