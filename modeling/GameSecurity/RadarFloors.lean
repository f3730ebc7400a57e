import GameSecurity.FixedMapRadar
import GameSecurity.WebRadarFloor
import Mathlib.Data.List.Induction

/- The native overlay and the web radar show the same floor of a map. -/
namespace RadarFloors
open FixedMapRadar (Catalog GameSnapshot MapLevel PlayerSnapshot WorldPosition)
open WebRadarFloor (FloorReferencePlayer MapLevelDefinition RadarMapProps)

/-- How a snapshot and a level reach the web radar. -/
def wireTeam : FixedMapRadar.Team → WebRadarFloor.Team
  | .unknown => .NONE
  | .spectator => .SPEC
  | .terrorists => .T
  | .counterTerrorists => .CT

def wirePosition (position : WorldPosition) : WebRadarFloor.Vector3 :=
  ⟨position.x, position.y, position.z⟩

def wirePlayer (wireId : Nat → String) (player : PlayerSnapshot) : FloorReferencePlayer :=
  ⟨wireId player.id, wireTeam player.team, player.alive, player.position.map wirePosition⟩

def wireLevel (level : MapLevel) : MapLevelDefinition :=
  ⟨level.id, "/" ++ level.imagePath, level.minimumZ, level.maximumZ⟩

@[simp] theorem wireLevel_id (level : MapLevel) : (wireLevel level).id = level.id := rfl

@[simp] theorem wireLevel_minZ (level : MapLevel) : (wireLevel level).minZ = level.minimumZ := rfl

@[simp] theorem wireLevel_maxZ (level : MapLevel) : (wireLevel level).maxZ = level.maximumZ := rfl

def wireSnapshot (catalog : Catalog) (wireId : Nat → String) (snapshot : GameSnapshot) :
    RadarMapProps where
  mapId := snapshot.mapId
  levels := (catalog.find snapshot.mapId).map fun map => map.levels.map wireLevel
  players := snapshot.players.map (wirePlayer wireId)
  localPlayerId := snapshot.localPlayerId.map wireId
  observedPlayerId := snapshot.observedPlayerId.map wireId
  localTeam := some (wireTeam snapshot.localTeam)

theorem wireTeam_injective : Function.Injective wireTeam := by
  intro a b same
  cases a <;> cases b <;> first | rfl | cases same

theorem validZ_wire (wireId : Nat → String) (player : PlayerSnapshot) :
    WebRadarFloor.validZ (wirePlayer wireId player) = FixedMapRadar.validZ player := by
  unfold WebRadarFloor.validZ FixedMapRadar.validZ wirePlayer
  cases player.position with
  | none => rfl
  | some position =>
    simp only [Option.map_some, wirePosition, FixedMapRadar.isFinite, Bool.and_eq_true]
    grind

theorem livingZ_wire (wireId : Nat → String) (player : PlayerSnapshot) :
    WebRadarFloor.livingZ (wirePlayer wireId player) = FixedMapRadar.livingZ player := by
  unfold WebRadarFloor.livingZ FixedMapRadar.livingZ
  rw [validZ_wire]
  rfl

theorem find_wire {wireId : Nat → String} (injective : Function.Injective wireId)
    (snapshot : GameSnapshot) (id : Option Nat) :
    (snapshot.players.map (wirePlayer wireId)).find?
        (fun player => some player.id = id.map wireId) =
      (FixedMapRadar.findPlayer snapshot id).map (wirePlayer wireId) := by
  rw [List.find?_map]
  cases id with
  | none => simp [FixedMapRadar.findPlayer]
  | some id =>
    simp only [FixedMapRadar.findPlayer, wirePlayer, Option.map_some, Option.some.injEq,
      injective.eq_iff, Function.comp_def]

theorem bind_wire {α : Type} (wireId : Nat → String) (player : Option PlayerSnapshot)
    {web : FloorReferencePlayer → Option α} {native : PlayerSnapshot → Option α}
    (same : ∀ p, web (wirePlayer wireId p) = native p) :
    (player.map (wirePlayer wireId)).bind web = player.bind native := by
  cases player with
  | none => rfl
  | some p => exact same p

theorem findSome_wire {α : Type} (wireId : Nat → String) (players : List PlayerSnapshot)
    {web : FloorReferencePlayer → Option α} {native : PlayerSnapshot → Option α}
    (same : ∀ p, web (wirePlayer wireId p) = native p) :
    (players.map (wirePlayer wireId)).findSome? web = players.findSome? native := by
  induction players with
  | nil => rfl
  | cons p rest ih => simp only [List.map_cons, List.findSome?_cons, same, ih]

theorem isPlaying_wire (team : FixedMapRadar.Team) :
    WebRadarFloor.isPlayingTeam (some (wireTeam team)) = FixedMapRadar.isPlaying team := by
  cases team <;> rfl

/-- The web radar's reference team is the overlay's where that one is playing. -/
theorem referenceTeam_wire (wireId : Nat → String) (snapshot : GameSnapshot) :
    WebRadarFloor.referenceTeam
        ((FixedMapRadar.findPlayer snapshot snapshot.localPlayerId).map (wirePlayer wireId))
        (some (wireTeam snapshot.localTeam)) =
      if FixedMapRadar.isPlaying (FixedMapRadar.referenceTeam snapshot) then
        some (wireTeam (FixedMapRadar.referenceTeam snapshot))
      else none := by
  unfold WebRadarFloor.referenceTeam FixedMapRadar.referenceTeam
  cases FixedMapRadar.findPlayer snapshot snapshot.localPlayerId with
  | none =>
    rw [Option.map_none, Option.map_none, if_neg (by decide), isPlaying_wire]
  | some player =>
    rw [Option.map_some, Option.map_some, isPlaying_wire]
    simp only [wirePlayer, isPlaying_wire]
    by_cases playing : FixedMapRadar.isPlaying player.team = true
    · simp [playing]
    · simp [playing]

theorem teamZ_wire (wireId : Nat → String) (team : FixedMapRadar.Team) (player : PlayerSnapshot) :
    (if ¬ (wirePlayer wireId player).alive ∨ (wirePlayer wireId player).team ≠ wireTeam team then
      none else WebRadarFloor.validZ (wirePlayer wireId player)) =
      if player.alive ∧ player.team = team then FixedMapRadar.validZ player else none := by
  have teams : (wirePlayer wireId player).team = wireTeam team ↔ player.team = team :=
    wireTeam_injective.eq_iff
  have lives : (wirePlayer wireId player).alive = player.alive := rfl
  rw [validZ_wire, lives]
  by_cases alive : player.alive = true <;> by_cases same : player.team = team <;>
    simp [teams, alive, same]

/-- Both radars take the reference height from the same player. -/
theorem selectReferenceZ_wire {wireId : Nat → String} (injective : Function.Injective wireId)
    (snapshot : GameSnapshot) :
    WebRadarFloor.selectReferenceZ (snapshot.players.map (wirePlayer wireId))
        (snapshot.localPlayerId.map wireId) (snapshot.observedPlayerId.map wireId)
        (some (wireTeam snapshot.localTeam)) = FixedMapRadar.selectReferenceZ snapshot := by
  have living (player : PlayerSnapshot) :
      (if ¬ (wirePlayer wireId player).alive then none
        else WebRadarFloor.validZ (wirePlayer wireId player)) = FixedMapRadar.livingZ player := by
    rw [validZ_wire, ite_not]
    rfl
  unfold WebRadarFloor.selectReferenceZ FixedMapRadar.selectReferenceZ
  simp only
  rw [find_wire injective, find_wire injective, referenceTeam_wire,
    bind_wire wireId _ (livingZ_wire wireId), bind_wire wireId _ (livingZ_wire wireId),
    bind_wire wireId _ (validZ_wire wireId), findSome_wire wireId _ living,
    findSome_wire wireId _ (validZ_wire wireId)]
  by_cases playing : FixedMapRadar.isPlaying (FixedMapRadar.referenceTeam snapshot) = true
  · rw [if_pos playing, if_pos playing, Option.bind_some,
      findSome_wire wireId _ (teamZ_wire wireId _)]
  · rw [if_neg playing, if_neg playing, Option.bind_none]

/-- The nearest level so far, by index and distance in the overlay, is the web radar's. -/
def Matched (all : List MapLevel) (z : ℚ) (nearest : Option (Nat × ℚ))
    (web : Option MapLevelDefinition) : Prop :=
  nearest.map (fun n => (all[n.1]?.map wireLevel, n.2)) =
    web.map fun level => (some level, WebRadarFloor.distance z level)

def validLevels (levels : List MapLevel) : List MapLevelDefinition :=
  (levels.map wireLevel).filter fun level => level.minZ < level.maxZ

theorem validLevels_cons (level : MapLevel) (rest : List MapLevel) :
    validLevels (level :: rest) =
      if FixedMapRadar.isValid level then wireLevel level :: validLevels rest
      else validLevels rest := by
  unfold validLevels
  rw [List.map_cons, List.filter_cons]
  rfl

theorem drop_cons {all rest : List MapLevel} {level : MapLevel} {index : Nat}
    (here : all.drop index = level :: rest) :
    all[index]? = some level ∧ all.drop (index + 1) = rest := by
  constructor
  · rw [← List.head?_drop, here]
    rfl
  · rw [← List.drop_drop, here]
    rfl

theorem distance_wire (z : ℚ) (level : MapLevel) :
    WebRadarFloor.distance z (wireLevel level) = FixedMapRadar.distance level z := rfl

theorem contains_wire (z : ℚ) (level : MapLevel) :
    WebRadarFloor.contains z (wireLevel level) = true ↔
      z ≥ level.minimumZ ∧ z < level.maximumZ := by
  simp [WebRadarFloor.contains, wireLevel]

theorem matched_here {all : List MapLevel} {z : ℚ} {level : MapLevel} {index : Nat}
    (here : all[index]? = some level) :
    Matched all z (some (index, FixedMapRadar.distance level z)) (some (wireLevel level)) := by
  simp only [Matched, Option.map_some, here, distance_wire]

theorem matched_none {all : List MapLevel} {z : ℚ} {web : Option MapLevelDefinition}
    (matched : Matched all z none web) : web = none := by
  cases web with
  | none => rfl
  | some level => cases matched

theorem matched_some {all : List MapLevel} {z : ℚ} {i : Nat} {d : ℚ}
    {web : Option MapLevelDefinition} (matched : Matched all z (some (i, d)) web) :
    ∃ level, web = some level ∧ all[i]?.map wireLevel = some level ∧
      d = WebRadarFloor.distance z level := by
  cases web with
  | none => cases matched
  | some level =>
    obtain ⟨index, distance⟩ := Prod.mk.inj (Option.some.inj matched)
    exact ⟨level, rfl, index, distance⟩

/-- The overlay's loop finds what the web radar's find and reduce give. -/
theorem selectLevelFrom_wire {all : List MapLevel} {z : ℚ} {index : Nat}
    {nearest : Option (Nat × ℚ)} {rest : List MapLevel} {web : Option MapLevelDefinition}
    (here : all.drop index = rest) (matched : Matched all z nearest web) :
    (FixedMapRadar.selectLevelFrom z index nearest rest).bind (fun i => all[i]?.map wireLevel) =
      ((validLevels rest).find? (WebRadarFloor.contains z) <|>
        (validLevels rest).foldl (WebRadarFloor.nearer z) web) := by
  fun_induction FixedMapRadar.selectLevelFrom z index nearest rest generalizing web with
  | case1 index nearest =>
    cases nearest with
    | none =>
      rw [matched_none matched]
      rfl
    | some n =>
      obtain ⟨level, rfl, index, -⟩ := matched_some matched
      exact index
  | case2 index nearest level rest invalid ih =>
    rw [validLevels_cons, if_neg invalid]
    exact ih (drop_cons here).2 matched
  | case3 index nearest level rest valid contains =>
    rw [not_not] at valid
    rw [validLevels_cons, if_pos valid,
      List.find?_cons_of_pos ((contains_wire z level).mpr contains), Option.bind_some,
      (drop_cons here).1]
    rfl
  | case4 index level rest valid outside ih =>
    rw [not_not] at valid
    rw [validLevels_cons, if_pos valid, List.foldl_cons, matched_none matched,
      List.find?_cons_of_neg (fun inside => outside ((contains_wire z level).mp inside))]
    exact ih (drop_cons here).2 (matched_here (drop_cons here).1)
  | case5 index level rest valid outside nearestIndex nearestDistance closer ih =>
    rw [not_not] at valid
    obtain ⟨old, rfl, -, cached⟩ := matched_some matched
    have step : WebRadarFloor.nearer z (some old) (wireLevel level) = some (wireLevel level) := by
      rw [WebRadarFloor.nearer, distance_wire, ← cached, if_pos closer]
    rw [validLevels_cons, if_pos valid, List.foldl_cons, step,
      List.find?_cons_of_neg (fun inside => outside ((contains_wire z level).mp inside))]
    exact ih (drop_cons here).2 (matched_here (drop_cons here).1)
  | case6 index level rest valid outside nearestIndex nearestDistance farther ih =>
    rw [not_not] at valid
    obtain ⟨old, rfl, -, cached⟩ := matched_some matched
    have step : WebRadarFloor.nearer z (some old) (wireLevel level) = some old := by
      rw [WebRadarFloor.nearer, distance_wire, ← cached, if_neg farther]
    rw [validLevels_cons, if_pos valid, List.foldl_cons, step,
      List.find?_cons_of_neg (fun inside => outside ((contains_wire z level).mp inside))]
    exact ih (drop_cons here).2 matched

theorem selectLevel_wire (levels : List MapLevel) (z : Option ℚ) :
    WebRadarFloor.selectMapLevel (levels.map wireLevel) z =
      (FixedMapRadar.selectLevel levels z).bind fun i => levels[i]?.map wireLevel := by
  unfold WebRadarFloor.selectMapLevel FixedMapRadar.selectLevel
  cases z with
  | none => rfl
  | some z =>
    simp only [List.map_eq_nil_iff]
    by_cases empty : levels = []
    · rw [if_pos empty, if_pos empty]
      rfl
    · have start : Matched levels z none none := rfl
      rw [if_neg empty, if_neg empty, selectLevelFrom_wire List.drop_zero start]
      unfold validLevels
      cases List.find? (WebRadarFloor.contains z) _ <;> rfl

/-- A level is found again by its id. -/
theorem find_id {levels : List MapLevel} (distinct : (levels.map MapLevel.id).Nodup) {i : Nat}
    {level : MapLevel} (here : levels[i]? = some level) :
    (levels.map wireLevel).find? (fun candidate => candidate.id = level.id) =
      some (wireLevel level) := by
  induction levels generalizing i with
  | nil => cases here
  | cons first rest ih =>
    rw [List.map_cons, List.nodup_cons] at distinct
    rw [List.map_cons]
    cases i with
    | zero =>
      cases here
      exact List.find?_cons_of_pos (by simp [wireLevel])
    | succ i =>
      rw [List.getElem?_cons_succ] at here
      have other : first.id ≠ level.id := by
        intro same
        rw [same] at distinct
        exact distinct.1 (List.mem_map_of_mem (List.mem_of_getElem? here))
      rw [List.find?_cons_of_neg (by simp [wireLevel, other])]
      exact ih distinct.2 here

/-- The overlay's previous index and the web radar's previous id name the same level. -/
def SamePrevious (levels : List MapLevel) (previousLevel : Option Nat)
    (previousLevelId : Option String) : Prop :=
  previousLevelId = previousLevel.bind fun i => levels[i]?.map MapLevel.id

theorem findPrevious_wire {map : FixedMapRadar.Levels} {previousLevel : Option Nat}
    {previousLevelId : Option String}
    (same : SamePrevious map.levels previousLevel previousLevelId) :
    WebRadarFloor.findPrevious (map.levels.map wireLevel) previousLevelId =
      previousLevel.bind fun i => map.levels[i]?.map wireLevel := by
  unfold SamePrevious at same
  subst same
  cases previousLevel with
  | none => rfl
  | some i =>
    rw [Option.bind_some, Option.bind_some]
    cases here : map.levels[i]? with
    | none => rfl
    | some level =>
      have named := map.named level (List.mem_of_getElem? here)
      rw [Option.map_some, Option.map_some, WebRadarFloor.findPrevious, if_neg named]
      exact find_id map.distinct here

theorem same_index_iff {map : FixedMapRadar.Levels} {i j : Nat} {first second : MapLevel}
    (left : map.levels[i]? = some first) (right : map.levels[j]? = some second) :
    first.id = second.id ↔ i = j := by
  have ids {k : Nat} {level : MapLevel} (here : map.levels[k]? = some level) :
      (map.levels.map MapLevel.id)[k]? = some level.id := by
    rw [List.getElem?_map, here]
    rfl
  constructor
  · intro same
    have inside : i < (map.levels.map MapLevel.id).length := by
      rw [List.length_map]
      exact (List.getElem?_eq_some_iff.mp left).1
    apply (List.getElem?_inj inside map.distinct).mp
    rw [ids left, ids right, same]
  · rintro rfl
    rw [left] at right
    cases right
    rfl

/-- With the same level before, both choose the same level. -/
theorem selectLevelWithHysteresis_wire {map : FixedMapRadar.Levels} {z : Option ℚ}
    {previousLevel : Option Nat} {previousLevelId : Option String} {hysteresis : ℚ}
    (same : SamePrevious map.levels previousLevel previousLevelId) :
    (WebRadarFloor.selectStableMapLevel (map.levels.map wireLevel) z previousLevelId
      hysteresis).level =
      (FixedMapRadar.selectLevelWithHysteresis map.levels z previousLevel hysteresis).bind
        fun i => map.levels[i]?.map wireLevel := by
  have chosen := selectLevel_wire map.levels z
  have found := findPrevious_wire same
  by_cases fresh : hysteresis ≤ 0 ∨ FixedMapRadar.selectLevel map.levels z = none ∨
      (previousLevel.bind fun i => map.levels[i]?) = none
  · rw [FixedMapRadar.selectLevelWithHysteresis_fresh fresh, ← chosen]
    apply WebRadarFloor.selectStableMapLevel_fresh
    rcases fresh with off | absent | new
    · exact Or.inl off
    · exact Or.inr (Or.inl (by rw [chosen, absent]; rfl))
    · refine Or.inr (Or.inr ?_)
      rw [found]
      cases previousLevel with
      | none => rfl
      | some before =>
        rw [Option.bind_some] at new ⊢
        rw [new]
        rfl
  · simp only [not_or] at fresh
    obtain ⟨wide, picked, held⟩ := fresh
    obtain ⟨index, selected⟩ := Option.ne_none_iff_exists'.mp picked
    obtain ⟨previous, kept⟩ := Option.ne_none_iff_exists'.mp held
    obtain ⟨before, rfl, there⟩ := Option.bind_eq_some_iff.mp kept
    obtain ⟨level, here⟩ : ∃ level, map.levels[index]? = some level :=
      ⟨_, List.getElem?_eq_getElem (FixedMapRadar.selectLevel_lt selected)⟩
    obtain ⟨z, rfl⟩ : ∃ height, z = some height := by
      cases z with
      | none => cases selected
      | some z => exact ⟨z, rfl⟩
    have ordered : FixedMapRadar.isValid previous = true :=
      decide_eq_true (map.ordered previous (List.mem_of_getElem? there))
    rw [selected, Option.bind_some, here, Option.map_some] at chosen
    rw [Option.bind_some, there, Option.map_some] at found
    rw [WebRadarFloor.selectStableMapLevel_previous chosen found wide,
      FixedMapRadar.selectLevelWithHysteresis_previous selected there ordered wide]
    have other : (wireLevel previous).id ≠ (wireLevel level).id ↔ index ≠ before :=
      not_congr ((same_index_iff there here).trans eq_comm)
    by_cases keep : index ≠ before ∧ z ≥ previous.minimumZ - hysteresis ∧
        z < previous.maximumZ + hysteresis
    · rw [if_pos ⟨other.mpr keep.1, keep.2⟩, if_pos keep, Option.bind_some, there]
      rfl
    · rw [if_neg fun kept => keep ⟨other.mp kept.1, kept.2⟩, if_neg keep, Option.bind_some, here]
      rfl

/-- What both remember of the frames before: the same map, and levels that name each other. -/
def SameMemory (catalog : Catalog) (memory : FixedMapRadar.Memory)
    (selectedFloor : Option WebRadarFloor.SelectedFloor) : Prop :=
  (∀ floor ∈ selectedFloor, WebRadarFloor.Committed floor) ∧
    ∀ mapId map, catalog.find mapId = some map →
      SamePrevious map.levels (memory.previous mapId)
        (selectedFloor.bind fun floor => if floor.mapId = mapId then floor.levelId else none)

/-- The floors of one frame: the same reference height, and the same level or none. -/
def SameFloor (map : FixedMapRadar.Levels) (native : FixedMapRadar.Floor)
    (web : WebRadarFloor.Floor) : Prop :=
  web.referenceZ = native.referenceZ ∧
    ((native.levelIndex = none ∧ web.level = none) ∨
      ∃ i level, native.levelIndex = some i ∧ map.levels[i]? = some level ∧
        web.level = some (wireLevel level))

/-- Connected to a game on a catalogued map. -/
def Shown (catalog : Catalog) (snapshot : GameSnapshot) : Prop :=
  snapshot.connected = true ∧ (catalog.find snapshot.mapId).isSome

/-- The index the overlay chooses on a frame. -/
def nativeIndex (map : FixedMapRadar.Levels) (memory : FixedMapRadar.Memory)
    (snapshot : GameSnapshot) : Option Nat :=
  (FixedMapRadar.selectReferenceZ snapshot).bind fun z =>
    FixedMapRadar.selectLevelWithHysteresis map.levels (some z) (memory.previous snapshot.mapId)
      FixedMapRadar.defaultHysteresis

theorem selectFloor_wire {catalog : Catalog} {wireId : Nat → String}
    (injective : Function.Injective wireId) {memory : FixedMapRadar.Memory}
    {selectedFloor : WebRadarFloor.SelectedFloor} {snapshot : GameSnapshot}
    {map : FixedMapRadar.Levels} (found : catalog.find snapshot.mapId = some map)
    (same : SamePrevious map.levels (memory.previous snapshot.mapId)
      (if selectedFloor.mapId = snapshot.mapId then selectedFloor.levelId else none)) :
    WebRadarFloor.selectFloor (wireSnapshot catalog wireId snapshot) selectedFloor =
      ⟨FixedMapRadar.selectReferenceZ snapshot,
        (nativeIndex map memory snapshot).bind fun i => map.levels[i]?.map wireLevel⟩ := by
  have levels :
      (wireSnapshot catalog wireId snapshot).levels = some (map.levels.map wireLevel) := by
    rw [wireSnapshot, found]
    rfl
  have reference := selectReferenceZ_wire injective snapshot
  unfold WebRadarFloor.selectFloor nativeIndex
  rw [levels]
  simp only [wireSnapshot, reference]
  cases FixedMapRadar.selectReferenceZ snapshot with
  | none => rfl
  | some z =>
    simp only [Option.bind_some]
    rw [← selectLevelWithHysteresis_wire same]
    rfl

theorem sameFloor_index {map : FixedMapRadar.Levels} {memory : FixedMapRadar.Memory}
    {snapshot : GameSnapshot} :
    SameFloor map ⟨FixedMapRadar.selectReferenceZ snapshot, nativeIndex map memory snapshot⟩
      ⟨FixedMapRadar.selectReferenceZ snapshot,
        (nativeIndex map memory snapshot).bind fun i => map.levels[i]?.map wireLevel⟩ := by
  constructor
  · rfl
  · cases chosen : nativeIndex map memory snapshot with
    | none => exact .inl ⟨rfl, rfl⟩
    | some i =>
      obtain ⟨z, -, index⟩ := Option.bind_eq_some_iff.mp chosen
      have inside := FixedMapRadar.selectLevelWithHysteresis_lt index
      have here : map.levels[i]? = some map.levels[i] := List.getElem?_eq_getElem inside
      exact .inr ⟨i, map.levels[i], rfl, here, by rw [Option.bind_some, here]; rfl⟩

theorem samePrevious_next {catalog : Catalog} {map : FixedMapRadar.Levels} {mapId : String}
    {index : Option Nat} (found : catalog.find mapId = some map) (nextId : String)
    (next : FixedMapRadar.Levels) (there : catalog.find nextId = some next) :
    SamePrevious next.levels (FixedMapRadar.Memory.previous ⟨mapId, index⟩ nextId)
      (if mapId = nextId then (index.bind fun i => map.levels[i]?.map wireLevel).map (·.id)
        else none) := by
  unfold SamePrevious FixedMapRadar.Memory.previous
  by_cases stays : mapId = nextId
  · subst stays
    rw [found] at there
    cases there
    cases index with
    | none => simp
    | some i => cases here : map.levels[i]? <;> simp [here]
  · simp [stays]

/-- One frame: both show the same floor and remember the same. -/
theorem render_wire {catalog : Catalog} {wireId : Nat → String}
    (injective : Function.Injective wireId) {memory : FixedMapRadar.Memory}
    {selectedFloor : Option WebRadarFloor.SelectedFloor}
    (same : SameMemory catalog memory selectedFloor) {snapshot : GameSnapshot}
    {map : FixedMapRadar.Levels} (connected : snapshot.connected = true)
    (found : catalog.find snapshot.mapId = some map) :
    SameMemory catalog (FixedMapRadar.render catalog memory snapshot).1
        (WebRadarFloor.render selectedFloor (wireSnapshot catalog wireId snapshot)).1 ∧
      ∃ native, (FixedMapRadar.render catalog memory snapshot).2 = some native ∧
        SameFloor map native
          (WebRadarFloor.render selectedFloor (wireSnapshot catalog wireId snapshot)).2 := by
  obtain ⟨committed, named⟩ := same
  have before := named snapshot.mapId map found
  have started : WebRadarFloor.Committed (selectedFloor.getD ⟨snapshot.mapId, none, none⟩) := by
    cases selectedFloor with
    | none => simp [WebRadarFloor.Committed]
    | some floor => exact committed floor rfl
  have floor : WebRadarFloor.selectFloor (wireSnapshot catalog wireId snapshot)
      (selectedFloor.getD ⟨snapshot.mapId, none, none⟩) =
      ⟨FixedMapRadar.selectReferenceZ snapshot,
        (nativeIndex map memory snapshot).bind fun i => map.levels[i]?.map wireLevel⟩ := by
    apply selectFloor_wire injective found
    cases selectedFloor with
    | none => simpa using before
    | some floor => exact before
  have native : FixedMapRadar.render catalog memory snapshot =
      (⟨snapshot.mapId, nativeIndex map memory snapshot⟩,
        some ⟨FixedMapRadar.selectReferenceZ snapshot, nativeIndex map memory snapshot⟩) :=
    FixedMapRadar.render_shown connected found
  have web : WebRadarFloor.render selectedFloor (wireSnapshot catalog wireId snapshot) =
      (some (WebRadarFloor.commit snapshot.mapId
        ((nativeIndex map memory snapshot).bind fun i => map.levels[i]?.map wireLevel)
        (selectedFloor.getD ⟨snapshot.mapId, none, none⟩)),
        ⟨FixedMapRadar.selectReferenceZ snapshot,
          (nativeIndex map memory snapshot).bind fun i => map.levels[i]?.map wireLevel⟩) := by
    have mapId : (wireSnapshot catalog wireId snapshot).mapId = snapshot.mapId := rfl
    simp only [WebRadarFloor.render, mapId, floor]
  rw [native, web, WebRadarFloor.commit_eq started]
  refine ⟨⟨?_, ?_⟩, _, rfl, sameFloor_index⟩
  · simp [WebRadarFloor.Committed]
  · exact samePrevious_next found

def nativeAfter (catalog : Catalog) (frames : List GameSnapshot) : FixedMapRadar.Memory :=
  frames.foldl (fun memory frame => (FixedMapRadar.render catalog memory frame).1) {}

def webAfter (frames : List RadarMapProps) : Option WebRadarFloor.SelectedFloor :=
  frames.foldl (fun selectedFloor frame => (WebRadarFloor.render selectedFloor frame).1) none

theorem sameMemory_after {catalog : Catalog} {wireId : Nat → String}
    (injective : Function.Injective wireId) {frames : List GameSnapshot}
    (shown : ∀ frame ∈ frames, Shown catalog frame) :
    SameMemory catalog (nativeAfter catalog frames)
      (webAfter (frames.map (wireSnapshot catalog wireId))) := by
  induction frames using List.reverseRecOn with
  | nil =>
    constructor
    · simp [webAfter]
    · intro mapId map found
      simp [SamePrevious, nativeAfter, webAfter, FixedMapRadar.Memory.previous]
  | append_singleton frames frame ih =>
    have same := ih fun earlier member => shown earlier (List.mem_append_left _ member)
    obtain ⟨connected, catalogued⟩ := shown frame (List.mem_append_right _ (by simp))
    obtain ⟨map, found⟩ := Option.isSome_iff_exists.mp catalogued
    have next := (render_wire injective same connected found).1
    simpa [nativeAfter, webAfter] using next

/-- On every frame both radars take the same reference height and show the same floor. -/
theorem floors_agree (catalog : Catalog) (wireId : Nat → String)
    (injective : Function.Injective wireId) (frames : List GameSnapshot) (frame : GameSnapshot)
    (shown : ∀ s ∈ frames ++ [frame], Shown catalog s) :
    ∃ map native, catalog.find frame.mapId = some map ∧
      (FixedMapRadar.render catalog (nativeAfter catalog frames) frame).2 = some native ∧
      SameFloor map native
        (WebRadarFloor.render (webAfter (frames.map (wireSnapshot catalog wireId)))
          (wireSnapshot catalog wireId frame)).2 := by
  have same := sameMemory_after injective fun s member => shown s (List.mem_append_left _ member)
  obtain ⟨connected, catalogued⟩ := shown frame (List.mem_append_right _ (by simp))
  obtain ⟨map, found⟩ := Option.isSome_iff_exists.mp catalogued
  obtain ⟨-, native, drawn, floors⟩ := render_wire injective same connected found
  exact ⟨map, native, found, drawn, floors⟩

/-- The catalogue's entry of a map with two floors. -/
def nuke : FixedMapRadar.Levels where
  levels := [⟨"default", "maps/de_nuke/radar.png", -495, 10000⟩,
    ⟨"lower", "maps/de_nuke/radar_lower.png", -10000, -495⟩]
  distinct := by decide
  named := by decide
  ordered := by decide

def nukeCatalog : Catalog where
  find mapId := if mapId = "de_nuke" then some nuke else none
  named := rfl

def tally (id : Nat) : String := String.ofList (List.replicate id 'I')

theorem tally_injective : Function.Injective tally := by
  intro a b same
  have lengths := congrArg String.length same
  simpa [tally] using lengths

/-- A local player who goes downstairs: at -500 the upper floor is kept. -/
theorem floors_agree_nuke :
    let atZ (z : ℚ) : GameSnapshot := ⟨"de_nuke", true, some 7, none, .terrorists,
      [⟨7, .terrorists, true, some ⟨some 0, some 0, some z⟩⟩]⟩
    ∃ map native, nukeCatalog.find "de_nuke" = some map ∧
      (FixedMapRadar.render nukeCatalog (nativeAfter nukeCatalog [atZ 0]) (atZ (-500))).2 =
        some native ∧
      SameFloor map native
        (WebRadarFloor.render (webAfter ([atZ 0].map (wireSnapshot nukeCatalog tally)))
          (wireSnapshot nukeCatalog tally (atZ (-500)))).2 := by
  intro atZ
  refine floors_agree nukeCatalog tally tally_injective [atZ 0] (atZ (-500)) ?_
  intro s member
  rcases List.mem_append.mp member with first | last
  · rw [List.mem_singleton.mp first]
    exact ⟨rfl, rfl⟩
  · rw [List.mem_singleton.mp last]
    exact ⟨rfl, rfl⟩

end RadarFloors
