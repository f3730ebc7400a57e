import GameSecurity.EntityCache

/- updateEntities and clearRuntimeState of esp.cpp: what the sampling thread keeps from call to
   call, and what it puts behind the lock for the renderer. -/
namespace RadarSampler
open Asking AsciiText EntityCache GameMemory RadarPlayerSample
open TeleportMailbox (Single Vector3 isfinite magnitude perUnit)
open FixedMapRadar (Team)

structure PositionRead where
  succeeded : Bool := false
  value : WorldPosition := zero Vector3

/-- 0.001F -/
def kZeroPositionEpsilon : Single := 0x3A83126F#32

def isZeroPosition (position : WorldPosition) : Bool :=
  magnitude position.x ≤ magnitude kZeroPositionEpsilon ∧
    magnitude position.y ≤ magnitude kZeroPositionEpsilon ∧
    magnitude position.z ≤ magnitude kZeroPositionEpsilon

def choosePosition (absoluteOrigin oldOrigin : PositionRead) : Option WorldPosition :=
  let absoluteValid := absoluteOrigin.succeeded && isValidPosition absoluteOrigin.value
  let oldValid := oldOrigin.succeeded && isValidPosition oldOrigin.value
  if absoluteValid ∧ ¬ isZeroPosition absoluteOrigin.value then some absoluteOrigin.value
  else if oldValid ∧ ¬ isZeroPosition oldOrigin.value then some oldOrigin.value
  else if absoluteValid then some absoluteOrigin.value
  else if oldValid then some oldOrigin.value
  else none

def isFiniteVec3 (value : Vector3) : Bool :=
  isfinite value.x ∧ isfinite value.y ∧ isfinite value.z ∧
    magnitude value.x < 10000000 * perUnit ∧ magnitude value.y < 10000000 * perUnit ∧
    magnitude value.z < 10000000 * perUnit

/-- 0.000001F -/
def smallestUsable : Single := 0x358637BD#32

def isUsableViewMatrix (matrix : ViewMatrix) : Bool :=
  (matrix.m.all fun value => isfinite value ∧ magnitude value ≤ 100000 * perUnit) &&
    matrix.m.any fun value => magnitude smallestUsable < magnitude value

def readPosition (address : Address) : Remote PositionRead := do
  let value ← tryRead Vector3 address
  return ⟨value.isSome, value.getD (zero Vector3)⟩

def readOldWorldPosition (o : ClientDll) (pawn : Address) : Remote PositionRead :=
  readPosition (pawn + o.m_vOldOrigin)

structure RadarSceneSample where
  position : Option WorldPosition := none
  ownerMatched : Bool := false

def readRadarSceneSample (o : ClientDll) (pawn sceneNode : Address) (oldOrigin : PositionRead) :
    Remote RadarSceneSample := do
  let sceneOwner ← (if sceneNode = 0 then pure none else tryRead UInt64 (sceneNode + o.m_pOwner))
  let ownerMatched := sceneOwner = some pawn
  let absoluteOrigin ← (if ownerMatched then readPosition (sceneNode + o.m_vecAbsOrigin)
    else pure {})
  return ⟨choosePosition absoluteOrigin oldOrigin, ownerMatched⟩

/-- What an update knows of the local player before anything else. -/
structure LocalSample where
  pawn : Address
  oldOrigin : PositionRead
  team : UInt8

/-- none: the update has failed. -/
def readLocal (o : ClientDll) (modBase : Address) : Remote (Option LocalSample) := do
  let localPlayerPawn ← readAs UInt64 (modBase + o.dwLocalPlayerPawn)
  if localPlayerPawn = 0 then return none
  let localOldOrigin ← readOldWorldPosition o localPlayerPawn
  if (choosePosition {} localOldOrigin).isNone then return none
  need (tryRead ViewMatrix (modBase + o.dwViewMatrix)) fun localVm =>
    need (tryRead Vector3 (localPlayerPawn + o.m_vecViewOffset)) fun viewOffset =>
      need (tryRead Vector3 (localPlayerPawn + o.m_angEyeAngles)) fun localEyeAngles =>
        need (tryRead UInt8 (localPlayerPawn + o.m_iTeamNum)) fun localTeam =>
          return if ¬ isUsableViewMatrix localVm ∨ ¬ isFiniteVec3 viewOffset ∨
              ¬ isFiniteVec3 localEyeAngles ∨ ¬ validTeam localTeam then none
            else some ⟨localPlayerPawn, localOldOrigin, localTeam⟩

/-- At most 64 characters, all of them letters, digits, '_' or '-'. Empty: not known. -/
abbrev MapId := { id : Text // id.length ≤ 64 ∧ ∀ c ∈ id, isalnum c ∨ c = 95 ∨ c = 45 }

def noMap : MapId := ⟨[], Nat.zero_le _, fun _ member => nomatch member⟩

/-- The last part of a path of either kind, up to its first dot. -/
def mapName (value : Text) : Text :=
  (value.reverse.takeWhile fun c => c ≠ 47 ∧ c ≠ 92).reverse.takeWhile (· ≠ 46)

def normalizeMapId (value : Text) : MapId :=
  if ok : (mapName value).length ≤ 64 ∧
      (mapName value).all fun c => isalnum c ∨ c = 95 ∨ c = 45 then
    ⟨mapName value, ok.1, fun c member => of_decide_eq_true (List.all_eq_true.mp ok.2 c member)⟩
  else noMap

inductive MapPhase where
  | unknown
  | warmup
  | freezeTime
  | live
  deriving DecidableEq, Repr

/-- The display name is the id. -/
structure MapState where
  id : MapId := noMap
  phase : MapPhase := .unknown
  roundNumber : Nat := 0
  connected : Bool := false
  deriving DecidableEq, Repr

def readMapId (o : ClientDll) (modBase : Address) : Remote MapId := do
  let globalVars ← readAs UInt64 (modBase + o.dwGlobalVars)
  if globalVars = 0 then return noMap
  let mapNamePointer ← readAs UInt64 (globalVars + GLOBAL_VARS_MAP_NAME)
  if mapNamePointer = 0 then return noMap
  let name ← readRaw mapNamePointer 127
  return (name.map fun name => normalizeMapId (name.takeWhile (· ≠ 0))).getD noMap

def sampleMapState (o : ClientDll) (modBase : Address) : Remote MapState := do
  let id ← readMapId o modBase
  let gameRules ← readAs UInt64 (modBase + o.dwGameRules)
  if gameRules = 0 then return { id, phase := .live, connected := true }
  let warmup ← readAs Bool (gameRules + o.m_bWarmupPeriod)
  let freeze ← readAs Bool (gameRules + o.m_bFreezePeriod)
  let rounds ← tryRead Int32 (gameRules + o.m_totalRoundsPlayed)
  let counted := rounds.filter fun rounds => 0 ≤ rounds.toInt ∧ rounds.toInt < 1000
  return {
    id
    phase := if warmup then .warmup else if freeze then .freezeTime else .live
    roundNumber := (counted.map fun rounds => rounds.toInt.toNat + 1).getD 0
    connected := true }

structure EnemyInfo where
  pawnAddress : Address
  entityIndex : UInt32
  position : Vector3
  health : Int
  viewYaw : Option Single
  isSpotted : Option Bool

/-- What one update has read of a cached pawn that is still its controller's. -/
structure Observation where
  livePawnHandle : UInt32
  liveTeam : UInt8
  health : Int
  alive : Bool
  dormant : Bool
  position : Option WorldPosition
  yaw : Option Single
  enemy : Option EnemyInfo

def readEnemy (o : ClientDll) (config : RuntimeConfig) (here : LocalSample) (cp : CachedPawn)
    (liveTeam : UInt8) (health : Int) (position : Option WorldPosition) (yaw : Option Single) :
    Remote (Option EnemyInfo) := do
  if ¬ config.espEnabled ∨ liveTeam = here.team then return none
  match position with
  | none => return none
  | some feetPos =>
    need (tryRead Vector3 (cp.pawnAddress + o.m_vecViewOffset)) fun vOffset => do
      if ¬ isFiniteVec3 vOffset then return none
      let isSpotted ← (if config.espWallCheck then
        tryRead Bool (cp.pawnAddress + o.m_entitySpottedState + o.m_bSpotted) else pure none)
      return some ⟨cp.pawnAddress, cp.entityIndex, feetPos, health, yaw, isSpotted⟩

/-- A pawn of the cache: its address is only a hint, so what it must be is read anew. -/
def observe (o : ClientDll) (config : RuntimeConfig) (here : LocalSample) (capture : Bool)
    (cp : CachedPawn) : Remote (Option Observation) := do
  if ¬ capture ∧ (¬ config.espEnabled ∨ cp.isLocal ∨ cp.team = here.team ∨ ¬ cp.alive) then
    return none
  need (tryRead UInt32 (cp.controllerAddress + o.m_hPlayerPawn)) fun livePawnHandle => do
    if livePawnHandle ≠ cp.pawnHandle then return none
    need (tryRead Int32 (cp.pawnAddress + o.m_iHealth)) fun health =>
      need (tryRead UInt8 (cp.pawnAddress + o.m_lifeState)) fun lifeState =>
        need (tryRead UInt8 (cp.pawnAddress + o.m_iTeamNum)) fun liveTeam => do
          if 200 < health.toInt ∨ liveTeam ≠ cp.team then return none
          let sampledPawnAlive ← (if capture then
            tryRead Bool (cp.controllerAddress + o.m_bPawnIsAlive) else pure none)
          let alive := 0 < health.toInt ∧ lifeState = 0 ∧ sampledPawnAlive.getD cp.alive
          let gameSceneNode ← readAs UInt64 (cp.pawnAddress + o.m_pGameSceneNode)
          let sampledDormant ← (if gameSceneNode = 0 then pure none else
            tryRead Bool (gameSceneNode + o.m_bDormant))
          let dormant := sampledDormant.getD true
          let oldOrigin ← (if cp.isLocal then pure here.oldOrigin else
            readOldWorldPosition o cp.pawnAddress)
          let radarScene ← (if capture then
            readRadarSceneSample o cp.pawnAddress gameSceneNode oldOrigin else pure {})
          let eyeAngles ← (if capture ∨ (config.espEnabled ∧ config.espViewAngle) then
            tryRead Vector3 (cp.pawnAddress + o.m_angEyeAngles) else pure none)
          let yaw := (eyeAngles.filter isFiniteVec3).map Vector3.y
          let enemy ← (if alive ∧ ¬ dormant then
            readEnemy o config here cp liveTeam health.toInt (choosePosition {} oldOrigin) yaw
            else pure none)
          return some {
            livePawnHandle, liveTeam, alive, yaw, enemy
            health := health.toInt
            dormant := if radarScene.ownerMatched then dormant else true
            position := radarScene.position }

/-- A player as the snapshot has him, without his weapons' display names. -/
structure PlayerSnapshot where
  id : Nat
  steamId : Option Nat
  name : Text
  team : Team
  competitiveColor : Int
  alive : Bool
  dormant : Bool
  position : Option WorldPosition
  yaw : Option Single
  health : Int
  armor : Within 0 200
  money : Within 0 1000000
  hasHelmet : Bool
  hasDefuser : Bool
  hasBomb : Bool
  activeWeapon : Option WeaponSnapshot
  inventory : List WeaponSnapshot
  deriving DecidableEq, Repr

inductive BombState where
  | unknown
  | carried
  | dropped
  | planted
  | defused
  | exploded
  deriving DecidableEq, Repr

structure BombSnapshot where
  state : BombState := .unknown
  position : Option WorldPosition := none
  carrierPlayerId : Option Nat := none
  deriving DecidableEq, Repr

structure GameSnapshot where
  sequence : Nat := 0
  capturedAtMs : Nat := 0
  map : MapState := {}
  localPlayerId : Option Nat := none
  observedPlayerId : Option Nat := none
  localTeam : Team := .unknown
  players : List PlayerSnapshot := []
  bomb : BombSnapshot := {}
  deriving DecidableEq, Repr

/-- The position is none unless it is known. -/
structure BombInfo where
  isPlanted : Bool := false
  hasExploded : Bool := false
  isDefused : Bool := false
  position : Option Vector3 := none
  deriving DecidableEq, Repr

/-- The types 0 to 6. -/
inductive WorldType where
  | smoke
  | flash
  | he
  | molotov
  | decoy
  | weapon
  | c4
  deriving DecidableEq, Repr

structure CachedWorldEntity where
  entityIndex : UInt32
  entityAddress : Address
  type : WorldType
  displayName : Text
  deriving DecidableEq, Repr

structure WorldEntityInfo where
  position : Vector3
  type : WorldType
  name : Text
  deriving DecidableEq, Repr

/-- One capture of the radar: where and when, and what it has read of the players. -/
structure Capture where
  mapId : MapId
  localPawn : Address
  nowMs : Nat
  calls : List Call
  deriving DecidableEq, Repr

/-- What the sampling thread keeps. The journal is for the theorems, no function reads it: it has
    the captures, and none wherever the sampler forgets the players. -/
structure Runtime where
  enemies : List EnemyInfo := []
  worldEntities : List WorldEntityInfo := []
  gameSnapshot : GameSnapshot := {}
  bombInfo : BombInfo := {}
  cachedPawns : List CachedPawn := []
  consecutiveReadFailures : Nat := 0
  lastEntityCacheRefresh : Nat := 0
  lastWorldDiscovery : Nat := 0
  lastWorldPositionRefresh : Nat := 0
  lastBombRefresh : Nat := 0
  lastRadarSnapshotRefresh : Nat := 0
  cachedMapState : MapState := {}
  droppedBombPosition : Option WorldPosition := none
  snapshotSequence : Nat := 0
  radarPlayerLastKnownSamples : Samples := fun _ => none
  radarSamplingLocalPawn : Address := 0
  radarSamplingMapId : MapId := noMap
  cachedObservedPawnHandle : Option UInt32 := none
  observedPawnHandleSampledAtMs : Nat := 0
  cachedWorldEntities : List CachedWorldEntity := []
  journal : List (Option Capture) := []

/-- The steady clock of an update in nanoseconds, and the system clock in milliseconds. -/
structure Moment where
  updateNow : Nat
  wallMs : Nat
  deriving DecidableEq, Repr

def Moment.ms (now : Moment) : Nat := now.updateNow / 1000000

def milliseconds (n : Nat) : Nat := n * 1000000

def intervalForRate (rate : Int) : Nat := 1000000000 / (max 1 rate).toNat

def metadataRefreshInterval : Nat := milliseconds 250

def clearRuntimeState (wallMs : Nat) (s : Runtime) : Runtime where
  gameSnapshot := { sequence := s.snapshotSequence + 1, capturedAtMs := wallMs }
  snapshotSequence := s.snapshotSequence + 1
  journal := s.journal ++ [none]

def Runtime.recordUpdateFailure (wallMs : Nat) (s : Runtime) : Runtime :=
  if s.consecutiveReadFailures + 1 ≥ 3 then clearRuntimeState wallMs s
  else { s with consecutiveReadFailures := s.consecutiveReadFailures + 1 }

def Runtime.forgetPlayers (s : Runtime) : Runtime :=
  { s with
    radarPlayerLastKnownSamples := fun _ => none
    radarSamplingLocalPawn := 0
    radarSamplingMapId := noMap
    cachedObservedPawnHandle := none
    observedPawnHandleSampledAtMs := 0
    journal := s.journal ++ [none] }

def Runtime.enterPawn (config : RuntimeConfig) (localPlayerPawn : Address) (s : Runtime) :
    Runtime :=
  if ¬ config.radarSnapshotEnabled then s.forgetPlayers
  else if s.radarSamplingLocalPawn ≠ localPlayerPawn then
    { s.forgetPlayers with radarSamplingLocalPawn := localPlayerPawn }
  else s

def Runtime.captureDue (config : RuntimeConfig) (updateNow : Nat) (s : Runtime) : Bool :=
  config.radarSnapshotEnabled ∧ (s.lastRadarSnapshotRefresh = 0 ∨
    intervalForRate (max 1 (min config.radarRefreshRateHz 20)) ≤
      updateNow - s.lastRadarSnapshotRefresh)

def Runtime.schedule (config : RuntimeConfig) (updateNow : Nat) (s : Runtime) : Runtime :=
  { s with
    lastRadarSnapshotRefresh :=
      if ¬ config.radarSnapshotEnabled then 0
      else if s.captureDue config updateNow then updateNow
      else s.lastRadarSnapshotRefresh }

def Runtime.cacheStale (config : RuntimeConfig) (updateNow : Nat) (s : Runtime) : Bool :=
  let radarMetadataIncomplete :=
    config.radarSnapshotEnabled && s.cachedPawns.any fun pawn => pawn.playerId = 0
  s.cachedPawns = [] ∨ radarMetadataIncomplete ∨ s.lastEntityCacheRefresh = 0 ∨
    metadataRefreshInterval ≤ updateNow - s.lastEntityCacheRefresh

def Runtime.takeCache (cache : Option (List CachedPawn)) (s : Runtime) : Runtime :=
  match cache with
  | none => { s.forgetPlayers with cachedPawns := [] }
  | some pawns => { s with cachedPawns := pawns }

def Runtime.refreshEntityCache (o : ClientDll) (modBase : Address) (config : RuntimeConfig)
    (updateNow : Nat) (s : Runtime) : Remote Runtime := do
  if ¬ s.cacheStale config updateNow then return s
  let cache ← readCache o modBase config
  return ({ s with lastEntityCacheRefresh := updateNow } : Runtime).takeCache cache

/-- An empty id is a boundary as well, never the same map again. -/
def Runtime.enterMap (map : MapState) (s : Runtime) : Runtime :=
  let s := { s with cachedMapState := map }
  if map.id = noMap ∨ s.radarSamplingMapId ≠ map.id then
    { s with
      radarPlayerLastKnownSamples := fun _ => none
      cachedObservedPawnHandle := none
      observedPawnHandleSampledAtMs := 0
      radarSamplingMapId := map.id }
  else s

/-- The handle of the pawn that is observed; zero is nobody's, none: it is not known. -/
def readObserverTarget (o : ClientDll) (localPlayerPawn : Address) : Remote (Option UInt32) :=
  need (tryRead UInt64 (localPlayerPawn + o.m_pObserverServices)) fun observerServices =>
    if observerServices = 0 then return some 0
    else tryRead UInt32 (observerServices + o.m_hObserverTarget)

def Runtime.forgetTarget (s : Runtime) : Runtime :=
  { s with cachedObservedPawnHandle := none, observedPawnHandleSampledAtMs := 0 }

def Runtime.follow (nowMs : Nat) (observerTarget : Option UInt32) (s : Runtime) :
    Runtime × Option UInt32 :=
  match observerTarget with
  | some target =>
    if target ≠ 0 ∧ target ≠ 0xFFFFFFFF then
      ({ s with cachedObservedPawnHandle := some target, observedPawnHandleSampledAtMs := nowMs },
        some target)
    else (s.forgetTarget, none)
  | none =>
    if s.cachedObservedPawnHandle.isSome ∧ s.observedPawnHandleSampledAtMs ≤ nowMs ∧
        nowMs - s.observedPawnHandleSampledAtMs ≤ kLastKnownMaximumAgeMs then
      (s, s.cachedObservedPawnHandle)
    else (s.forgetTarget, none)

def Runtime.captureMap (o : ClientDll) (modBase localPlayerPawn : Address) (nowMs : Nat)
    (s : Runtime) : Remote (Runtime × Option UInt32) := do
  let map ← sampleMapState o modBase
  let s := s.enterMap map
  if map.id = noMap then return (s, none)
  let observerTarget ← readObserverTarget o localPlayerPawn
  return s.follow nowMs observerTarget

def sighting (nowMs : Nat) (cp : CachedPawn) (seen : Observation) : Call where
  identity := {
    playerId := cp.playerId
    controllerAddress := cp.controllerAddress.toNat
    pawnAddress := cp.pawnAddress.toNat
    pawnHandle := seen.livePawnHandle.toNat
    team := seen.liveTeam.toNat
    steamId := cp.steamId
    steamIdKnown := cp.steamIdKnown }
  nowMs := nowMs
  alive := seen.alive
  dormant := seen.dormant
  currentPosition := seen.position
  currentYaw := seen.yaw

structure Frame where
  samples : Samples
  players : List PlayerSnapshot := []
  calls : List Call := []
  localPlayerId : Option Nat := none
  observedPlayerId : Option Nat := none
  bombCarrierId : Option Nat := none

def snapshotPlayer (cp : CachedPawn) (seen : Observation) (shown : RetainedPlayerSample) :
    PlayerSnapshot where
  id := cp.playerId
  steamId := if cp.steamIdKnown ∧ cp.steamId ≠ 0 then some cp.steamId else none
  name := cp.playerName
  team := snapshotTeam seen.liveTeam
  competitiveColor := cp.competitiveColor
  alive := seen.alive
  dormant := seen.dormant
  position := shown.position
  yaw := shown.yaw
  health := if seen.alive then seen.health else 0
  armor := cp.armor
  money := cp.money
  hasHelmet := cp.hasHelmet
  hasDefuser := cp.hasDefuser
  hasBomb := cp.hasBomb
  activeWeapon := cp.activeWeapon
  inventory := cp.inventory

def Frame.add (mapId : MapId) (observed : Option UInt32) (nowMs : Nat) (frame : Frame)
    (entry : CachedPawn × Observation) : Frame :=
  let (cp, seen) := entry
  let call := sighting nowMs cp seen
  let retains := mapId ≠ noMap ∧ cp.playerId ≠ 0
  let shown := if retains then
      (retainPlayerSample ((frame.samples cp.playerId).getD {}) call).2
    else ⟨seen.position, seen.yaw⟩
  { samples := if retains then frame.samples.step (.sample call) else frame.samples
    players := frame.players ++ [snapshotPlayer cp seen shown]
    calls := frame.calls ++ [call]
    localPlayerId := if cp.isLocal then some cp.playerId else frame.localPlayerId
    observedPlayerId :=
      if observed = some seen.livePawnHandle ∧ seen.alive then some cp.playerId
      else frame.observedPlayerId
    bombCarrierId := if cp.hasBomb then some cp.playerId else frame.bombCarrierId }

def Runtime.gather (observed : Option UInt32) (nowMs : Nat)
    (seen : List (CachedPawn × Observation)) (s : Runtime) : Frame :=
  seen.foldl (Frame.add s.cachedMapState.id observed nowMs)
    { samples := s.radarPlayerLastKnownSamples }

/-- The samples after the loop, without those of players not seen for a while. -/
def Runtime.keepSamples (localPawn : Address) (nowMs : Nat) (frame : Frame) (s : Runtime) :
    Runtime :=
  { s with
    radarPlayerLastKnownSamples := frame.samples.step (.prune nowMs)
    journal := s.journal ++ [some ⟨s.cachedMapState.id, localPawn, nowMs, frame.calls⟩] }

def unowned (ownerHandle : UInt32) : Bool := ownerHandle = 0 ∨ ownerHandle = 0xFFFFFFFF

def grenades : List (Text × WorldType × Text) :=
  [(text "smokegrenade_projectile", .smoke, text "Smoke"),
    (text "flashbang_projectile", .flash, text "Flash"),
    (text "hegrenade_projectile", .he, text "HE"),
    (text "molotov_projectile", .molotov, text "Molotov"),
    (text "decoy_projectile", .decoy, text "Decoy")]

def classify (config : RuntimeConfig) (name : Text) (ownerHandle : UInt32) :
    Option (WorldType × Text) :=
  let grenade := if config.grenadeESP then grenades.lookup name else none
  let c4 := config.radarSnapshotEnabled ∧ name = text "weapon_c4" ∧ unowned ownerHandle
  if grenade.isSome then grenade
  else if c4 then some (.c4, text "C4")
  else if config.droppedWeaponESP ∧ (text "weapon_").isPrefixOf name ∧ unowned ownerHandle then
    some (.weapon, name.drop 7)
  else none

def readWorldEntity (o : ClientDll) (config : RuntimeConfig) (entityList : Address) (index : Nat) :
    Remote (Option CachedWorldEntity) := do
  let entity ← entityAddress entityList index.toUInt32
  if entity = 0 then return none
  let identity ← readAs UInt64 (entity + o.m_pEntity)
  if identity = 0 then return none
  let namePointer ← readAs UInt64 (identity + o.m_designerName)
  if namePointer = 0 then return none
  need (readRaw namePointer 63) fun className => do
    let name := className.takeWhile (· ≠ 0)
    let ownerHandle ← (if (text "weapon_").isPrefixOf name then
      readAs UInt32 (entity + o.m_hOwnerEntity) else pure 0xFFFFFFFF)
    return (classify config name ownerHandle).map fun shown =>
      ⟨index.toUInt32, entity, shown.1, shown.2⟩

def refreshWorldEntityCache (o : ClientDll) (modBase : Address) (config : RuntimeConfig) :
    Remote (List CachedWorldEntity) := do
  let entityList ← readAs UInt64 (modBase + o.dwEntityList)
  if entityList = 0 then return []
  let gameEntitySystem ← readAs UInt64 (modBase + o.dwGameEntitySystem)
  let sampledHighestIndex ← (if gameEntitySystem = 0 then pure 0 else
    readAs UInt32 (gameEntitySystem + o.dwGameEntitySystem_highestEntityIndex))
  let highestIndex := if 65 ≤ sampledHighestIndex ∧ sampledHighestIndex ≤ 0x7FFF then
    sampledHighestIndex.toNat else 512
  collect (readWorldEntity o config entityList) (List.range' 65 (highestIndex - 64))

def locate (o : ClientDll) (entityList : Address) (cached : CachedWorldEntity) :
    Remote (Option WorldEntityInfo) := do
  let entity ← entityAddress entityList cached.entityIndex
  if entity ≠ cached.entityAddress then return none
  let sceneNode ← readAs UInt64 (cached.entityAddress + o.m_pGameSceneNode)
  if sceneNode = 0 then return none
  let position ← tryRead Vector3 (sceneNode + o.m_vecAbsOrigin)
  return (position.filter isFiniteVec3).map fun position =>
    ⟨position, cached.type, cached.displayName⟩

def Runtime.updateWorldEntityPositions (o : ClientDll) (modBase : Address) (s : Runtime) :
    Remote Runtime := do
  let entityList ← readAs UInt64 (modBase + o.dwEntityList)
  let located ← (if entityList = 0 then pure [] else
    collect (locate o entityList) s.cachedWorldEntities)
  let bombs := located.filter fun entity => entity.type = .c4
  return { s with
    droppedBombPosition := bombs.getLast?.map WorldEntityInfo.position
    worldEntities := located.filter fun entity => entity.type ≠ .c4 }

def Runtime.updateWorld (o : ClientDll) (modBase : Address) (config : RuntimeConfig)
    (updateNow : Nat) (s : Runtime) : Remote Runtime := do
  if ¬ (config.grenadeESP ∨ config.droppedWeaponESP ∨ config.radarSnapshotEnabled) then
    return if s.cachedWorldEntities ≠ [] ∨ s.lastWorldDiscovery ≠ 0 then
      { s with
        cachedWorldEntities := [], droppedBombPosition := none, worldEntities := []
        lastWorldDiscovery := 0, lastWorldPositionRefresh := 0 }
    else s
  let cachedWorldEntities ← (if s.lastWorldDiscovery = 0 ∨
      milliseconds 250 ≤ updateNow - s.lastWorldDiscovery then
    some <$> refreshWorldEntityCache o modBase config else pure none)
  let s := match cachedWorldEntities with
    | some entities => { s with lastWorldDiscovery := updateNow, cachedWorldEntities := entities }
    | none => s
  if s.lastWorldPositionRefresh = 0 ∨ milliseconds 16 ≤ updateNow - s.lastWorldPositionRefresh then
    ({ s with lastWorldPositionRefresh := updateNow } : Runtime).updateWorldEntityPositions
      o modBase
  else return s

/-- none: what is known of the bomb stays. -/
def readBombInfo (o : ClientDll) (modBase : Address) : Remote (Option BombInfo) := do
  let plantedC4List ← readAs UInt64 (modBase + o.dwPlantedC4)
  if plantedC4List = 0 then return some {}
  let plantedC4 ← readAs UInt64 plantedC4List
  if plantedC4 = 0 then return some {}
  need (tryRead Bool (plantedC4 + o.m_bBombTicking)) fun ticking =>
    need (tryRead Bool (plantedC4 + o.m_bHasExploded)) fun hasExploded =>
      need (tryRead Bool (plantedC4 + o.m_bBombDefused)) fun isDefused => do
        if ¬ ticking ∧ ¬ hasExploded ∧ ¬ isDefused then return some {}
        let sceneNode ← readAs UInt64 (plantedC4 + o.m_pGameSceneNode)
        let position ← (if sceneNode = 0 then pure none else
          tryRead Vector3 (sceneNode + o.m_vecAbsOrigin))
        return some ⟨true, hasExploded, isDefused, position.filter isFiniteVec3⟩

def Runtime.updateBomb (o : ClientDll) (modBase : Address) (config : RuntimeConfig)
    (updateNow : Nat) (capture : Bool) (s : Runtime) : Remote Runtime := do
  if ¬ config.radarSnapshotEnabled then
    return if s.lastBombRefresh ≠ 0 then { s with bombInfo := {}, lastBombRefresh := 0 } else s
  if ¬ capture then return s
  let info ← readBombInfo o modBase
  return { s with lastBombRefresh := updateNow, bombInfo := info.getD s.bombInfo }

def Runtime.bomb (bombCarrierId : Option Nat) (s : Runtime) : BombSnapshot :=
  if s.bombInfo.isPlanted then
    { state := if s.bombInfo.hasExploded then .exploded
        else if s.bombInfo.isDefused then .defused
        else .planted
      position := s.bombInfo.position }
  else if bombCarrierId.isSome then { state := .carried, carrierPlayerId := bombCarrierId }
  else if s.droppedBombPosition.isSome then
    { state := .dropped, position := s.droppedBombPosition }
  else {}

def Runtime.publish (here : LocalSample) (wallMs : Nat) (frame : Frame) (s : Runtime) : Runtime :=
  { s with
    snapshotSequence := s.snapshotSequence + 1
    gameSnapshot := {
      sequence := s.snapshotSequence + 1
      capturedAtMs := wallMs
      map := { s.cachedMapState with connected := true }
      localPlayerId := frame.localPlayerId
      observedPlayerId := frame.observedPlayerId
      localTeam := snapshotTeam here.team
      players := frame.players
      bomb := s.bomb frame.bombCarrierId } }

def observeAll (o : ClientDll) (config : RuntimeConfig) (here : LocalSample) (capture : Bool)
    (cachedPawns : List CachedPawn) : Remote (List (CachedPawn × Observation)) :=
  collect (fun cp => Option.map (cp, ·) <$> observe o config here capture cp) cachedPawns

def Runtime.record (now : Moment) (here : LocalSample) (capture : Bool) (observed : Option UInt32)
    (seen : List (CachedPawn × Observation)) (s : Runtime) : Runtime :=
  { (if capture then s.keepSamples here.pawn now.ms (s.gather observed now.ms seen) else s) with
    enemies := seen.filterMap fun entry => entry.2.enemy }

def Runtime.conclude (o : ClientDll) (modBase : Address) (config : RuntimeConfig) (now : Moment)
    (here : LocalSample) (capture : Bool) (frame : Frame) (s : Runtime) : Remote Runtime := do
  let explored ← s.updateWorld o modBase config now.updateNow
  let complete ← explored.updateBomb o modBase config now.updateNow capture
  return if capture then complete.publish here now.wallMs frame else complete

def Runtime.survey (o : ClientDll) (modBase : Address) (config : RuntimeConfig) (now : Moment)
    (here : LocalSample) (capture : Bool) (s : Runtime) : Remote Runtime := do
  let aimed ← (if capture then s.captureMap o modBase here.pawn now.ms else pure (s, none))
  let seen ← observeAll o config here capture aimed.1.cachedPawns
  (aimed.1.record now here capture aimed.2 seen).conclude o modBase config now here capture
    (aimed.1.gather aimed.2 now.ms seen)

def Runtime.refresh (o : ClientDll) (modBase : Address) (config : RuntimeConfig) (now : Moment)
    (here : LocalSample) (s : Runtime) : Remote Runtime := do
  let ready ← (s.schedule config now.updateNow).refreshEntityCache o modBase config now.updateNow
  ready.survey o modBase config now here (s.captureDue config now.updateNow)

def Runtime.sample (o : ClientDll) (modBase : Address) (config : RuntimeConfig) (now : Moment)
    (here : LocalSample) (s : Runtime) : Remote Runtime := do
  let _ ← (if config.antiFlash then
    tryWriteRaw (here.pawn + o.m_flFlashDuration) [0, 0, 0, 0] else pure false)
  (({ s with consecutiveReadFailures := 0 } : Runtime).enterPawn config here.pawn).refresh
    o modBase config now here

def updateEntities (o : ClientDll) (modBase : Address) (config : RuntimeConfig) (now : Moment)
    (s : Runtime) : Remote Runtime := do
  match ← readLocal o modBase with
  | none => return s.recordUpdateFailure now.wallMs
  | some here => s.sample o modBase config now here

end RadarSampler
