import GameSecurity.AsciiText
import GameSecurity.FixedMapRadar
import GameSecurity.GameMemory
import GameSecurity.RadarPlayerSample

/- The players of the game as esp.cpp caches them, and the map they are on. -/
namespace EntityCache
open Asking AsciiText ByteMemory GameMemory TeleportMailbox
open FixedMapRadar (Team)

/-- Where client.dll keeps what is read, as the generated headers have it. -/
structure ClientDll where
  dwEntityList : Address := 0x2554050
  dwGameEntitySystem : Address := 0x2554050
  dwGameEntitySystem_highestEntityIndex : Address := 0x2090
  dwGameRules : Address := 0x23A8BD8
  dwGlobalVars : Address := 0x2094D38
  dwLocalPlayerPawn : Address := 0x23A9118
  dwPlantedC4 : Address := 0x2373888
  dwViewMatrix : Address := 0x23AE550
  m_pOwner : Address := 0x30
  m_vecAbsOrigin : Address := 0xC8
  m_bDormant : Address := 0x103
  m_hObserverTarget : Address := 0x4C
  m_pGameSceneNode : Address := 0x330
  m_iHealth : Address := 0x34C
  m_lifeState : Address := 0x354
  m_iTeamNum : Address := 0x3E7
  m_hOwnerEntity : Address := 0x520
  m_vecViewOffset : Address := 0xE78
  m_pWeaponServices : Address := 0x1208
  m_pObserverServices : Address := 0x1220
  m_vOldOrigin : Address := 0x13B8
  m_flFlashDuration : Address := 0x1428
  m_angEyeAngles : Address := 0x3350
  m_entitySpottedState : Address := 0x1C60
  m_bSpotted : Address := 0x8
  m_AttributeManager : Address := 0x11A8
  m_Item : Address := 0x50
  m_iItemDefinitionIndex : Address := 0x1BA
  m_iClip1 : Address := 0x1700
  m_pReserveAmmo : Address := 0x1708
  m_pInGameMoneyServices : Address := 0x810
  m_iAccount : Address := 0x40
  m_iCompTeammateColor : Address := 0x850
  m_sSanitizedPlayerName : Address := 0x868
  m_hPlayerPawn : Address := 0x914
  m_bPawnIsAlive : Address := 0x91C
  m_iPawnArmor : Address := 0x924
  m_bPawnHasDefuser : Address := 0x928
  m_bPawnHasHelmet : Address := 0x929
  m_iszPlayerName : Address := 0x6F4
  m_steamID : Address := 0x780
  m_bIsLocalPlayerController : Address := 0x788
  m_bFreezePeriod : Address := 0x40
  m_bWarmupPeriod : Address := 0x41
  m_totalRoundsPlayed : Address := 0x88
  m_hMyWeapons : Address := 0x48
  m_hActiveWeapon : Address := 0x60
  m_bBombTicking : Address := 0x11A0
  m_bHasExploded : Address := 0x11D5
  m_bBombDefused : Address := 0x11F4
  m_pEntity : Address := 0x10
  m_designerName : Address := 0x20

/-- The switches of menu::RuntimeConfig that the sampler looks at. -/
structure RuntimeConfig where
  espEnabled : Bool := true
  espWeapon : Bool := true
  antiFlash : Bool := false
  espViewAngle : Bool := true
  espWallCheck : Bool := true
  grenadeESP : Bool := false
  droppedWeaponESP : Bool := false
  localRadarEnabled : Bool := false
  radarRefreshRateHz : Int := 20
  deriving DecidableEq, Repr

def RuntimeConfig.radarSnapshotEnabled (config : RuntimeConfig) : Bool := config.localRadarEnabled

def ENTITY_LIST_CHUNK_ARRAY : Address := 0x10

def ENTITY_IDENTITY_STRIDE : Address := 0x70

def ENTITY_HANDLE_MASK : UInt32 := 0x7FFF

def GLOBAL_VARS_MAP_NAME : Address := 0x188

def FIRST_PLAYER_CONTROLLER : Nat := 1

def LAST_PLAYER_CONTROLLER : Nat := 64

abbrev Within (low high : Int) := { v : Int // low ≤ v ∧ v ≤ high }

def clamp (low high : Int) (bounds : low ≤ high) (v : Int) : Within low high :=
  ⟨max low (min v high), le_max_left _ _, max_le bounds (min_le_right _ _)⟩

/-- The number, or zero where there is none within the bounds. -/
def accept (high : Nat) (v : Option Int32) : Within 0 high :=
  match v with
  | none => ⟨0, le_refl 0, high.cast_nonneg⟩
  | some v =>
    if ok : 0 ≤ v.toInt ∧ v.toInt ≤ high then ⟨v.toInt, ok⟩
    else ⟨0, le_refl 0, high.cast_nonneg⟩

def makeOpaquePlayerId (controllerSlot : Nat) : Nat := 0x8000000000000000 ||| controllerSlot

def entityAddress (entityList : Address) (index : UInt32) : Remote Address := do
  let listEntry ← readAs UInt64
    (entityList + ENTITY_LIST_CHUNK_ARRAY + (8 : Address) * (index >>> 9).toUInt64)
  if listEntry = 0 then return 0
  readAs UInt64 (listEntry + ENTITY_IDENTITY_STRIDE * (index &&& 0x1FF).toUInt64)

def validTeam (team : UInt8) : Bool := team = 2 ∨ team = 3

def snapshotTeam (team : UInt8) : Team :=
  if team = 2 then .terrorists
  else if team = 3 then .counterTerrorists
  else if team = 1 then .spectator
  else .unknown

inductive WeaponCategory where
  | unknown
  | knife
  | pistol
  | smg
  | rifle
  | shotgun
  | machineGun
  | sniperRifle
  | grenade
  | equipment
  | bomb
  deriving DecidableEq, Repr

def weaponCategory (definitionIndex : UInt16) : WeaponCategory :=
  if definitionIndex ∈ [1, 2, 3, 4, 30, 32, 36, 61, 63, 64] then .pistol
  else if definitionIndex ∈ [7, 8, 10, 13, 16, 39, 60] then .rifle
  else if definitionIndex ∈ [9, 11, 38, 40] then .sniperRifle
  else if definitionIndex ∈ [17, 19, 23, 24, 26, 33, 34] then .smg
  else if definitionIndex ∈ [25, 27, 29, 35] then .shotgun
  else if definitionIndex ∈ [14, 28] then .machineGun
  else if definitionIndex ∈ [43, 44, 45, 46, 47, 48, 68, 81, 82, 84] then .grenade
  else if definitionIndex ∈ [42, 59, 500, 503, 505, 506, 507, 508, 509, 512, 514, 515, 516, 517,
    518, 519, 520, 521, 522, 523, 525] then .knife
  else if definitionIndex = 49 then .bomb
  else if definitionIndex ∈ [31, 50, 51, 52, 54, 55, 57, 80] then .equipment
  else .unknown

/-- A weapon is known by what the game calls it, which is never zero. -/
structure WeaponSnapshot where
  definitionIndex : UInt16
  defined : definitionIndex ≠ 0
  name : Text
  category : WeaponCategory
  clipAmmo : Within 0 1000
  reserveAmmo : Within 0 5000
  deriving DecidableEq, Repr

def weaponProtocolName (definitionIndex : UInt16) : Text :=
  text "item_" ++ numeral 10 definitionIndex.toNat

def readWeaponSnapshot (o : ClientDll) (entityList : Address) (weaponHandle : UInt32) :
    Remote (Option WeaponSnapshot) := do
  if weaponHandle = 0 ∨ weaponHandle = 0xFFFFFFFF then return none
  let weaponEntity ← entityAddress entityList (weaponHandle &&& ENTITY_HANDLE_MASK)
  if weaponEntity = 0 then return none
  let itemView := weaponEntity + o.m_AttributeManager + o.m_Item
  let definitionIndex ← readAs UInt16 (itemView + o.m_iItemDefinitionIndex)
  if defined : definitionIndex = 0 then return none
  else
    let clipAmmo ← tryRead Int32 (weaponEntity + o.m_iClip1)
    let reserveAmmo ← tryRead Int32 (weaponEntity + o.m_pReserveAmmo)
    return some {
      definitionIndex, defined
      name := weaponProtocolName definitionIndex
      category := weaponCategory definitionIndex
      clipAmmo := accept 1000 clipAmmo
      reserveAmmo := accept 5000 reserveAmmo }

/-- The sanitized name, or else the plain one; empty where neither can be read. -/
def readPlayerName (o : ClientDll) (controller : Address) : Remote Text := do
  let sanitizedName ← readAs UInt64 (controller + o.m_sSanitizedPlayerName)
  let sanitized ← (if sanitizedName = 0 then pure none else readRaw sanitizedName 127)
  let name ← (if sanitized.isSome then pure sanitized
    else readRaw (controller + o.m_iszPlayerName) 127)
  return (name.getD []).takeWhile (· ≠ 0)

structure CachedPawn where
  controllerAddress : Address
  pawnAddress : Address
  pawnHandle : UInt32
  entityIndex : UInt32
  team : UInt8
  playerId : Nat := 0
  steamId : Nat := 0
  steamIdKnown : Bool := false
  playerName : Text := []
  competitiveColor : Int := -1
  armor : Within 0 200 := ⟨0, by decide⟩
  money : Within 0 1000000 := ⟨0, by decide⟩
  alive : Bool
  isLocal : Bool := false
  hasHelmet : Bool := false
  hasDefuser : Bool := false
  hasBomb : Bool := false
  activeWeapon : Option WeaponSnapshot := none
  inventory : List WeaponSnapshot := []
  deriving DecidableEq, Repr

structure RemoteWeaponVector where
  size : UInt32
  elements : Address
  deriving DecidableEq, Repr

instance : Plain RemoteWeaponVector :=
  ⟨16, fun bytes => ⟨(ofBytes (bytes.take 4)).toUInt32, (ofBytes (bytes.drop 8)).toUInt64⟩⟩

/-- The handles that an array of so many bytes holds. -/
def decodeHandles (bytes : List UInt8) : List UInt32 :=
  (List.range (bytes.length / 4)).map fun index =>
    (ofBytes ((bytes.drop (4 * index)).take 4)).toUInt32

/-- What the radar shows of a player besides his weapons. A read that fails gives zero, also for
    the colour. -/
def readPlayer (o : ClientDll) (localPlayerPawn : Address) (slot : Nat) (cp : CachedPawn) :
    Remote CachedPawn := do
  let entityController := cp.controllerAddress
  let controllerIsLocal ← readAs Bool (entityController + o.m_bIsLocalPlayerController)
  let steamId ← tryRead UInt64 (entityController + o.m_steamID)
  let playerName ← readPlayerName o entityController
  let competitiveColor ← readAs Int32 (entityController + o.m_iCompTeammateColor)
  let armor ← readAs Int32 (entityController + o.m_iPawnArmor)
  let hasHelmet ← readAs Bool (entityController + o.m_bPawnHasHelmet)
  let hasDefuser ← readAs Bool (entityController + o.m_bPawnHasDefuser)
  let moneyServices ← readAs UInt64 (entityController + o.m_pInGameMoneyServices)
  let money ← (if moneyServices = 0 then pure 0 else readAs Int32 (moneyServices + o.m_iAccount))
  return { cp with
    isLocal := cp.pawnAddress = localPlayerPawn ∨ controllerIsLocal
    steamId := (steamId.getD 0).toNat
    steamIdKnown := steamId.isSome
    playerId := makeOpaquePlayerId slot
    playerName := if playerName = [] then text "Player " ++ numeral 10 slot else playerName
    competitiveColor := competitiveColor.toInt
    armor := clamp 0 200 (by decide) armor.toInt
    hasHelmet, hasDefuser
    money := clamp 0 1000000 (by decide) money.toInt }

def readInventory (o : ClientDll) (entityList weaponServices : Address) :
    Remote (List WeaponSnapshot) := do
  let remoteWeapons ← readAs RemoteWeaponVector (weaponServices + o.m_hMyWeapons)
  if remoteWeapons.elements = 0 ∨ remoteWeapons.size = 0 ∨ 32 < remoteWeapons.size then return []
  let handles ← readRaw remoteWeapons.elements (remoteWeapons.size.toNat * 4)
  collect (readWeaponSnapshot o entityList) (decodeHandles (handles.getD []))

def readWeapons (o : ClientDll) (config : RuntimeConfig) (entityList : Address) (cp : CachedPawn) :
    Remote CachedPawn := do
  let weaponServices ← readAs UInt64 (cp.pawnAddress + o.m_pWeaponServices)
  if weaponServices = 0 then return cp
  let activeWeaponHandle ← readAs UInt32 (weaponServices + o.m_hActiveWeapon)
  let activeWeapon ← readWeaponSnapshot o entityList activeWeaponHandle
  let inventory ← (if config.radarSnapshotEnabled then readInventory o entityList weaponServices
    else pure [])
  return { cp with
    activeWeapon, inventory
    hasBomb := inventory.any fun weapon => weapon.category = .bomb }

/-- The pawn of a controller's slot; none: the slot is passed over. -/
def readPawn (o : ClientDll) (config : RuntimeConfig) (entityList localPlayerPawn : Address)
    (myTeam : UInt8) (slot : Nat) : Remote (Option CachedPawn) := do
  let entityController ← entityAddress entityList slot.toUInt32
  if entityController = 0 then return none
  let pawnAlive ← tryRead Bool (entityController + o.m_bPawnIsAlive)
  let pawnHandle ← (if pawnAlive.isNone then pure 0
    else readAs UInt32 (entityController + o.m_hPlayerPawn))
  if pawnHandle = 0 ∨ pawnHandle = 0xFFFFFFFF then return none
  let pawnIndex := pawnHandle &&& ENTITY_HANDLE_MASK
  let entity ← entityAddress entityList pawnIndex
  if entity = 0 then return none
  let team ← readAs UInt8 (entity + o.m_iTeamNum)
  let alive := pawnAlive.getD false
  if ¬ validTeam team then return none
  if ¬ config.radarSnapshotEnabled ∧ (¬ alive ∨ entity = localPlayerPawn ∨ team = myTeam) then
    return none
  let cp : CachedPawn := {
    controllerAddress := entityController, pawnAddress := entity, pawnHandle
    entityIndex := pawnIndex, team, alive }
  let cp ← (if config.radarSnapshotEnabled then readPlayer o localPlayerPawn slot cp else pure cp)
  let cp ← (if config.radarSnapshotEnabled ∨ (config.espEnabled ∧ config.espWeapon) then
    readWeapons o config entityList cp else pure cp)
  return some cp

/-- refreshEntityCache; none: everything about the players is forgotten. -/
def readCache (o : ClientDll) (modBase : Address) (config : RuntimeConfig) :
    Remote (Option (List CachedPawn)) := do
  let entityList ← readAs UInt64 (modBase + o.dwEntityList)
  if entityList = 0 then return none
  let localPlayerPawn ← readAs UInt64 (modBase + o.dwLocalPlayerPawn)
  if localPlayerPawn = 0 then return none
  let myTeam ← readAs UInt8 (localPlayerPawn + o.m_iTeamNum)
  if ¬ validTeam myTeam then return none
  let pawns ← collect (readPawn o config entityList localPlayerPawn myTeam)
    (List.range' FIRST_PLAYER_CONTROLLER LAST_PLAYER_CONTROLLER)
  return some pawns

/-- What a cached pawn of a slot has under the switches it was cached under. -/
structure Known (config : RuntimeConfig) (slot : Nat) (cp : CachedPawn) : Prop where
  team : validTeam cp.team = true
  playerId : cp.playerId = if config.radarSnapshotEnabled then makeOpaquePlayerId slot else 0
  named : config.radarSnapshotEnabled = true → cp.playerName ≠ []
  inventory : cp.inventory.length ≤ 32
  bomb : cp.hasBomb = cp.inventory.any fun weapon => weapon.category = .bomb

def Cached (config : RuntimeConfig) (pawns : List CachedPawn) : Prop :=
  ∃ slots : List Nat, slots.Sublist (List.range' FIRST_PLAYER_CONTROLLER LAST_PLAYER_CONTROLLER) ∧
    List.Forall₂ (Known config) slots pawns

section Rules

variable {allowed : Request → Prop} {o : ClientDll} {config : RuntimeConfig}
  {entityList address localPlayerPawn : Address}

theorem ensures_entityAddress (reads : ∀ q : Request, q.Reads → allowed q) (index : UInt32) :
    Ensures allowed (fun _ => True) (entityAddress entityList index) := by
  unfold entityAddress
  apply ensures_bind (ensures_readAs reads)
  intro listEntry _
  split
  · exact ensures_done trivial
  · exact ensures_readAs reads

theorem ensures_readWeaponSnapshot (reads : ∀ q : Request, q.Reads → allowed q)
    (handle : UInt32) :
    Ensures allowed (fun _ => True) (readWeaponSnapshot o entityList handle) := by
  unfold readWeaponSnapshot
  split
  · exact ensures_done trivial
  · apply ensures_bind (ensures_entityAddress reads _)
    intro weaponEntity _
    split
    · exact ensures_done trivial
    · apply ensures_bind (ensures_readAs reads)
      intro definitionIndex _
      split
      · exact ensures_done trivial
      · apply ensures_bind (ensures_tryRead reads)
        intro clipAmmo _
        apply ensures_bind (ensures_tryRead reads)
        intro reserveAmmo _
        exact ensures_done trivial

theorem ensures_readPlayerName (reads : ∀ q : Request, q.Reads → allowed q) :
    Ensures allowed (fun _ => True) (readPlayerName o address) := by
  unfold readPlayerName
  have anything : ∀ (a : Address) (size : Nat),
      Ensures allowed (fun _ => True) (readRaw a size) := fun a size =>
    ensures_imp (ensures_readRaw reads) fun _ _ => trivial
  apply ensures_bind (ensures_readAs reads)
  intro sanitizedName _
  apply ensures_bind (ensures_ite (fun _ => ensures_done trivial) fun _ => anything _ _)
  intro sanitized _
  apply ensures_bind (ensures_ite (fun _ => ensures_done trivial) fun _ => anything _ _)
  intro name _
  exact ensures_done trivial

theorem ensures_readPlayer (reads : ∀ q : Request, q.Reads → allowed q) {slot : Nat}
    {cp : CachedPawn} :
    Ensures allowed (fun described => described.team = cp.team ∧
        described.playerId = makeOpaquePlayerId slot ∧ described.playerName ≠ [] ∧
        described.inventory = cp.inventory ∧ described.hasBomb = cp.hasBomb)
      (readPlayer o localPlayerPawn slot cp) := by
  unfold readPlayer
  apply ensures_bind (ensures_readAs reads)
  intro controllerIsLocal _
  apply ensures_bind (ensures_tryRead reads)
  intro steamId _
  apply ensures_bind (ensures_readPlayerName reads)
  intro playerName _
  apply ensures_bind (ensures_readAs reads)
  intro competitiveColor _
  apply ensures_bind (ensures_readAs reads)
  intro armor _
  apply ensures_bind (ensures_readAs reads)
  intro hasHelmet _
  apply ensures_bind (ensures_readAs reads)
  intro hasDefuser _
  apply ensures_bind (ensures_readAs reads)
  intro moneyServices _
  apply ensures_bind (ensures_ite (fun _ => ensures_done trivial) fun _ => ensures_readAs reads)
  intro money _
  apply ensures_done
  refine ⟨rfl, rfl, ?_, rfl, rfl⟩
  change (if playerName = [] then text "Player " ++ numeral 10 slot else playerName) ≠ []
  split
  · exact List.append_ne_nil_of_left_ne_nil (by decide) _
  · assumption

theorem ensures_readInventory (reads : ∀ q : Request, q.Reads → allowed q)
    {weaponServices : Address} :
    Ensures allowed (fun inventory => inventory.length ≤ 32)
      (readInventory o entityList weaponServices) := by
  unfold readInventory
  apply ensures_bind (ensures_readAs reads)
  intro remoteWeapons _
  apply ensures_ite
  · intro _
    exact ensures_done (Nat.zero_le _)
  · intro sized
    have small : remoteWeapons.size.toNat ≤ 32 :=
      not_lt.mp fun large => sized (.inr (.inr large))
    apply ensures_bind (ensures_readRaw reads)
    intro handles filled
    apply ensures_imp (ensures_collect (R := fun _ _ => True) fun handle _ =>
      ensures_imp (ensures_readWeaponSnapshot reads handle) fun _ _ _ _ => trivial)
    rintro inventory ⟨kept, sub, related⟩
    have count : (handles.getD []).length ≤ remoteWeapons.size.toNat * 4 := by
      cases handles with
      | none => exact Nat.zero_le _
      | some bytes => exact (filled bytes rfl).le
    have few := sub.length_le
    rw [decodeHandles, List.length_map, List.length_range] at few
    rw [← related.length_eq]
    omega

theorem ensures_readWeapons (reads : ∀ q : Request, q.Reads → allowed q) {cp : CachedPawn}
    {slot : Nat}
    (known : Known config slot cp) :
    Ensures allowed (Known config slot) (readWeapons o config entityList cp) := by
  unfold readWeapons
  apply ensures_bind (ensures_readAs reads)
  intro weaponServices _
  apply ensures_ite
  · intro _
    exact ensures_done known
  · intro _
    apply ensures_bind (ensures_readAs reads)
    intro activeWeaponHandle _
    apply ensures_bind (ensures_readWeaponSnapshot reads _)
    intro activeWeapon _
    apply ensures_bind (ensures_ite (fun _ => ensures_readInventory reads)
      fun _ => ensures_done (Nat.zero_le _))
    intro inventory few
    exact ensures_done { known with inventory := few, bomb := rfl }

theorem ensures_readPawn (reads : ∀ q : Request, q.Reads → allowed q) {myTeam : UInt8}
    {slot : Nat} :
    Ensures allowed (fun found => ∀ cp ∈ found, Known config slot cp)
      (readPawn o config entityList localPlayerPawn myTeam slot) := by
  unfold readPawn
  apply ensures_bind (ensures_entityAddress reads _)
  intro entityController _
  apply ensures_ite (fun _ => ensures_none)
  intro _
  apply ensures_bind (ensures_tryRead reads)
  intro pawnAlive _
  apply ensures_bind (ensures_ite (fun _ => ensures_done trivial) fun _ => ensures_readAs reads)
  intro pawnHandle _
  apply ensures_ite (fun _ => ensures_none)
  intro _
  apply ensures_bind (ensures_entityAddress reads _)
  intro entity _
  apply ensures_ite (fun _ => ensures_none)
  intro _
  apply ensures_bind (ensures_readAs reads)
  intro team _
  apply ensures_ite (fun _ => ensures_none)
  intro valid
  apply ensures_ite (fun _ => ensures_none)
  intro _
  apply ensures_bind (P := Known config slot)
  · apply ensures_ite
    · intro radar
      apply ensures_imp (ensures_readPlayer reads)
      rintro described ⟨same, id, named, inventory, bomb⟩
      constructor
      case team =>
        rw [same]
        exact not_not.mp valid
      case playerId => rw [id, if_pos radar]
      case named => exact fun _ => named
      case inventory =>
        rw [inventory]
        exact Nat.zero_le _
      case bomb => rw [bomb, inventory, List.any_nil]
    · intro radar
      apply ensures_done
      constructor
      case team => exact not_not.mp valid
      case playerId => rw [if_neg radar]
      case named => exact fun on => absurd on radar
      case inventory => exact Nat.zero_le _
      case bomb => exact List.any_nil.symm
  · intro cp known
    apply ensures_bind (P := Known config slot)
    · exact ensures_ite (fun _ => ensures_readWeapons reads known) fun _ => ensures_done known
    · intro cp' known'
      apply ensures_done
      rintro _ ⟨⟩
      exact known'

theorem ensures_readCache (reads : ∀ q : Request, q.Reads → allowed q) {modBase : Address} :
    Ensures allowed (fun cache => ∀ pawns ∈ cache, Cached config pawns)
      (readCache o modBase config) := by
  unfold readCache
  apply ensures_bind (ensures_readAs reads)
  intro entityList _
  apply ensures_ite (fun _ => ensures_none)
  intro _
  apply ensures_bind (ensures_readAs reads)
  intro localPlayerPawn _
  apply ensures_ite (fun _ => ensures_none)
  intro _
  apply ensures_bind (ensures_readAs reads)
  intro myTeam _
  apply ensures_ite (fun _ => ensures_none)
  intro _
  apply ensures_bind (ensures_collect fun slot _ => ensures_readPawn reads)
  intro pawns cached
  apply ensures_done
  rintro _ ⟨⟩
  exact cached

end Rules

end EntityCache
