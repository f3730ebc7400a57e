import GameSecurity.RadarSampler

/- What an update may read of the game, whatever the game's memory holds and however it changes
   meanwhile. -/
namespace RadarSampler
open Asking AsciiText EntityCache GameMemory RadarPlayerSample
open TeleportMailbox (Single Vector3 isfinite magnitude perUnit)

section Positions

variable {absoluteOrigin oldOrigin : PositionRead} {p : WorldPosition}

theorem choosePosition_cases (chosen : choosePosition absoluteOrigin oldOrigin = some p) :
    isValidPosition p = true ∧
      (absoluteOrigin.succeeded ∧ p = absoluteOrigin.value ∨
        oldOrigin.succeeded ∧ p = oldOrigin.value) := by
  unfold choosePosition at chosen
  simp only [Bool.and_eq_true] at chosen
  split_ifs at chosen with h₁ h₂ h₃ h₄
  · cases chosen
    exact ⟨h₁.1.2, .inl ⟨h₁.1.1, rfl⟩⟩
  · cases chosen
    exact ⟨h₂.1.2, .inr ⟨h₂.1.1, rfl⟩⟩
  · cases chosen
    exact ⟨h₃.2, .inl ⟨h₃.1, rfl⟩⟩
  · cases chosen
    exact ⟨h₄.2, .inr ⟨h₄.1, rfl⟩⟩

/-- esp.cpp's own check and the one of the samples are the same. -/
theorem isFiniteVec3_eq (value : Vector3) : isFiniteVec3 value = isValidPosition value := by
  unfold isFiniteVec3 isValidPosition kWorldCoordinateLimit
  rw [Bool.eq_iff_iff, decide_eq_true_eq]
  split
  · rename_i bad
    simp only [Bool.false_eq_true, iff_false]
    rintro ⟨x, y, z, lx, ly, lz⟩
    rcases bad with h | h | h | h | h | h
    · exact h x
    · exact h y
    · exact h z
    · exact absurd lx (not_lt.mpr h)
    · exact absurd ly (not_lt.mpr h)
    · exact absurd lz (not_lt.mpr h)
  · rename_i good
    simp only [iff_true]
    simp only [not_or, not_not, ge_iff_le, not_le] at good
    exact ⟨good.1, good.2.1, good.2.2.1, good.2.2.2.1, good.2.2.2.2.1, good.2.2.2.2.2⟩

end Positions

structure Ready (here : LocalSample) : Prop where
  pawn : here.pawn ≠ 0
  team : validTeam here.team = true
  position : (choosePosition {} here.oldOrigin).isSome = true

/-- An enemy of an update: alive, of the other team, and somewhere. -/
structure Opposes (here : LocalSample) (cp : CachedPawn) (seen : Observation) (enemy : EnemyInfo) :
    Prop where
  pawn : enemy.pawnAddress = cp.pawnAddress
  alive : seen.alive = true
  team : seen.liveTeam ≠ here.team
  health : enemy.health = seen.health
  position : isValidPosition enemy.position = true

structure Observed (here : LocalSample) (cp : CachedPawn) (seen : Observation) : Prop where
  handle : seen.livePawnHandle = cp.pawnHandle
  team : seen.liveTeam = cp.team
  health : seen.health ≤ 200
  living : seen.alive = true → 0 < seen.health
  position : ∀ p ∈ seen.position, isValidPosition p = true
  yaw : ∀ y ∈ seen.yaw, isfinite y
  enemy : ∀ enemy ∈ seen.enemy, Opposes here cp seen enemy

section Rules

variable {allowed : Request → Prop} {o : ClientDll} {config : RuntimeConfig} {modBase : Address}
  {here : LocalSample} {cp : CachedPawn}

theorem ensures_readPosition (reads : ∀ q : Request, q.Reads → allowed q) {address : Address} :
    Ensures allowed (fun _ => True) (readPosition address) :=
  ensures_bind (ensures_tryRead reads) fun _ _ => ensures_done trivial

theorem ensures_value (reads : ∀ q : Request, q.Reads → allowed q) {T : Type} [Plain T]
    {address : Address} :
    Ensures allowed (fun found => ∀ v ∈ found, True) (tryRead T address) :=
  ensures_imp (ensures_tryRead reads) fun _ _ _ _ => trivial

theorem ensures_readLocal (reads : ∀ q : Request, q.Reads → allowed q) :
    Ensures allowed (fun found => ∀ here ∈ found, Ready here) (readLocal o modBase) := by
  unfold readLocal
  apply ensures_bind (ensures_readAs reads)
  intro pawn _
  apply ensures_ite (fun _ => ensures_none)
  intro present
  apply ensures_bind (ensures_readPosition reads)
  intro localOldOrigin _
  apply ensures_ite (fun _ => ensures_none)
  intro placed
  apply ensures_need (ensures_value reads)
  intro localVm _
  apply ensures_need (ensures_value reads)
  intro viewOffset _
  apply ensures_need (ensures_value reads)
  intro localEyeAngles _
  apply ensures_need (ensures_value reads)
  intro localTeam _
  apply ensures_done
  intro here found
  split at found
  · cases found
  · rename_i usable
    cases found
    constructor
    case pawn => exact present
    case team => exact not_not.mp fun bad => usable (.inr (.inr (.inr bad)))
    case position =>
      rw [Option.isSome_iff_ne_none]
      intro none
      rw [none] at placed
      exact placed rfl

theorem ensures_readRadarSceneSample (reads : ∀ q : Request, q.Reads → allowed q)
    {pawn sceneNode : Address} {oldOrigin : PositionRead} :
    Ensures allowed (fun scene => ∀ p ∈ scene.position, isValidPosition p = true)
      (readRadarSceneSample o pawn sceneNode oldOrigin) := by
  unfold readRadarSceneSample
  apply ensures_bind (P := fun _ => True)
  · exact ensures_ite (fun _ => ensures_done trivial) fun _ => ensures_tryRead reads
  · intro sceneOwner _
    apply ensures_bind (P := fun _ => True)
    · exact ensures_ite (fun _ => ensures_readPosition reads) fun _ => ensures_done trivial
    · intro absoluteOrigin _
      apply ensures_done
      intro p chosen
      exact (choosePosition_cases chosen).1

theorem ensures_readEnemy (reads : ∀ q : Request, q.Reads → allowed q) {liveTeam : UInt8}
    {health : Int} {position : Option WorldPosition} {yaw : Option Single}
    (valid : ∀ p ∈ position, isValidPosition p = true) :
    Ensures allowed (fun found => ∀ enemy ∈ found, enemy.pawnAddress = cp.pawnAddress ∧
        liveTeam ≠ here.team ∧ enemy.health = health ∧ isValidPosition enemy.position = true)
      (readEnemy o config here cp liveTeam health position yaw) := by
  unfold readEnemy
  apply ensures_ite (fun _ => ensures_none)
  intro wanted
  cases position with
  | none => exact ensures_none
  | some feetPos =>
    apply ensures_need (ensures_value reads)
    intro vOffset _
    apply ensures_ite (fun _ => ensures_none)
    intro _
    apply ensures_bind (P := fun _ => True)
    · exact ensures_ite (fun _ => ensures_tryRead reads) fun _ => ensures_done trivial
    · intro isSpotted _
      apply ensures_done
      rintro _ ⟨⟩
      exact ⟨rfl, fun same => wanted (.inr same), rfl, valid feetPos rfl⟩

theorem ensures_observe (reads : ∀ q : Request, q.Reads → allowed q) {capture : Bool} :
    Ensures allowed (fun found => ∀ seen ∈ found, Observed here cp seen)
      (observe o config here capture cp) := by
  unfold observe
  apply ensures_ite (fun _ => ensures_none)
  intro _
  apply ensures_need (ensures_value reads)
  intro livePawnHandle _
  apply ensures_ite (fun _ => ensures_none)
  intro handle
  apply ensures_need (ensures_value reads)
  intro health _
  apply ensures_need (ensures_value reads)
  intro lifeState _
  apply ensures_need (ensures_value reads)
  intro liveTeam _
  apply ensures_ite (fun _ => ensures_none)
  intro live
  rw [not_or, not_lt, not_not] at live
  apply ensures_bind (P := fun _ => True)
  · exact ensures_ite (fun _ => ensures_tryRead reads) fun _ => ensures_done trivial
  intro sampledPawnAlive _
  apply ensures_bind (ensures_readAs reads)
  intro gameSceneNode _
  apply ensures_bind (P := fun _ => True)
  · exact ensures_ite (fun _ => ensures_done trivial) fun _ => ensures_tryRead reads
  intro sampledDormant _
  apply ensures_bind (P := fun _ => True)
  · exact ensures_ite (fun _ => ensures_done trivial) fun _ => ensures_readPosition reads
  intro oldOrigin _
  apply ensures_bind (P := fun scene => ∀ p ∈ scene.position, isValidPosition p = true)
  · apply ensures_ite (fun _ => ensures_readRadarSceneSample reads)
    intro _
    apply ensures_done
    intro p member
    cases member
  intro radarScene placed
  apply ensures_bind (P := fun _ => True)
  · exact ensures_ite (fun _ => ensures_tryRead reads) fun _ => ensures_done trivial
  intro eyeAngles _
  have turned : ∀ y ∈ (eyeAngles.filter isFiniteVec3).map Vector3.y, isfinite y := by
    intro y member
    obtain ⟨angles, kept, same⟩ := Option.map_eq_some_iff.mp member
    have finite := (Option.mem_filter_iff.mp kept).2
    rw [isFiniteVec3, decide_eq_true_eq] at finite
    rw [← same]
    exact finite.2.1
  have chosen : ∀ p ∈ choosePosition {} oldOrigin, isValidPosition p = true :=
    fun p member => (choosePosition_cases member).1
  apply ensures_bind (P := fun found : Option EnemyInfo => ∀ enemy ∈ found,
    decide (0 < health.toInt ∧ lifeState = 0 ∧ sampledPawnAlive.getD cp.alive = true) = true ∧
      enemy.pawnAddress = cp.pawnAddress ∧ liveTeam ≠ here.team ∧ enemy.health = health.toInt ∧
      isValidPosition enemy.position = true)
  · apply ensures_ite
    · intro active
      apply ensures_imp (ensures_readEnemy reads chosen)
      intro found each enemy member
      exact ⟨decide_eq_true active.1, each enemy member⟩
    · exact fun _ => ensures_none
  intro enemy opposing
  apply ensures_done
  rintro _ ⟨⟩
  constructor
  case handle => exact not_not.mp handle
  case team => exact live.2
  case health => exact live.1
  case living => exact fun alive => (of_decide_eq_true alive).1
  case position => exact placed
  case yaw => exact turned
  case enemy =>
    intro e member
    obtain ⟨alive, pawn, team, same, valid⟩ := opposing e member
    exact ⟨pawn, alive, team, same, valid⟩

end Rules

end RadarSampler
