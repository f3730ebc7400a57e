import GameSecurity.RadarSnapshots

/- Every update keeps the sampler sound, so every run does. -/
namespace RadarSampler
open Asking AsciiText EntityCache GameMemory MaximalRuns RadarPlayerSample Runs
open TeleportMailbox (Single Vector3 isfinite magnitude perUnit)
open FixedMapRadar (isPlaying)

/-- What the world entities and the bomb leave as it is. -/
structure Beside (s t : Runtime) : Prop where
  pawns : t.cachedPawns = s.cachedPawns
  enemies : t.enemies = s.enemies
  samples : t.radarPlayerLastKnownSamples = s.radarPlayerLastKnownSamples
  journal : t.journal = s.journal
  localPawn : t.radarSamplingLocalPawn = s.radarSamplingLocalPawn
  mapId : t.radarSamplingMapId = s.radarSamplingMapId
  map : t.cachedMapState = s.cachedMapState
  midway : Midway s t

theorem Beside.refl (s : Runtime) : Beside s s := ⟨rfl, rfl, rfl, rfl, rfl, rfl, rfl, .refl s⟩

theorem Beside.trans {s t u : Runtime} (first : Beside s t) (second : Beside t u) :
    Beside s u where
  pawns := second.pawns.trans first.pawns
  enemies := second.enemies.trans first.enemies
  samples := second.samples.trans first.samples
  journal := second.journal.trans first.journal
  localPawn := second.localPawn.trans first.localPawn
  mapId := second.mapId.trans first.mapId
  map := second.map.trans first.map
  midway := first.midway.trans second.midway

theorem Beside.tracks {s t : Runtime} (beside : Beside s t) (tracks : Tracks s) : Tracks t := by
  constructor
  · rw [beside.samples, beside.journal]
    exact tracks.samples
  · rw [beside.journal, beside.mapId, beside.localPawn]
    exact tracks.last

section Rules

variable {allowed : Request → Prop} {o : ClientDll} {config : RuntimeConfig} {modBase : Address}
  {s : Runtime}

theorem filter_valid {position : Option Vector3} :
    ∀ p ∈ position.filter isFiniteVec3, isValidPosition p = true := by
  intro p member
  rw [← isFiniteVec3_eq]
  exact (Option.mem_filter_iff.mp member).2

theorem ensures_readWorldEntity (reads : ∀ q : Request, q.Reads → allowed q)
    {entityList : Address} {index : Nat} :
    Ensures allowed (fun _ => True) (readWorldEntity o config entityList index) := by
  unfold readWorldEntity
  apply ensures_bind (ensures_entityAddress reads _)
  intro entity _
  apply ensures_ite (fun _ => ensures_done trivial)
  intro _
  apply ensures_bind (ensures_readAs reads)
  intro identity _
  apply ensures_ite (fun _ => ensures_done trivial)
  intro _
  apply ensures_bind (ensures_readAs reads)
  intro namePointer _
  apply ensures_ite (fun _ => ensures_done trivial)
  intro _
  apply ensures_imp (P := fun found => ∀ v ∈ found, True)
  · apply ensures_need (ensures_readRaw reads)
    intro className _
    apply ensures_bind (P := fun _ => True)
    · exact ensures_ite (fun _ => ensures_readAs reads) fun _ => ensures_done trivial
    · exact fun _ _ => ensures_done fun _ _ => trivial
  · exact fun _ _ => trivial

theorem ensures_refreshWorldEntityCache (reads : ∀ q : Request, q.Reads → allowed q) :
    Ensures allowed (fun _ => True) (refreshWorldEntityCache o modBase config) := by
  unfold refreshWorldEntityCache
  apply ensures_bind (ensures_readAs reads)
  intro entityList _
  apply ensures_ite (fun _ => ensures_done trivial)
  intro _
  apply ensures_bind (ensures_readAs reads)
  intro gameEntitySystem _
  apply ensures_bind (P := fun _ => True)
  · exact ensures_ite (fun _ => ensures_done trivial) fun _ => ensures_readAs reads
  · intro sampledHighestIndex _
    apply ensures_imp (ensures_collect (R := fun _ _ => True) fun index _ => ?_)
    · exact fun _ _ => trivial
    · exact ensures_imp (ensures_readWorldEntity reads) fun _ _ _ _ => trivial

theorem ensures_locate (reads : ∀ q : Request, q.Reads → allowed q) {entityList : Address}
    {cached : CachedWorldEntity} :
    Ensures allowed (fun found => ∀ entity ∈ found, isValidPosition entity.position = true)
      (locate o entityList cached) := by
  unfold locate
  apply ensures_bind (ensures_entityAddress reads _)
  intro entity _
  apply ensures_ite (fun _ => ensures_none)
  intro _
  apply ensures_bind (ensures_readAs reads)
  intro sceneNode _
  apply ensures_ite (fun _ => ensures_none)
  intro _
  apply ensures_bind (ensures_tryRead reads)
  intro position _
  apply ensures_done
  intro found member
  obtain ⟨p, kept, same⟩ := Option.map_eq_some_iff.mp member
  rw [← same]
  exact filter_valid p kept

theorem beside_world {entities : List CachedWorldEntity} {shown : List WorldEntityInfo}
    {discovery refresh bombRefresh : Nat} {info : BombInfo} {loose : Option WorldPosition}
    (bomb : (∀ p ∈ s.bombInfo.position, isValidPosition p = true) →
      ∀ p ∈ info.position, isValidPosition p = true)
    (dropped : (∀ p ∈ s.droppedBombPosition, isValidPosition p = true) →
      ∀ p ∈ loose, isValidPosition p = true) :
    Beside s { s with
      cachedWorldEntities := entities, worldEntities := shown
      lastWorldDiscovery := discovery, lastWorldPositionRefresh := refresh
      bombInfo := info, lastBombRefresh := bombRefresh, droppedBombPosition := loose } where
  pawns := rfl
  enemies := rfl
  samples := rfl
  journal := rfl
  localPawn := rfl
  mapId := rfl
  map := rfl
  midway := ⟨rfl, rfl, ⟨[], (List.append_nil _).symm⟩, bomb, dropped⟩

theorem ensures_updateWorldEntityPositions (reads : ∀ q : Request, q.Reads → allowed q) :
    Ensures allowed (Beside s) (s.updateWorldEntityPositions o modBase) := by
  unfold Runtime.updateWorldEntityPositions
  apply ensures_bind (ensures_readAs reads)
  intro entityList _
  apply ensures_bind (P := fun located : List WorldEntityInfo =>
    ∀ entity ∈ located, isValidPosition entity.position = true)
  · apply ensures_ite
    · intro _
      apply ensures_done
      intro entity member
      cases member
    · intro _
      apply ensures_imp (@ensures_collect _ _ _ _ allowed (locate o entityList)
        (fun _ entity => isValidPosition entity.position = true) _
        fun _ _ => ensures_locate reads)
      rintro located ⟨kept, -, related⟩
      intro entity member
      induction related with
      | nil => cases member
      | cons first _ ih =>
        rcases List.mem_cons.mp member with here | later
        · rw [here]
          exact first
        · exact ih later
  · intro located valid
    apply ensures_done
    apply beside_world id
    intro _ p member
    obtain ⟨entity, last, same⟩ := Option.map_eq_some_iff.mp member
    rw [← same]
    exact valid entity (List.mem_of_mem_filter (List.mem_of_getLast? last))

theorem ensures_updateWorld (reads : ∀ q : Request, q.Reads → allowed q) {updateNow : Nat} :
    Ensures allowed (Beside s) (s.updateWorld o modBase config updateNow) := by
  unfold Runtime.updateWorld
  apply ensures_ite
  · intro _
    apply ensures_done
    split
    · apply beside_world id
      intro _ p member
      cases member
    · exact .refl s
  · intro _
    apply ensures_bind (P := fun _ => True)
    · apply ensures_ite
      · intro _
        exact ensures_map (ensures_refreshWorldEntityCache reads)
      · exact fun _ => ensures_done trivial
    · intro found _
      cases found with
      | none =>
        apply ensures_ite
        · intro _
          apply ensures_imp (ensures_updateWorldEntityPositions reads)
          exact fun t beside => (beside_world id id).trans beside
        · exact fun _ => ensures_done (.refl s)
      | some entities =>
        apply ensures_ite
        · intro _
          apply ensures_imp (ensures_updateWorldEntityPositions reads)
          exact fun t beside => (beside_world id id).trans beside
        · exact fun _ => ensures_done (beside_world id id)

theorem ensures_readBombInfo (reads : ∀ q : Request, q.Reads → allowed q) :
    Ensures allowed (fun info => ∀ i ∈ info, ∀ p ∈ i.position, isValidPosition p = true)
      (readBombInfo o modBase) := by
  have nothing : Ensures allowed (fun info : Option BombInfo =>
      ∀ i ∈ info, ∀ p ∈ i.position, isValidPosition p = true)
      (pure (some {}) : Remote (Option BombInfo)) := by
    apply ensures_done
    rintro _ ⟨⟩ p member
    cases member
  unfold readBombInfo
  apply ensures_bind (ensures_readAs reads)
  intro plantedC4List _
  apply ensures_ite (fun _ => nothing)
  intro _
  apply ensures_bind (ensures_readAs reads)
  intro plantedC4 _
  apply ensures_ite (fun _ => nothing)
  intro _
  apply ensures_need (ensures_value reads)
  intro ticking _
  apply ensures_need (ensures_value reads)
  intro hasExploded _
  apply ensures_need (ensures_value reads)
  intro isDefused _
  apply ensures_ite (fun _ => nothing)
  intro _
  apply ensures_bind (ensures_readAs reads)
  intro sceneNode _
  apply ensures_bind (P := fun _ => True)
  · exact ensures_ite (fun _ => ensures_done trivial) fun _ => ensures_tryRead reads
  · intro position _
    apply ensures_done
    rintro _ ⟨⟩
    exact filter_valid

theorem ensures_updateBomb (reads : ∀ q : Request, q.Reads → allowed q) {updateNow : Nat}
    {capture : Bool} :
    Ensures allowed (Beside s) (s.updateBomb o modBase config updateNow capture) := by
  unfold Runtime.updateBomb
  apply ensures_ite
  · intro _
    apply ensures_done
    split
    · apply beside_world _ id
      intro _ p member
      cases member
    · exact .refl s
  · intro _
    apply ensures_ite (fun _ => ensures_done (.refl s))
    intro _
    apply ensures_bind (ensures_readBombInfo reads)
    intro info valid
    apply ensures_done
    apply beside_world _ id
    intro before
    cases info with
    | none => exact before
    | some i => exact valid i rfl

end Rules

theorem shown_told (prior : List Capture) {now : Capture} {earlier : List Call} {mine : Call}
    (within : ∀ c ∈ earlier, c ∈ now.calls) (own : mine ∈ now.calls) :
    let shown := shownSample now.mapId (samplesAfter (prior.flatMap Capture.acts)) earlier mine
    Told Call.currentPosition (prior ++ [now]) mine shown.position ∧
      Told Call.currentYaw (prior ++ [now]) mine shown.yaw ∧
      ((∀ p ∈ mine.currentPosition, isValidPosition p = true) →
        ∀ p ∈ shown.position, isValidPosition p = true) := by
  intro shown
  have itself {α : Type} {sample : Call → Option α} :
      Told sample (prior ++ [now]) mine (sample mine) := by
    intro v value
    refine ⟨now, List.mem_append_right _ List.mem_cons_self, mine, own, value, ?_, ?_, ?_⟩
    · simp [hasSameStableIdentity]
    · simp [hasConflictingSteamIdentity]
    · simp [kLastKnownMaximumAgeMs]
  by_cases empty : now.mapId = noMap
  · have current : shown = ⟨mine.currentPosition, mine.currentYaw⟩ := if_pos empty
    rw [current]
    exact ⟨itself, itself, fun valid => valid⟩
  · have retained : shown = (retainPlayerSample ((((earlier.map Act.sample).foldl Samples.step
        (samplesAfter (prior.flatMap Capture.acts))) mine.identity.playerId).getD {}) mine).2 :=
      if_neg empty
    rw [retained]
    have position := shownSample_told positionChannel prior within own
    have yaw := shownSample_told yawChannel prior within own
    refine ⟨fun v member => ?_, fun v member => ?_, fun _ p member => ?_⟩
    · obtain ⟨capture, kept, call, called, value, rest⟩ := position v member
      exact ⟨capture, kept, call, called, (Option.mem_filter_iff.mp value).1, rest⟩
    · obtain ⟨capture, kept, call, called, value, rest⟩ := yaw v member
      exact ⟨capture, kept, call, called, (Option.mem_filter_iff.mp value).1, rest⟩
    · obtain ⟨capture, kept, call, called, value, rest⟩ := position p member
      exact (Option.mem_filter_iff.mp value).2

theorem snapshotTeam_playing {team : UInt8} (valid : validTeam team = true) :
    isPlaying (snapshotTeam team) = true := by
  rcases of_decide_eq_true valid with is | is <;>
  · rw [is]
    decide

/-- A snapshot that shows what one capture has gathered. -/
structure Gathering (here : LocalSample) (prior : List Capture) (now : Capture)
    (seen : List (CachedPawn × Observation)) (frame : Frame) : Prop where
  cached : ∃ config, config.radarSnapshotEnabled = true ∧
    ∃ pawns, Cached config pawns ∧ (seen.map Prod.fst).Sublist pawns
  observed : ∀ entry ∈ seen, Observed here entry.1 entry.2
  calls : now.calls = frame.calls
  gathered : Gathered now.mapId now.nowMs (samplesAfter (prior.flatMap Capture.acts)) seen frame

section Gathering

variable {here : LocalSample} {prior : List Capture} {now : Capture}
  {seen : List (CachedPawn × Observation)} {frame : Frame}

theorem Gathering.player (g : Gathering here prior now seen frame) {player : PlayerSnapshot}
    (member : player ∈ frame.players) : ∃ entry ∈ seen, ∃ earlier : List Call,
      (∀ c ∈ earlier, c ∈ frame.calls) ∧ player = snapshotPlayer entry.1 entry.2
        (shownSample now.mapId (samplesAfter (prior.flatMap Capture.acts)) earlier
          (sighting now.nowMs entry.1 entry.2)) := by
  have related := g.gathered.players
  generalize frame.players = players at related member
  clear g
  induction related with
  | nil => cases member
  | cons first _ ih =>
    rcases List.mem_cons.mp member with same | later
    · obtain ⟨earlier, within, is⟩ := first
      exact ⟨_, List.mem_cons_self, earlier, within, same.trans is⟩
    · obtain ⟨entry, kept, rest⟩ := ih later
      exact ⟨entry, List.mem_cons_of_mem _ kept, rest⟩

theorem Gathering.shown (g : Gathering here prior now seen frame)
    {entry : CachedPawn × Observation} (member : entry ∈ seen) :
    ∃ player ∈ frame.players, player.id = entry.1.playerId ∧ player.alive = entry.2.alive ∧
      player.hasBomb = entry.1.hasBomb := by
  have related := g.gathered.players
  generalize frame.players = players at related
  clear g
  induction related with
  | nil => cases member
  | cons first _ ih =>
    rcases List.mem_cons.mp member with same | later
    · obtain ⟨earlier, -, is⟩ := first
      refine ⟨_, List.mem_cons_self, ?_⟩
      rw [is, same]
      exact ⟨rfl, rfl, rfl⟩
    · obtain ⟨player, kept, rest⟩ := ih later
      exact ⟨player, List.mem_cons_of_mem _ kept, rest⟩

theorem Gathering.ids (g : Gathering here prior now seen frame) :
    frame.players.map PlayerSnapshot.id = (seen.map Prod.fst).map CachedPawn.playerId := by
  have related := g.gathered.players
  generalize frame.players = players at related
  clear g
  induction related with
  | nil => rfl
  | cons first _ ih =>
    obtain ⟨earlier, -, is⟩ := first
    rw [List.map_cons, List.map_cons, List.map_cons, ih, is]
    rfl

theorem Gathering.called (g : Gathering here prior now seen frame)
    {entry : CachedPawn × Observation} (member : entry ∈ seen) :
    sighting now.nowMs entry.1 entry.2 ∈ now.calls := by
  rw [g.calls, g.gathered.calls]
  exact List.mem_map_of_mem member

theorem Gathering.describes (g : Gathering here prior now seen frame) :
    List.Forall₂ (Describes (prior ++ [now])) now.calls frame.players := by
  rw [g.calls, g.gathered.calls, List.forall₂_map_left_iff]
  have members : ∀ entry ∈ seen, sighting now.nowMs entry.1 entry.2 ∈ now.calls :=
    fun _ member => g.called member
  have within : ∀ c ∈ frame.calls, c ∈ now.calls := fun c member => by rwa [g.calls]
  have related := g.gathered.players
  generalize frame.players = players at related
  clear g
  induction related with
  | nil => exact .nil
  | cons first _ ih =>
    apply List.Forall₂.cons
    · obtain ⟨earlier, before, is⟩ := first
      rw [is]
      obtain ⟨position, yaw, -⟩ := shown_told prior
        (fun c member => within c (before c member)) (members _ List.mem_cons_self)
      exact ⟨rfl, rfl, rfl, position, yaw⟩
    · exact ih fun entry member => members entry (List.mem_cons_of_mem _ member)

theorem Gathering.wellFormed (g : Gathering here prior now seen frame) :
    (frame.players.map PlayerSnapshot.id).Nodup ∧ ∀ player ∈ frame.players, player.WellFormed := by
  obtain ⟨config, radar, pawns, cached, sub⟩ := g.cached
  obtain ⟨distinct, slots⟩ := cached_distinct cached radar
  constructor
  · rw [g.ids]
    exact (sub.map _).nodup distinct
  · intro player member
    obtain ⟨⟨cp, obs⟩, kept, earlier, within, is⟩ := g.player member
    have pawn : cp ∈ pawns := sub.subset (List.mem_map_of_mem (f := Prod.fst) kept)
    obtain ⟨slot, known⟩ := cached_known cached pawn
    have observed := g.observed (cp, obs) kept
    obtain ⟨-, -, valid⟩ := shown_told prior
      (fun c before => by rw [g.calls]; exact within c before) (g.called kept)
    rw [is]
    constructor
    case slot => exact slots cp pawn
    case named => exact known.named radar
    case team =>
      apply snapshotTeam_playing
      rw [observed.team]
      exact known.team
    case living =>
      intro alive
      change obs.alive = true at alive
      change 0 < (if obs.alive then obs.health else 0) ∧ (if obs.alive then obs.health else 0) ≤ 200
      rw [if_pos alive]
      exact ⟨observed.living alive, observed.health⟩
    case dead =>
      intro dead
      change obs.alive = false at dead
      change (if obs.alive then obs.health else 0) = 0
      rw [dead]
      rfl
    case position => exact valid observed.position
    case inventory => exact known.inventory
    case bomb => exact known.bomb

end Gathering

theorem bomb_wellFormed {s : Runtime} {players : List PlayerSnapshot} {bombCarrierId : Option Nat}
    (bomb : ∀ p ∈ s.bombInfo.position, isValidPosition p = true)
    (dropped : ∀ p ∈ s.droppedBombPosition, isValidPosition p = true)
    (carrier : ∀ id ∈ bombCarrierId, ∃ player ∈ players, player.id = id ∧ player.hasBomb = true) :
    (s.bomb bombCarrierId).WellFormed players := by
  unfold Runtime.bomb
  by_cases planted : s.bombInfo.isPlanted = true
  · rw [if_pos planted]
    have state : ∀ x : BombState, x = (if s.bombInfo.hasExploded then .exploded
        else if s.bombInfo.isDefused then .defused else .planted) →
        x ≠ .unknown ∧ x ≠ .carried ∧ x ≠ .dropped := by
      rintro x rfl
      split_ifs <;> decide
    obtain ⟨known, loose, picked⟩ := state _ rfl
    constructor
    case carried => exact ⟨fun is => absurd is loose, fun is => (by cases is)⟩
    case carrier => exact fun _ member => by cases member
    case placed => exact fun p member => ⟨bomb p member, known, loose⟩
    case dropped => exact fun is => absurd is picked
  · rw [if_neg planted]
    by_cases carried : bombCarrierId.isSome = true
    · rw [if_pos carried]
      constructor
      case carried => exact ⟨fun _ => carried, fun _ => rfl⟩
      case carrier => exact carrier
      case placed => exact fun _ member => by cases member
      case dropped => exact fun is => by cases is
    · rw [if_neg carried]
      by_cases loose : s.droppedBombPosition.isSome = true
      · rw [if_pos loose]
        constructor
        case carried => exact ⟨fun is => (by cases is), fun is => (by cases is)⟩
        case carrier => exact fun _ member => by cases member
        case placed => exact fun p member => ⟨dropped p member, fun is => (by cases is),
            fun is => (by cases is)⟩
        case dropped => exact fun _ => loose
      · rw [if_neg loose]
        constructor
        case carried => exact ⟨fun is => (by cases is), fun is => (by cases is)⟩
        case carrier => exact fun _ member => by cases member
        case placed => exact fun _ member => by cases member
        case dropped => exact fun is => by cases is

/-- A published snapshot is good, and of the era that its capture has gone on with. -/
theorem publish_sound {s t : Runtime} {here : LocalSample} {prior : List Capture} {now : Capture}
    {seen : List (CachedPawn × Observation)} {frame : Frame} {wallMs : Nat} (sound : Sound s)
    (midway : Midway s t) (ready : Ready here)
    (cached : ∃ config, Cached config t.cachedPawns) (tracks : Tracks t)
    (open_ : era t.journal = prior ++ [now])
    (map : t.cachedMapState.id = now.mapId) (g : Gathering here prior now seen frame) :
    Sound (t.publish here wallMs frame) := by
  have bombs := midway.bomb sound.bomb
  have drops := midway.dropped sound.dropped
  have playing := snapshotTeam_playing ready.team
  obtain ⟨distinct, players⟩ := g.wellFormed
  constructor
  case cached => exact cached
  case tracks => exact ⟨tracks.samples, tracks.last⟩
  case bomb => exact bombs
  case dropped => exact drops
  case sequence => rfl
  case snapshot =>
    constructor
    case distinct => exact distinct
    case players => exact players
    case localPlayer =>
      intro id member
      obtain ⟨entry, kept, same⟩ := g.gathered.localPlayer id member
      obtain ⟨player, here, is, -⟩ := g.shown kept
      exact ⟨player, here, is.trans same⟩
    case observed =>
      intro id member
      obtain ⟨entry, kept, same, alive⟩ := g.gathered.observed id member
      obtain ⟨player, here, is, lives, -⟩ := g.shown kept
      exact ⟨player, here, is.trans same, lives.trans alive⟩
    case bomb =>
      apply bomb_wellFormed bombs drops
      intro id member
      obtain ⟨entry, kept, same, carries⟩ := g.gathered.carrier id member
      obtain ⟨player, here, is, -, has⟩ := g.shown kept
      exact ⟨player, here, is.trans same, has.trans carries⟩
    case connected => exact fun _ => playing
    case disconnected => exact fun is => (by cases is)
  case oneEra =>
    intro _
    have suffix : ∃ before, t.journal = before ++ (era t.journal).map some :=
      openRun_suffix t.journal
    obtain ⟨before, whole⟩ := suffix
    have last : (prior ++ [now]).getLast? = some now := List.getLast?_concat
    have same : SameEra (prior ++ [now]) := by
      rw [← open_]
      exact era_sameEra _
    refine ⟨before, prior ++ [now], now, [], ?_, last, sameEra_all same last,
      sameEra_named same last, map, g.describes⟩
    rw [← open_, List.append_nil]
    exact whole

section Updates

variable {allowed : Request → Prop} {o : ClientDll} {config : RuntimeConfig} {modBase : Address}
  {here : LocalSample} {now : Moment} {s t : Runtime}

theorem gathered_opposed {config' : RuntimeConfig} {pawns : List CachedPawn}
    {seen : List (CachedPawn × Observation)} (cached : Cached config' pawns) (ready : Ready here)
    (observed : Seen here pawns seen) (same : s.cachedPawns = pawns)
    (enemies : s.enemies = seen.filterMap fun entry => entry.2.enemy) :
    Opposed (some here.team) s := by
  obtain ⟨team, valid, apart, kept, sub, related⟩ := seen_opposed cached ready.team observed
  refine ⟨team, valid, fun _ => ⟨here.team, rfl, apart⟩, kept, ?_, ?_⟩
  · rw [same]
    exact sub
  · rw [enemies]
    exact related

theorem ensures_conclude (reads : ∀ q : Request, q.Reads → allowed q) {capture : Bool}
    {frame : Frame} {wanted : Runtime → Prop}
    (each : ∀ u, Beside t u → wanted (if capture then u.publish here now.wallMs frame else u)) :
    Ensures allowed wanted (t.conclude o modBase config now here capture frame) := by
  unfold Runtime.conclude
  apply ensures_bind (ensures_updateWorld reads)
  intro explored first
  apply ensures_bind (ensures_updateBomb reads)
  intro complete second
  exact ensures_done (each complete (first.trans second))

theorem ensures_survey (reads : ∀ q : Request, q.Reads → allowed q) {capture : Bool}
    (sound : Sound s) (midway : Midway s t) (prepared : Prepared config here.pawn t)
    (ready : Ready here) (radar : capture = true → config.radarSnapshotEnabled = true) :
    Ensures allowed (fun u => Sound u ∧ Follows s u ∧ Opposed (some here.team) u)
      (t.survey o modBase config now here capture) := by
  unfold Runtime.survey
  obtain ⟨config', for_, cached⟩ := prepared.cached
  cases capture with
  | false =>
    apply ensures_bind (P := fun aimed => aimed = (t, none))
    · exact ensures_ite (fun is => (by cases is)) fun _ => ensures_done rfl
    rintro _ rfl
    apply ensures_bind (ensures_observeAll reads)
    intro seen observed
    apply ensures_conclude reads
    intro u beside
    have recorded : Midway t (t.record now here false none seen) :=
      .of_same rfl rfl rfl rfl rfl
    have onward := (midway.trans recorded).trans beside.midway
    have kept : Sound u := by
      apply Midway.sound sound onward
      · rw [beside.pawns]
        exact ⟨config', cached⟩
      · exact beside.tracks ⟨prepared.tracks.samples, prepared.tracks.last⟩
    exact ⟨kept, onward.follows,
      gathered_opposed cached ready observed beside.pawns beside.enemies⟩
  | true =>
    apply ensures_bind (P := fun aimed => Ahead here.pawn t aimed.1)
    · exact ensures_ite (fun _ => ensures_captureMap reads prepared.tracks prepared.ofPawn
        ready.pawn) fun is => absurd rfl is
    intro aimed ahead
    apply ensures_bind (ensures_observeAll reads)
    intro seen observed
    apply ensures_conclude reads
    intro u beside
    -- The capture of this update, and the era it goes on with.
    let frame := aimed.1.gather aimed.2 now.ms seen
    let capture : Capture := ⟨aimed.1.cachedMapState.id, here.pawn, now.ms, frame.calls⟩
    obtain ⟨prior, open_, start⟩ := ahead.aimed capture rfl rfl
    rw [ahead.pawns] at observed
    have identified : ∀ entry ∈ seen, entry.1.playerId ≠ 0 := by
      intro entry member
      obtain ⟨slot, low, high, same⟩ := (cached_distinct cached (for_ (radar rfl))).2 entry.1
        (observed.1.subset (List.mem_map_of_mem member))
      rw [same, makeOpaquePlayerId_eq high]
      omega
    have gathered := gather_gathered (s := aimed.1) aimed.2 now.ms identified
    have tracks := keepSamples_tracks ahead.aimed ahead.map ahead.ofPawn gathered
    rw [start] at gathered
    have recorded : Midway aimed.1 (aimed.1.record now here true aimed.2 seen) :=
      ⟨rfl, rfl, ⟨[some capture], rfl⟩, id, id⟩
    have journal : u.journal = aimed.1.journal ++ [some capture] := beside.journal
    have onward := ((midway.trans ahead.midway).trans recorded).trans beside.midway
    have next : u.snapshotSequence + 1 = s.snapshotSequence + 1 := by rw [onward.sequence]
    have pawns : u.cachedPawns = t.cachedPawns := beside.pawns.trans ahead.pawns
    refine ⟨?_, .inr next, ?_⟩
    case refine_2 => exact gathered_opposed cached ready observed pawns beside.enemies
    apply publish_sound sound onward ready
    · rw [pawns]
      exact ⟨config', cached⟩
    · exact beside.tracks ⟨tracks.samples, tracks.last⟩
    · rw [journal, open_]
    · rw [beside.map]
      rfl
    · exact ⟨⟨config', for_ (radar rfl), t.cachedPawns, cached, observed.1⟩, observed.2, rfl,
        gathered⟩

theorem ensures_refresh (reads : ∀ q : Request, q.Reads → allowed q) (sound : Sound s)
    (ready : Ready here) :
    Ensures allowed (fun u => Sound u ∧ Follows s u ∧ Opposed (some here.team) u)
      ((({ s with consecutiveReadFailures := 0 } : Runtime).enterPawn config here.pawn).refresh o
        modBase config now here) := by
  unfold Runtime.refresh
  obtain ⟨tracks, ofPawn⟩ := enterPawn_tracks config here.pawn
    (s := { s with consecutiveReadFailures := 0 }) ⟨sound.tracks.samples, sound.tracks.last⟩
  have entered := enterPawn_midway { s with consecutiveReadFailures := 0 } config here.pawn
  have counted : Midway s { s with consecutiveReadFailures := 0 } :=
    .of_same rfl rfl rfl rfl rfl
  generalize entry : ({ s with consecutiveReadFailures := 0 } : Runtime).enterPawn config
    here.pawn = u at tracks ofPawn entered
  have pawns : u.cachedPawns = s.cachedPawns := by
    rw [← entry, Runtime.enterPawn]
    split
    · rfl
    · split <;> rfl
  have scheduled : Midway u (u.schedule config now.updateNow) :=
    .of_same rfl rfl rfl rfl rfl
  have cached : ∃ config, Cached config u.cachedPawns := by
    rw [pawns]
    exact sound.cached
  apply ensures_bind (ensures_refreshEntityCache (s := u.schedule config now.updateNow) reads
    cached ⟨tracks.samples, tracks.last⟩ ofPawn)
  rintro v ⟨prepared, refreshed⟩
  apply ensures_survey reads sound
    (((counted.trans entered).trans scheduled).trans refreshed) prepared ready
  intro due
  exact (of_decide_eq_true due).1

theorem recordUpdateFailure_sound (sound : Sound s) (wallMs : Nat) :
    Sound (s.recordUpdateFailure wallMs) ∧ Follows s (s.recordUpdateFailure wallMs) := by
  unfold Runtime.recordUpdateFailure
  split
  · exact ⟨clearRuntimeState_sound wallMs, .inr rfl⟩
  · exact ⟨⟨sound.cached, ⟨sound.tracks.samples, sound.tracks.last⟩, sound.bomb,
      sound.dropped, sound.sequence, sound.snapshot, sound.oneEra⟩, .inl ⟨rfl, rfl⟩⟩

/-- Whatever an update reads, it leaves a sound sampler. -/
theorem ensures_updateEntities (sound : Sound s) :
    Ensures (fun _ => True) (fun t => Sound t ∧ Follows s t)
      (updateEntities o modBase config now s) := by
  unfold updateEntities
  apply ensures_bind (ensures_readLocal fun _ _ => trivial)
  intro found ready
  cases found with
  | none => exact ensures_done (recordUpdateFailure_sound sound now.wallMs)
  | some here =>
    apply ensures_bind (P := fun _ => True)
    · apply ensures_ite
      · exact fun _ => ensures_tryWriteRaw trivial
      · exact fun _ => ensures_done trivial
    · intro _ _
      apply ensures_imp (ensures_refresh (fun _ _ => trivial) sound (ready here rfl))
      exact fun _ ends => ⟨ends.1, ends.2.1⟩

end Updates

theorem sound_apply {o : ClientDll} {s : Runtime} (sound : Sound s) (input : Input) :
    Sound (input.apply o s) ∧ Follows s (input.apply o s) := by
  cases input with
  | clear wallMs => exact ⟨clearRuntimeState_sound wallMs, .inr rfl⟩
  | update modBase config now world => exact (ensures_run (ensures_updateEntities sound) world 0).1

theorem sampler_sound {o : ClientDll} {s : Runtime} (reach : (sampler o).Reachable s) :
    Sound s := by
  apply reachable_invariant (sampler o) _ reach
  constructor
  case start =>
    rintro s rfl
    exact start_sound
  case kept =>
    intro s input t sound taken
    cases Option.some.inj taken
    exact (sound_apply sound input).1

end RadarSampler
