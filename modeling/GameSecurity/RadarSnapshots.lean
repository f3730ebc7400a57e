import GameSecurity.RadarEras
import GameSecurity.Runs

/- What the sampler shows in any run, whatever the game's memory holds at any read. -/
namespace RadarSampler
open Asking AsciiText EntityCache GameMemory MaximalRuns RadarPlayerSample Runs
open TeleportMailbox (Single Vector3 isfinite magnitude perUnit)
open FixedMapRadar (isPlaying)

/-- An update with what the game answers to each of its reads, or a clear by the owner of the
    thread. -/
inductive Input where
  | update (modBase : Address) (config : RuntimeConfig) (now : Moment)
      (world : Nat → (q : Request) → q.Reply)
  | clear (wallMs : Nat)

def Input.apply (o : ClientDll) (s : Runtime) : Input → Runtime
  | .update modBase config now world =>
    (Asking.run world 0 (updateEntities o modBase config now s)).1
  | .clear wallMs => clearRuntimeState wallMs s

def sampler (o : ClientDll) : Machine Runtime Input where
  init s := s = {}
  step s input := some (input.apply o s)

structure PlayerSnapshot.WellFormed (player : PlayerSnapshot) : Prop where
  slot : ∃ slot, 1 ≤ slot ∧ slot ≤ 64 ∧ player.id = makeOpaquePlayerId slot
  named : player.name ≠ []
  team : isPlaying player.team = true
  living : player.alive = true → 0 < player.health ∧ player.health ≤ 200
  dead : player.alive = false → player.health = 0
  position : ∀ p ∈ player.position, isValidPosition p = true
  inventory : player.inventory.length ≤ 32
  bomb : player.hasBomb = player.inventory.any fun weapon => weapon.category = .bomb

structure BombSnapshot.WellFormed (players : List PlayerSnapshot) (bomb : BombSnapshot) :
    Prop where
  carried : bomb.state = .carried ↔ bomb.carrierPlayerId.isSome = true
  carrier : ∀ id ∈ bomb.carrierPlayerId, ∃ player ∈ players, player.id = id ∧ player.hasBomb = true
  placed : ∀ p ∈ bomb.position,
    isValidPosition p = true ∧ bomb.state ≠ .unknown ∧ bomb.state ≠ .carried
  dropped : bomb.state = .dropped → bomb.position.isSome = true

/-- A snapshot whose parts fit together; without a game it is empty. -/
structure GameSnapshot.WellFormed (snapshot : GameSnapshot) : Prop where
  distinct : (snapshot.players.map PlayerSnapshot.id).Nodup
  players : ∀ player ∈ snapshot.players, player.WellFormed
  localPlayer : ∀ id ∈ snapshot.localPlayerId, ∃ player ∈ snapshot.players, player.id = id
  observed : ∀ id ∈ snapshot.observedPlayerId,
    ∃ player ∈ snapshot.players, player.id = id ∧ player.alive = true
  bomb : snapshot.bomb.WellFormed snapshot.players
  connected : snapshot.map.connected = true → isPlaying snapshot.localTeam = true
  disconnected : snapshot.map.connected = false →
    snapshot.players = [] ∧ snapshot.map = {} ∧ snapshot.bomb = {}

/-- A player as the captures of a run tell of him. -/
structure Describes (run : List Capture) (mine : Call) (player : PlayerSnapshot) : Prop where
  id : player.id = mine.identity.playerId
  alive : player.alive = mine.alive
  dormant : player.dormant = mine.dormant
  position : Told Call.currentPosition run mine player.position
  yaw : Told Call.currentYaw run mine player.yaw

/-- The snapshot's players are those of the last of a row of captures between which no era ends,
    all on one map and of one local pawn. -/
def OfOneEra (history : List (Option Capture)) (snapshot : GameSnapshot) : Prop :=
  ∃ older run now newer, history = older ++ run.map some ++ newer ∧ run.getLast? = some now ∧
    (∀ capture ∈ run, capture.mapId = now.mapId ∧ capture.localPawn = now.localPawn) ∧
    (1 < run.length → now.mapId ≠ noMap) ∧ snapshot.map.id = now.mapId ∧
    List.Forall₂ (Describes run) now.calls snapshot.players

structure Opponent (team : UInt8) (cp : CachedPawn) (enemy : EnemyInfo) : Prop where
  pawn : enemy.pawnAddress = cp.pawnAddress
  team : cp.team = team
  health : 0 < enemy.health ∧ enemy.health ≤ 200
  position : isValidPosition enemy.position = true

/-- The enemies are some of the cached pawns, in their order and all of one team, which is not
    the local player's. -/
def Opposed (localTeam : Option UInt8) (s : Runtime) : Prop :=
  ∃ team, validTeam team = true ∧ (s.enemies ≠ [] → ∃ own ∈ localTeam, own ≠ team) ∧
    ∃ kept : List CachedPawn,
      kept.Sublist s.cachedPawns ∧ List.Forall₂ (Opponent team) kept s.enemies

structure Sound (s : Runtime) : Prop where
  cached : ∃ config, Cached config s.cachedPawns
  tracks : Tracks s
  bomb : ∀ p ∈ s.bombInfo.position, isValidPosition p = true
  dropped : ∀ p ∈ s.droppedBombPosition, isValidPosition p = true
  sequence : s.gameSnapshot.sequence = s.snapshotSequence
  snapshot : s.gameSnapshot.WellFormed
  oneEra : s.gameSnapshot.map.connected = true → OfOneEra s.journal s.gameSnapshot

theorem ofOneEra_append {journal newer : List (Option Capture)} {snapshot : GameSnapshot}
    (ofEra : OfOneEra journal snapshot) : OfOneEra (journal ++ newer) snapshot := by
  obtain ⟨older, run, now, later, cut, rest⟩ := ofEra
  exact ⟨older, run, now, later ++ newer, by rw [cut, List.append_assoc], rest⟩

theorem empty_wellFormed {sequence capturedAtMs : Nat} :
    GameSnapshot.WellFormed { sequence, capturedAtMs } where
  distinct := .nil
  players _ member := by cases member
  localPlayer _ member := by cases member
  observed _ member := by cases member
  bomb := {
    carried := ⟨fun is => (by cases is), fun is => (by cases is)⟩
    carrier := fun _ member => by cases member
    placed := fun _ member => by cases member
    dropped := fun is => by cases is }
  connected is := by cases is
  disconnected _ := ⟨rfl, rfl, rfl⟩

theorem cached_nil (config : RuntimeConfig) : Cached config [] := ⟨[], List.nil_sublist _, .nil⟩

theorem opposed_nil {localTeam : Option UInt8} {s : Runtime} (none : s.enemies = []) :
    Opposed localTeam s := by
  refine ⟨2, rfl, fun some_ => absurd none some_, [], List.nil_sublist _, ?_⟩
  rw [none]
  exact .nil

theorem clearRuntimeState_sound {s : Runtime} (wallMs : Nat) :
    Sound (clearRuntimeState wallMs s) where
  cached := ⟨{}, cached_nil {}⟩
  tracks := tracks_begin (era_forgot _) rfl
  bomb _ member := by cases member
  dropped _ member := by cases member
  sequence := rfl
  snapshot := empty_wellFormed
  oneEra connected := by cases connected

theorem validTeam_other {team : UInt8} (valid : validTeam team = true) :
    ∃ other, validTeam other = true ∧ team ≠ other ∧
      ∀ t, validTeam t = true → t ≠ team → t = other := by
  simp only [validTeam, decide_eq_true_eq] at valid ⊢
  rcases valid with rfl | rfl
  · exact ⟨3, .inr rfl, by decide, fun t known differs => known.resolve_left differs⟩
  · exact ⟨2, .inl rfl, by decide, fun t known differs => known.resolve_right differs⟩

theorem start_sound : Sound {} where
  cached := ⟨{}, cached_nil {}⟩
  tracks := tracks_begin rfl rfl
  bomb _ member := by cases member
  dropped _ member := by cases member
  sequence := rfl
  snapshot := empty_wellFormed
  oneEra connected := by cases connected

structure Midway (s t : Runtime) : Prop where
  snapshot : t.gameSnapshot = s.gameSnapshot
  sequence : t.snapshotSequence = s.snapshotSequence
  journal : ∃ newer, t.journal = s.journal ++ newer
  bomb : (∀ p ∈ s.bombInfo.position, isValidPosition p = true) →
    ∀ p ∈ t.bombInfo.position, isValidPosition p = true
  dropped : (∀ p ∈ s.droppedBombPosition, isValidPosition p = true) →
    ∀ p ∈ t.droppedBombPosition, isValidPosition p = true

theorem Midway.of_same {s t : Runtime} (snapshot : t.gameSnapshot = s.gameSnapshot)
    (sequence : t.snapshotSequence = s.snapshotSequence) (journal : t.journal = s.journal)
    (bomb : t.bombInfo = s.bombInfo)
    (dropped : t.droppedBombPosition = s.droppedBombPosition) : Midway s t where
  snapshot := snapshot
  sequence := sequence
  journal := ⟨[], by rw [journal, List.append_nil]⟩
  bomb valid := by
    rw [bomb]
    exact valid
  dropped valid := by
    rw [dropped]
    exact valid

theorem Midway.refl (s : Runtime) : Midway s s := .of_same rfl rfl rfl rfl rfl

theorem Midway.trans {s t u : Runtime} (first : Midway s t) (second : Midway t u) :
    Midway s u where
  snapshot := second.snapshot.trans first.snapshot
  sequence := second.sequence.trans first.sequence
  journal := by
    obtain ⟨a, left⟩ := first.journal
    obtain ⟨b, right⟩ := second.journal
    exact ⟨a ++ b, by rw [right, left, List.append_assoc]⟩
  bomb valid := second.bomb (first.bomb valid)
  dropped valid := second.dropped (first.dropped valid)

/-- The snapshot stays, or there is one under the next number. -/
def Follows (s t : Runtime) : Prop :=
  t.gameSnapshot = s.gameSnapshot ∧ t.snapshotSequence = s.snapshotSequence ∨
    t.snapshotSequence = s.snapshotSequence + 1

theorem Midway.follows {s t : Runtime} (midway : Midway s t) : Follows s t :=
  .inl ⟨midway.snapshot, midway.sequence⟩

/-- Where nothing is shown anew, the old snapshot stays good. -/
theorem Midway.sound {s t : Runtime} (sound : Sound s) (midway : Midway s t)
    (cached : ∃ config, Cached config t.cachedPawns) (tracks : Tracks t) : Sound t where
  cached := cached
  tracks := tracks
  bomb := midway.bomb sound.bomb
  dropped := midway.dropped sound.dropped
  sequence := by rw [midway.snapshot, midway.sequence, sound.sequence]
  snapshot := by
    rw [midway.snapshot]
    exact sound.snapshot
  oneEra := by
    obtain ⟨newer, journal⟩ := midway.journal
    rw [midway.snapshot, journal]
    exact fun connected => ofOneEra_append (sound.oneEra connected)

theorem cached_ids {config : RuntimeConfig} {pawns : List CachedPawn} (cached : Cached config pawns)
    (radar : config.radarSnapshotEnabled = true) :
    ∃ slots : List Nat, slots.Sublist (List.range' FIRST_PLAYER_CONTROLLER LAST_PLAYER_CONTROLLER) ∧
      pawns.map CachedPawn.playerId = slots.map makeOpaquePlayerId := by
  obtain ⟨slots, sub, known⟩ := cached
  refine ⟨slots, sub, ?_⟩
  clear sub
  induction known with
  | nil => rfl
  | cons first _ ih =>
    rw [List.map_cons, List.map_cons, ih, first.playerId, if_pos radar]

theorem makeOpaquePlayerId_eq {slot : Nat} (small : slot ≤ 64) :
    makeOpaquePlayerId slot = 2 ^ 63 + slot := by
  have each : ∀ slot < 65, makeOpaquePlayerId slot = 2 ^ 63 + slot := by decide
  exact each slot (by omega)

theorem mem_slots {slot : Nat}
    (member : slot ∈ List.range' FIRST_PLAYER_CONTROLLER LAST_PLAYER_CONTROLLER) :
    1 ≤ slot ∧ slot ≤ 64 := by
  obtain ⟨low, high⟩ := List.mem_range'_1.mp member
  simp only [FIRST_PLAYER_CONTROLLER, LAST_PLAYER_CONTROLLER] at low high
  omega

theorem cached_distinct {config : RuntimeConfig} {pawns : List CachedPawn}
    (cached : Cached config pawns) (radar : config.radarSnapshotEnabled = true) :
    (pawns.map CachedPawn.playerId).Nodup ∧ ∀ cp ∈ pawns,
      ∃ slot, 1 ≤ slot ∧ slot ≤ 64 ∧ cp.playerId = makeOpaquePlayerId slot := by
  obtain ⟨slots, sub, ids⟩ := cached_ids cached radar
  constructor
  · rw [ids]
    apply List.Nodup.map_on
    · intro a here b there same
      rw [makeOpaquePlayerId_eq (mem_slots (sub.subset here)).2,
        makeOpaquePlayerId_eq (mem_slots (sub.subset there)).2] at same
      omega
    · exact sub.nodup List.nodup_range'
  · intro cp member
    have here : cp.playerId ∈ slots.map makeOpaquePlayerId := by
      rw [← ids]
      exact List.mem_map_of_mem member
    obtain ⟨slot, kept, same⟩ := List.mem_map.mp here
    obtain ⟨low, high⟩ := mem_slots (sub.subset kept)
    exact ⟨slot, low, high, same.symm⟩

theorem cached_known {config : RuntimeConfig} {pawns : List CachedPawn}
    (cached : Cached config pawns) {cp : CachedPawn} (member : cp ∈ pawns) :
    ∃ slot, Known config slot cp := by
  obtain ⟨slots, -, known⟩ := cached
  induction known with
  | nil => cases member
  | cons first _ ih =>
    rcases List.mem_cons.mp member with here | later
    · rw [here]
      exact ⟨_, first⟩
    · exact ih later

theorem cached_radar {config : RuntimeConfig} {pawns : List CachedPawn}
    (cached : Cached config pawns) {cp : CachedPawn} (member : cp ∈ pawns)
    (identified : cp.playerId ≠ 0) : config.radarSnapshotEnabled = true := by
  obtain ⟨slot, known⟩ := cached_known cached member
  by_contra off
  rw [known.playerId, if_neg off] at identified
  exact identified rfl

structure Prepared (config : RuntimeConfig) (localPawn : Address) (s : Runtime) : Prop where
  cached : ∃ config', (config.radarSnapshotEnabled = true → config'.radarSnapshotEnabled = true) ∧
    Cached config' s.cachedPawns
  tracks : Tracks s
  ofPawn : OfPawn localPawn s

theorem forgetPlayers_midway (s : Runtime) : Midway s s.forgetPlayers :=
  ⟨rfl, rfl, ⟨[none], rfl⟩, id, id⟩

theorem enterPawn_midway (s : Runtime) (config : RuntimeConfig) (localPlayerPawn : Address) :
    Midway s (s.enterPawn config localPlayerPawn) := by
  unfold Runtime.enterPawn
  split
  · exact forgetPlayers_midway s
  · split
    · exact ⟨rfl, rfl, ⟨[none], rfl⟩, id, id⟩
    · exact .refl s

section Rules

variable {allowed : Request → Prop} {o : ClientDll} {config : RuntimeConfig} {modBase : Address}
  {s : Runtime} {localPawn : Address}

theorem ensures_refreshEntityCache (reads : ∀ q : Request, q.Reads → allowed q) {updateNow : Nat}
    (cached : ∃ config, Cached config s.cachedPawns) (tracks : Tracks s)
    (ofPawn : OfPawn localPawn s) :
    Ensures allowed (fun t => Prepared config localPawn t ∧ Midway s t)
      (s.refreshEntityCache o modBase config updateNow) := by
  unfold Runtime.refreshEntityCache
  apply ensures_ite
  · intro fresh
    apply ensures_done
    refine ⟨⟨?_, tracks, ofPawn⟩, .refl s⟩
    obtain ⟨config', known⟩ := cached
    refine ⟨config', fun radar => ?_, known⟩
    simp only [Runtime.cacheStale, radar, decide_eq_true_eq, not_or] at fresh
    obtain ⟨some_, complete, -⟩ := fresh
    obtain ⟨cp, rest, is⟩ := List.exists_cons_of_ne_nil some_
    have member : cp ∈ s.cachedPawns := by
      rw [is]
      exact List.mem_cons_self
    apply cached_radar known member
    intro none
    apply complete
    rw [Bool.true_and, List.any_eq_true]
    exact ⟨cp, member, decide_eq_true none⟩
  · intro _
    apply ensures_bind (ensures_readCache reads)
    intro cache known
    apply ensures_done
    cases cache with
    | none =>
      refine ⟨⟨⟨config, id, cached_nil config⟩, tracks_begin (era_forgot _) rfl, ?_⟩, ?_⟩
      · exact .inr ⟨rfl, era_forgot _⟩
      · exact ⟨rfl, rfl, ⟨[none], rfl⟩, id, id⟩
    | some pawns =>
      refine ⟨⟨⟨config, id, known pawns rfl⟩, ⟨tracks.samples, tracks.last⟩, ofPawn⟩, ?_⟩
      exact .of_same rfl rfl rfl rfl rfl

structure Ahead (localPawn : Address) (s t : Runtime) : Prop where
  aimed : Aimed localPawn t
  map : t.radarSamplingMapId = t.cachedMapState.id
  ofPawn : OfPawn localPawn t
  pawns : t.cachedPawns = s.cachedPawns
  midway : Midway s t

theorem follow_ahead {t : Runtime} {nowMs : Nat} {observerTarget : Option UInt32}
    (ahead : Ahead localPawn s t) : Ahead localPawn s (t.follow nowMs observerTarget).1 := by
  obtain ⟨aimed, map, ofPawn, pawns, midway⟩ := ahead
  have same : Midway t t.forgetTarget := .of_same rfl rfl rfl rfl rfl
  unfold Runtime.follow
  split
  · split
    · exact ⟨aimed, map, ofPawn, pawns, ⟨midway.snapshot, midway.sequence, midway.journal,
        midway.bomb, midway.dropped⟩⟩
    · exact ⟨aimed, map, ofPawn, pawns, midway.trans same⟩
  · split
    · exact ⟨aimed, map, ofPawn, pawns, midway⟩
    · exact ⟨aimed, map, ofPawn, pawns, midway.trans same⟩

theorem ensures_sampleMapState (reads : ∀ q : Request, q.Reads → allowed q) :
    Ensures allowed (fun _ => True) (sampleMapState o modBase) := by
  unfold sampleMapState readMapId
  apply ensures_bind (P := fun _ => True)
  · apply ensures_bind (ensures_readAs reads)
    intro globalVars _
    apply ensures_ite (fun _ => ensures_done trivial)
    intro _
    apply ensures_bind (ensures_readAs reads)
    intro mapNamePointer _
    apply ensures_ite (fun _ => ensures_done trivial)
    intro _
    exact ensures_bind (ensures_readRaw reads) fun _ _ => ensures_done trivial
  · intro id _
    apply ensures_bind (ensures_readAs reads)
    intro gameRules _
    apply ensures_ite (fun _ => ensures_done trivial)
    intro _
    apply ensures_bind (ensures_readAs reads)
    intro warmup _
    apply ensures_bind (ensures_readAs reads)
    intro freeze _
    exact ensures_bind (ensures_tryRead reads) fun _ _ => ensures_done trivial

theorem ensures_readObserverTarget (reads : ∀ q : Request, q.Reads → allowed q) :
    Ensures allowed (fun _ => True) (readObserverTarget o localPawn) := by
  apply ensures_imp (P := fun found => ∀ v ∈ found, True)
  · apply ensures_need (ensures_value reads)
    intro observerServices _
    exact ensures_ite (fun _ => ensures_done fun _ _ => trivial) fun _ => ensures_value reads
  · exact fun _ _ => trivial

theorem ensures_captureMap (reads : ∀ q : Request, q.Reads → allowed q) {nowMs : Nat}
    (tracks : Tracks s) (ofPawn : OfPawn localPawn s) (known : localPawn ≠ 0) :
    Ensures allowed (fun aimed => Ahead localPawn s aimed.1)
      (s.captureMap o modBase localPawn nowMs) := by
  unfold Runtime.captureMap
  apply ensures_bind (ensures_sampleMapState reads)
  intro map _
  obtain ⟨aimed, same⟩ := enterMap_aimed map tracks ofPawn known
  have ahead : Ahead localPawn s (s.enterMap map) := by
    by_cases changed : map.id = noMap ∨ s.radarSamplingMapId ≠ map.id
    · rw [enterMap_changed changed] at aimed ⊢
      exact ⟨aimed, rfl, ofPawn, rfl, .of_same rfl rfl rfl rfl rfl⟩
    · rw [enterMap_same changed] at aimed same ⊢
      exact ⟨aimed, same, ofPawn, rfl, .of_same rfl rfl rfl rfl rfl⟩
  apply ensures_ite
  · intro _
    exact ensures_done ahead
  · intro _
    apply ensures_bind (ensures_readObserverTarget reads)
    intro observerTarget _
    exact ensures_done (follow_ahead ahead)

/-- The pawns of the loop are cached ones, in their order, each as it was observed. -/
def Seen (here : LocalSample) (pawns : List CachedPawn) (seen : List (CachedPawn × Observation)) :
    Prop :=
  (seen.map Prod.fst).Sublist pawns ∧ ∀ entry ∈ seen, Observed here entry.1 entry.2

theorem seen_opposed {config : RuntimeConfig} {here : LocalSample} {pawns : List CachedPawn}
    {seen : List (CachedPawn × Observation)} (cached : Cached config pawns)
    (local_ : validTeam here.team = true) (observed : Seen here pawns seen) :
    ∃ team, validTeam team = true ∧ here.team ≠ team ∧ ∃ kept : List CachedPawn,
      kept.Sublist pawns ∧
      List.Forall₂ (Opponent team) kept (seen.filterMap fun entry => entry.2.enemy) := by
  obtain ⟨team, valid, apart, other⟩ := validTeam_other local_
  refine ⟨team, valid, apart, ?_⟩
  obtain ⟨sub, each⟩ := observed
  have known : ∀ entry ∈ seen, validTeam entry.1.team = true := by
    intro entry member
    obtain ⟨slot, known⟩ := cached_known cached (sub.subset (List.mem_map_of_mem member))
    exact known.team
  have picked : ∃ kept : List CachedPawn, kept.Sublist (seen.map Prod.fst) ∧
      List.Forall₂ (Opponent team) kept (seen.filterMap fun entry => entry.2.enemy) := by
    clear sub
    induction seen with
    | nil => exact ⟨[], .refl _, .nil⟩
    | cons entry rest ih =>
      obtain ⟨kept, fewer, related⟩ := ih
        (fun later member => each later (List.mem_cons_of_mem _ member))
        (fun later member => known later (List.mem_cons_of_mem _ member))
      have seen_ := each entry List.mem_cons_self
      cases found : entry.2.enemy with
      | none =>
        simp only [List.filterMap_cons, found]
        exact ⟨kept, fewer.cons _, related⟩
      | some enemy =>
        have opposes := seen_.enemy enemy found
        simp only [List.filterMap_cons, found]
        refine ⟨entry.1 :: kept, fewer.cons_cons _, .cons ?_ related⟩
        constructor
        case pawn => exact opposes.pawn
        case team =>
          apply other _ (known entry List.mem_cons_self)
          rw [← seen_.team]
          exact opposes.team
        case health =>
          rw [opposes.health]
          exact ⟨seen_.living opposes.alive, seen_.health⟩
        case position => exact opposes.position
  obtain ⟨kept, fewer, related⟩ := picked
  exact ⟨kept, fewer.trans sub, related⟩

theorem ensures_observeAll (reads : ∀ q : Request, q.Reads → allowed q) {here : LocalSample}
    {capture : Bool} {pawns : List CachedPawn} :
    Ensures allowed (Seen here pawns) (observeAll o config here capture pawns) := by
  unfold observeAll
  apply ensures_imp (ensures_collect (R := fun cp entry =>
    entry.1 = cp ∧ Observed here entry.1 entry.2) fun cp _ => ?_)
  · rintro seen ⟨kept, sub, related⟩
    have pairs : seen.map Prod.fst = kept ∧ ∀ entry ∈ seen, Observed here entry.1 entry.2 := by
      clear sub
      induction related with
      | nil =>
        refine ⟨rfl, fun entry member => ?_⟩
        cases member
      | cons first _ ih =>
        refine ⟨?_, fun entry member => ?_⟩
        · rw [List.map_cons, ih.1, first.1]
        · rcases List.mem_cons.mp member with here | later
          · rw [here]
            exact first.2
          · exact ih.2 entry later
    refine ⟨?_, pairs.2⟩
    rw [pairs.1]
    exact sub
  · apply ensures_map
    apply ensures_imp (ensures_observe reads)
    intro found observed entry member
    obtain ⟨seen, here, same⟩ := Option.map_eq_some_iff.mp member
    rw [← same]
    exact ⟨rfl, observed seen here⟩

end Rules

end RadarSampler
