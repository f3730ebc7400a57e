import GameSecurity.BombMarker
import GameSecurity.RadarHistory

/- What the sampling thread shows and writes in any run: the snapshot, the bomb in it as the
   overlay and the web radar place it, and the display of a game that has gone. -/
namespace RadarSampler
open Asking AsciiText ByteMemory EntityCache GameMemory RadarPlayerSample Runs
open BombMarker (Agreeing Sent SentPlayer SentSnapshot)
open RadarFloors (wirePosition tally tally_injective)
open TeleportMailbox (Single Vector3 isfinite perUnit signed)

def dust2Memory : List (Address × List UInt8) :=
  [(0x33A9118, toBytes 8 0x10000),
    (0x33AE550, (List.replicate 16 (toBytes 4 0x3F800000)).flatten),
    (0x3094D38, toBytes 8 0x60000),
    (0x60188, toBytes 8 0x70000),
    (0x70000, text "maps/de_dust2.vpk" ++ List.replicate 110 0),
    -- the entities: two controllers, their pawns and the bomb
    (0x3554050, toBytes 8 0x20000),
    (0x20010, toBytes 8 0x30000),
    (0x30070, toBytes 8 0x40000),
    (0x300E0, toBytes 8 0xB0000),
    (0x32BC0, toBytes 8 0x10000),
    (0x32C30, toBytes 8 0x80000),
    (0x32CA0, toBytes 8 0xC0000),
    (0x813B2, toBytes 2 49),
    -- the local player
    (0x4091C, [1]),
    (0x40914, toBytes 4 100),
    (0x103E7, [2]),
    (0x113B8, toBytes 4 0x3F800000 ++ toBytes 4 0x40000000 ++ toBytes 4 0x40400000),
    (0x10E78, toBytes 12 0),
    (0x13350, toBytes 12 0),
    (0x1034C, toBytes 4 100),
    (0x10354, [0]),
    (0x10330, toBytes 8 0x50000),
    (0x50103, [0]),
    (0x50030, toBytes 8 0x10000),
    (0x11208, toBytes 8 0x90000),
    (0x90048, toBytes 8 1 ++ toBytes 8 0xA0000),
    (0xA0000, toBytes 4 101),
    -- the enemy
    (0xB091C, [1]),
    (0xB0914, toBytes 4 102),
    (0xC03E7, [3]),
    (0xC13B8, toBytes 4 0x40400000 ++ toBytes 4 0x40000000 ++ toBytes 4 0x3F800000),
    (0xC0E78, toBytes 12 0),
    (0xC034C, toBytes 4 80),
    (0xC0354, [0]),
    (0xC0330, toBytes 8 0xD0000),
    (0xD0103, [0]),
    (0xD0030, toBytes 8 0xC0000)]

/-- It has ended when the sampler comes to the world, so that nothing can be read any more. -/
def dust2 (n : Nat) : (q : Request) → q.Reply
  | .read address size =>
    if n < 203 then
      (dust2Memory.find? fun held => held.1 = address ∧ size ≤ held.2.length).map
        fun held => held.2.take size
    else none
  | .write _ _ => true

def dust2Update : Input := .update 0x1000000 { localRadarEnabled := true } ⟨1000000000, 5⟩ dust2

def dust2Shown : Runtime := dust2Update.apply {} {}

theorem dust2Shown_reachable : (sampler {}).Reachable dust2Shown :=
  reachable_step (sampler {}) (reachable_start (sampler {}) rfl) rfl

theorem dust2Shown_connected : dust2Shown.gameSnapshot.map.connected = true ∧
    dust2Shown.gameSnapshot.players.length = 2 ∧ dust2Shown.enemies.length = 1 := by
  decide +kernel

theorem snapshots_fit {o : ClientDll} {s : Runtime} (reach : (sampler o).Reachable s) :
    s.gameSnapshot.WellFormed := (sampler_sound reach).snapshot

theorem snapshots_fit_dust2 : dust2Shown.gameSnapshot.players.length = 2 ∧
    dust2Shown.gameSnapshot.WellFormed :=
  ⟨dust2Shown_connected.2.1, snapshots_fit dust2Shown_reachable⟩

theorem snapshots_of_one_era {o : ClientDll} {inputs : List Input} {s : Runtime}
    (exec : (sampler o).exec {} inputs = some s)
    (connected : s.gameSnapshot.map.connected = true) :
    OfOneEra ((sampler o).history (events o) {} inputs) s.gameSnapshot :=
  ofOneEra_within (history_within exec) ((sampler_sound ⟨{}, inputs, rfl, exec⟩).oneEra connected)

def dust2Inputs : List Input :=
  [dust2Update, .update 0x1000000 { localRadarEnabled := true } ⟨1500000000, 6⟩ dust2,
    .update 0x1000000 {} ⟨2000000000, 7⟩ dust2,
    .update 0x1000000 { localRadarEnabled := true } ⟨3000000000, 8⟩ dust2]

def dust2Again : Runtime := ((sampler {}).exec {} dust2Inputs).get rfl

theorem snapshots_of_one_era_dust2 :
    ((sampler {}).history (events {}) {} dust2Inputs).map Option.isSome =
        [true, true, false, true] ∧
      dust2Again.gameSnapshot.players.length = 2 ∧
      OfOneEra ((sampler {}).history (events {}) {} dust2Inputs) dust2Again.gameSnapshot := by
  have connected : dust2Again.gameSnapshot.map.connected = true := by decide +kernel
  refine ⟨by decide +kernel, by decide +kernel, snapshots_of_one_era ?_ connected⟩
  exact (Option.some_get _).symm

/-- The overlay draws opponents only: pawns of the cache, alive, somewhere, and all of the team
    that the local player was not of when he was found last. -/
theorem enemies_opposed {o : ClientDll} {inputs : List Input} {s : Runtime}
    (exec : (sampler o).exec {} inputs = some s) : Opposed (lastLocalTeam o inputs) s :=
  run_opposed exec

theorem enemies_opposed_dust2 : dust2Shown.enemies.length = 1 ∧ Opposed (some 2) dust2Shown := by
  have team : lastLocalTeam {} [dust2Update] = some 2 := by decide +kernel
  refine ⟨dust2Shown_connected.2.2, ?_⟩
  rw [← team]
  exact enemies_opposed rfl

/-- The snapshots are numbered: the number never goes back, and as long as it is the same nothing
    else is shown. -/
theorem snapshots_numbered {o : ClientDll} {s t : Runtime} (inputs : List Input)
    (reach : (sampler o).Reachable s) (exec : (sampler o).exec s inputs = some t) :
    s.gameSnapshot.sequence ≤ t.gameSnapshot.sequence ∧
      (t.gameSnapshot.sequence = s.gameSnapshot.sequence → t.gameSnapshot = s.gameSnapshot) := by
  apply exec_monotone (sampler o) (R := fun s t =>
    s.gameSnapshot.sequence ≤ t.gameSnapshot.sequence ∧
      (t.gameSnapshot.sequence = s.gameSnapshot.sequence → t.gameSnapshot = s.gameSnapshot))
    _ _ _ reach exec
  · exact fun s => ⟨le_refl _, fun _ => rfl⟩
  · intro s t u first second
    constructor
    · exact first.1.trans second.1
    · intro same
      have early : t.gameSnapshot.sequence = s.gameSnapshot.sequence := by omega
      have late : u.gameSnapshot.sequence = t.gameSnapshot.sequence := by omega
      exact (second.2 late).trans (first.2 early)
  · intro s input t reach taken
    cases Option.some.inj taken
    have sound := sampler_sound reach
    obtain ⟨after, follows⟩ := sound_apply (o := o) sound input
    rcases follows with ⟨same, -⟩ | next
    · rw [same]
      exact ⟨le_refl _, fun _ => rfl⟩
    · rw [after.sequence, sound.sequence, next]
      exact ⟨Nat.le_succ _, fun is => absurd is (Nat.succ_ne_self _)⟩

theorem snapshots_numbered_dust2 :
    dust2Shown.gameSnapshot.sequence ≤ (clearRuntimeState 6 dust2Shown).gameSnapshot.sequence :=
  (snapshots_numbered [.clear 6] dust2Shown_reachable rfl).1

section Bomb

def number (v : Single) : FixedMapRadar.Number :=
  if isfinite v then some (signed v / perUnit) else none

def worldPosition (position : Vector3) : FixedMapRadar.WorldPosition :=
  ⟨number position.x, number position.y, number position.z⟩

def GameSnapshot.marker (snapshot : GameSnapshot) : BombMarker.Native.GameSnapshot where
  players := snapshot.players.map fun player =>
    ⟨player.id, player.position.map worldPosition, player.hasBomb⟩
  bomb := ⟨snapshot.bomb.position.map worldPosition, snapshot.bomb.carrierPlayerId⟩

variable {snapshot : GameSnapshot}

theorem GameSnapshot.WellFormed.carried (fit : snapshot.WellFormed) {id : Nat}
    (named : snapshot.bomb.carrierPlayerId = some id) :
    ∃ player ∈ snapshot.players, player.id = id ∧ player.hasBomb = true ∧
      BombMarker.Native.carrier snapshot.marker id =
        some ⟨player.id, player.position.map worldPosition, player.hasBomb⟩ := by
  obtain ⟨player, member, is, carries⟩ := fit.bomb.carrier id named
  refine ⟨player, member, is, carries, ?_⟩
  have only : ∀ other ∈ snapshot.players, other.id = id → other = player := by
    intro other there same
    exact List.inj_on_of_nodup_map fit.distinct there member (same.trans is.symm)
  unfold BombMarker.Native.carrier GameSnapshot.marker
  rw [List.find?_map]
  cases found : snapshot.players.find? ((fun player => decide (player.id = id)) ∘ fun player =>
      (⟨player.id, player.position.map worldPosition, player.hasBomb⟩ :
        BombMarker.Native.PlayerSnapshot)) with
  | none =>
    have missed := List.find?_eq_none.mp found player member
    exact absurd (decide_eq_true is) missed
  | some other =>
    have same := List.find?_some found
    rw [only other (List.mem_of_find?_eq_some found) (of_decide_eq_true same)]
    rfl

theorem GameSnapshot.WellFormed.unplaced (fit : snapshot.WellFormed) {id : Nat}
    (named : snapshot.bomb.carrierPlayerId = some id) : snapshot.bomb.position = none := by
  have carried := fit.bomb.carried.mpr (Option.isSome_of_eq_some named)
  by_contra placed
  obtain ⟨p, is⟩ := Option.ne_none_iff_exists'.mp placed
  exact (fit.bomb.placed p is).2.2 carried

theorem GameSnapshot.WellFormed.agreeing {wireId : Nat → String} (fit : snapshot.WellFormed)
    (written : ∀ id, wireId id ≠ "") : Agreeing wireId snapshot.marker := by
  intro _ id named
  obtain ⟨player, -, -, -, found⟩ := fit.carried named
  rw [if_pos (written id), found]
  exact .inl (Option.some_ne_none _)

/-- The overlay and the web radar show the bomb of every snapshot at one point, and a carried one
    at its carrier. -/
theorem bombs_agree {o : ClientDll} {s : Runtime} {wireId : Nat → String}
    {bomb : BombMarker.Web.BombSnapshot} {players : List BombMarker.Web.PlayerSnapshot}
    (reach : (sampler o).Reachable s) (injective : Function.Injective wireId)
    (written : ∀ id, wireId id ≠ "")
    (sent : SentSnapshot wireId s.gameSnapshot.marker bomb players) :
    (BombMarker.Web.resolveBombPosition bomb players).toOption =
        (BombMarker.Native.bombPosition s.gameSnapshot.marker).map wirePosition ∧
      ∀ id ∈ s.gameSnapshot.bomb.carrierPlayerId, ∃ player ∈ s.gameSnapshot.players,
        player.id = id ∧ player.hasBomb = true ∧
          BombMarker.Native.bombPosition s.gameSnapshot.marker =
            player.position.map worldPosition := by
  have fit := (sampler_sound reach).snapshot
  constructor
  · rw [BombMarker.resolveBombPosition_sent injective sent]
    exact congrArg _ (BombMarker.resolved_eq_iff.mpr (fit.agreeing written))
  · intro id named
    obtain ⟨player, member, is, carries, found⟩ := fit.carried named
    refine ⟨player, member, is, carries, ?_⟩
    have none : s.gameSnapshot.marker.bomb.position = none := by
      rw [GameSnapshot.marker, fit.unplaced named]
      rfl
    have carrier : s.gameSnapshot.marker.bomb.carrierPlayerId = some id := named
    rw [BombMarker.Native.bombPosition, none, carrier]
    simp only [Option.bind_some, found]

def writeValue {α β : Type} (encode : α → β) (native : Option α) : BombMarker.Web.Property β :=
  match native with
  | none => .null
  | some a => .value (encode a)

def writeBomb (wireId : Nat → String) (bomb : BombMarker.Native.BombSnapshot) :
    BombMarker.Web.BombSnapshot :=
  ⟨writeValue wirePosition bomb.position, writeValue wireId bomb.carrierPlayerId, .undefined⟩

def writePlayer (wireId : Nat → String) (player : BombMarker.Native.PlayerSnapshot) :
    BombMarker.Web.PlayerSnapshot :=
  ⟨wireId player.id, writeValue wirePosition player.position, .value player.hasBomb⟩

theorem writeValue_sent {α β : Type} (encode : α → β) (native : Option α) :
    Sent encode native (writeValue encode native) := by
  cases native <;> rfl

theorem written_sent (wireId : Nat → String) (snapshot : BombMarker.Native.GameSnapshot) :
    SentSnapshot wireId snapshot (writeBomb wireId snapshot.bomb)
      (snapshot.players.map (writePlayer wireId)) where
  position := writeValue_sent _ _
  carrierPlayerId := writeValue_sent _ _
  carrierId := rfl
  players := by
    apply List.forall₂_map_right_iff.mpr
    apply List.forall₂_same.mpr
    intro player _
    constructor
    case id => rfl
    case position => exact writeValue_sent _ _
    case hasBomb => exact ⟨fun is => BombMarker.Web.Property.value.inj is, congrArg _⟩

theorem bombs_agree_dust2 : ∃ wireId : Nat → String, Function.Injective wireId ∧
    (BombMarker.Web.resolveBombPosition (writeBomb wireId dust2Shown.gameSnapshot.marker.bomb)
        (dust2Shown.gameSnapshot.marker.players.map (writePlayer wireId))).toOption =
      (BombMarker.Native.bombPosition dust2Shown.gameSnapshot.marker).map wirePosition := by
  have injective : Function.Injective fun id => tally (id + 1) :=
    tally_injective.comp Nat.succ_injective
  have written : ∀ id, tally (id + 1) ≠ "" := by
    intro id empty
    have none : (tally (id + 1)).length = 0 := by rw [empty]; rfl
    rw [tally, String.length_ofList, List.length_replicate] at none
    cases none
  exact ⟨_, injective, (bombs_agree dust2Shown_reachable injective written (written_sent _ _)).1⟩

end Bomb

section Writes

variable {o : ClientDll} {s : Runtime} {modBase : Address} {config : RuntimeConfig} {now : Moment}
  {here : LocalSample}

theorem sample_writes (sound : Sound s) (ready : Ready here)
    (world : Nat → (q : Request) → q.Reply) (n : Nat) :
    ((run world n (s.sample o modBase config now here)).2.filter fun q => ¬ q.Reads) =
      if config.antiFlash then [.write (here.pawn + o.m_flFlashDuration) [0, 0, 0, 0]] else [] := by
  unfold Runtime.sample
  rw [run_bind]
  have reads : Ensures Request.Reads (fun t => Sound t ∧ Follows s t ∧ Opposed (some here.team) t)
      ((({ s with consecutiveReadFailures := 0 } : Runtime).enterPawn config here.pawn).refresh
        o modBase config now here) :=
    ensures_refresh (fun _ reads => reads) sound ready
  have later := fun n => filter_reads (ensures_run reads world n).2
  simp only [List.filter_append, later, List.append_nil]
  split
  · rfl
  · rfl

/-- All that an update writes to the game is the flash duration of the local player it has found,
    where that is asked for. -/
theorem updates_write (reach : (sampler o).Reachable s) (modBase : Address)
    (config : RuntimeConfig) (now : Moment) (world : Nat → (q : Request) → q.Reply) :
    ((run world 0 (updateEntities o modBase config now s)).2.filter fun q => ¬ q.Reads) =
      match (run world 0 (readLocal o modBase)).1 with
      | none => []
      | some here =>
        if config.antiFlash then [.write (here.pawn + o.m_flFlashDuration) [0, 0, 0, 0]]
        else [] := by
  have sound := sampler_sound reach
  have first : Ensures Request.Reads (fun found => ∀ here ∈ found, Ready here)
      (readLocal o modBase) := ensures_readLocal fun _ reads => reads
  obtain ⟨ready, reads⟩ := ensures_run first world 0
  unfold updateEntities
  rw [run_bind]
  simp only [List.filter_append, filter_reads reads, List.nil_append]
  cases found : (run world 0 (readLocal o modBase)).1 with
  | none => rfl
  | some here => exact sample_writes sound (ready here found) world _

theorem updates_write_dust2 :
    ((run dust2 0 (updateEntities {} 0x1000000 { antiFlash := true } ⟨2000000000, 6⟩
      dust2Shown)).2.filter fun q => ¬ q.Reads) = [.write 0x11428 [0, 0, 0, 0]] := by
  rw [updates_write dust2Shown_reachable]
  decide +kernel

end Writes

section Failures

variable {o : ClientDll} {s t : Runtime}

structure Cleared (s : Runtime) : Prop where
  enemies : s.enemies = []
  worldEntities : s.worldEntities = []
  cachedPawns : s.cachedPawns = []
  samples : s.radarPlayerLastKnownSamples = fun _ => none
  snapshot : ∃ sequence capturedAtMs, s.gameSnapshot = { sequence, capturedAtMs }

def Input.Fails (o : ClientDll) : Input → Prop
  | .update modBase _ _ world => (run world 0 (readLocal o modBase)).1 = none
  | .clear _ => False

theorem fails_apply {input : Input} (fails : input.Fails o) :
    ∃ wallMs, input.apply o s = s.recordUpdateFailure wallMs := by
  cases input with
  | clear wallMs => exact fails.elim
  | update modBase config now world =>
    refine ⟨now.wallMs, ?_⟩
    have nowhere : (run world 0 (readLocal o modBase)).1 = none := fails
    rw [Input.apply, updateEntities, run_bind]
    simp only [nowhere]
    rfl

/-- Updates that fail change nothing but their count, until they are three: then the display is
    cleared, and stays so. -/
theorem failures_clear {inputs : List Input} (fails : ∀ input ∈ inputs, input.Fails o)
    (exec : (sampler o).exec s inputs = some t) :
    (s.consecutiveReadFailures + inputs.length < 3 →
      t = { s with consecutiveReadFailures := s.consecutiveReadFailures + inputs.length }) ∧
    (inputs ≠ [] → 3 ≤ s.consecutiveReadFailures + inputs.length → Cleared t) := by
  induction inputs generalizing s with
  | nil =>
    cases Option.some.inj exec
    exact ⟨fun _ => rfl, fun some_ => absurd rfl some_⟩
  | cons input rest ih =>
    obtain ⟨next, taken, later⟩ := (exec_cons_iff (sampler o)).mp exec
    obtain ⟨wallMs, is⟩ := fails_apply (s := s) (fails input List.mem_cons_self)
    have step : s.recordUpdateFailure wallMs = next := by
      rw [← is]
      exact Option.some.inj taken
    obtain ⟨few, many⟩ := ih (fun other member => fails other (List.mem_cons_of_mem _ member)) later
    rw [Runtime.recordUpdateFailure] at step
    rw [List.length_cons]
    by_cases third : s.consecutiveReadFailures + 1 ≥ 3
    · rw [if_pos third] at step
      subst next
      constructor
      · intro less
        omega
      · intro _ _
        by_cases soon : rest.length < 3
        · have zero : (clearRuntimeState wallMs s).consecutiveReadFailures = 0 := rfl
          rw [few (by omega)]
          exact ⟨rfl, rfl, rfl, rfl, _, _, rfl⟩
        · apply many
          · rintro rfl
            exact soon (by decide)
          · omega
    · rw [if_neg third] at step
      subst next
      constructor
      · intro less
        rw [few (by change s.consecutiveReadFailures + 1 + rest.length < 3; omega)]
        change ({ s with
          consecutiveReadFailures := s.consecutiveReadFailures + 1 + rest.length } : Runtime) = _
        rw [Nat.add_assoc, Nat.add_comm 1]
      · intro _ enough
        apply many
        · rintro rfl
          rw [List.length_nil] at enough
          omega
        · change 3 ≤ s.consecutiveReadFailures + 1 + rest.length
          omega

def gone : Input := .update 0 {} ⟨3000000000, 7⟩ fun _ q =>
  match q with
  | .read _ _ => none
  | .write _ _ => false

theorem failures_clear_gone :
    ∃ t, (sampler {}).exec dust2Shown (List.replicate 3 gone) = some t ∧ Cleared t := by
  have fails : ∀ input ∈ List.replicate 3 gone, input.Fails {} := by
    intro input member
    rw [List.eq_of_mem_replicate member]
    rfl
  have three : (List.replicate 3 gone).length = 3 := List.length_replicate
  refine ⟨_, rfl, (failures_clear fails rfl).2 (List.cons_ne_nil _ _) ?_⟩
  rw [three]
  exact Nat.le_add_left 3 _

end Failures

end RadarSampler
