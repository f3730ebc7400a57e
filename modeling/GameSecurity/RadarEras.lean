import GameSecurity.RadarObservation

/- What the sampler retains of the players belongs to one era: a row of captures on one map and of
   one local pawn, between which it has forgotten nothing. -/
namespace RadarSampler
open Asking AsciiText EntityCache GameMemory MaximalRuns RadarPlayerSample
open TeleportMailbox (Single Vector3 isfinite magnitude perUnit)

/-- The next capture is still on the map and of the pawn of the one before. -/
def Continues (a b : Capture) : Prop :=
  a.mapId = b.mapId ∧ a.localPawn = b.localPawn ∧ b.mapId ≠ noMap

instance (a b : Capture) : Decidable (Continues a b) := inferInstanceAs (Decidable (_ ∧ _ ∧ _))

def SameEra (run : List Capture) : Prop := run.IsChain Continues

instance (run : List Capture) : Decidable (SameEra run) :=
  inferInstanceAs (Decidable (run.IsChain Continues))

/-- The captures since the last that has begun an era. -/
def era (journal : List (Option Capture)) : List Capture := openRun SameEra journal

@[simp] theorem era_forgot (journal : List (Option Capture)) : era (journal ++ [none]) = [] :=
  openRun_snoc journal none

theorem era_captured (journal : List (Option Capture)) (now : Capture) :
    era (journal ++ [some now]) = extend SameEra (era journal) now :=
  openRun_snoc journal (some now)

theorem sameEra_snoc {run : List Capture} {now : Capture} :
    SameEra (run ++ [now]) ↔ SameEra run ∧ ∀ last ∈ run.getLast?, Continues last now := by
  rw [SameEra, List.isChain_append]
  simp [SameEra]

theorem era_sameEra (journal : List (Option Capture)) : SameEra (era journal) :=
  openRun_run .nil .singleton journal

theorem sameEra_all {run : List Capture} {now : Capture} (same : SameEra run)
    (last : run.getLast? = some now) :
    ∀ capture ∈ run, capture.mapId = now.mapId ∧ capture.localPawn = now.localPawn := by
  induction run using List.reverseRecOn generalizing now with
  | nil => cases last
  | append_singleton run newest ih =>
    rw [List.getLast?_concat, Option.some.injEq] at last
    subst now
    obtain ⟨before, continues⟩ := sameEra_snoc.mp same
    intro capture member
    rcases List.mem_append.mp member with old | new
    · cases latest : run.getLast? with
      | none =>
        rw [List.getLast?_eq_none_iff.mp latest] at old
        cases old
      | some previous =>
        obtain ⟨sameMap, samePawn, -⟩ := continues previous latest
        obtain ⟨map, pawn⟩ := ih before latest capture old
        exact ⟨map.trans sameMap, pawn.trans samePawn⟩
    · rw [List.mem_singleton.mp new]
      exact ⟨rfl, rfl⟩

theorem sameEra_named {run : List Capture} {now : Capture} (same : SameEra run)
    (last : run.getLast? = some now) (long : 1 < run.length) : now.mapId ≠ noMap := by
  induction run using List.reverseRecOn with
  | nil => cases last
  | append_singleton run newest _ =>
    rw [List.getLast?_concat, Option.some.injEq] at last
    subst now
    obtain ⟨-, continues⟩ := sameEra_snoc.mp same
    cases latest : run.getLast? with
    | none =>
      rw [List.getLast?_eq_none_iff.mp latest] at long
      exact absurd long (lt_irrefl 1)
    | some previous => exact (continues previous latest).2.2

/-- What a capture does to the samples. Without a map it only drops what is stale. -/
def Capture.acts (now : Capture) : List RadarPlayerSample.Act :=
  (if now.mapId = noMap then [] else now.calls.map .sample) ++ [.prune now.nowMs]

theorem mem_acts {now : Capture} {call : Call} (member : Act.sample call ∈ now.acts) :
    call ∈ now.calls := by
  unfold Capture.acts at member
  rcases List.mem_append.mp member with sampled | pruned
  · split at sampled
    · cases sampled
    · obtain ⟨c, here, same⟩ := List.mem_map.mp sampled
      cases same
      exact here
  · cases List.mem_singleton.mp pruned

theorem samplesAfter_append (first second : List RadarPlayerSample.Act) :
    samplesAfter (first ++ second) = second.foldl Samples.step (samplesAfter first) :=
  List.foldl_append

/-- The samples are those of the open era, which is on the sampler's map and of its pawn. -/
structure Tracks (s : Runtime) : Prop where
  samples : s.radarPlayerLastKnownSamples = samplesAfter ((era s.journal).flatMap Capture.acts)
  last : ∀ last ∈ (era s.journal).getLast?, last.mapId = s.radarSamplingMapId ∧
    (s.radarSamplingLocalPawn ≠ 0 → last.localPawn = s.radarSamplingLocalPawn)

theorem tracks_begin {s : Runtime} (begun : era s.journal = [])
    (forgot : s.radarPlayerLastKnownSamples = fun _ => none) : Tracks s := by
  constructor
  case samples =>
    rw [begun, forgot]
    rfl
  case last =>
    rw [begun]
    intro last member
    cases member

def OfPawn (localPawn : Address) (s : Runtime) : Prop :=
  s.radarSamplingLocalPawn = localPawn ∨
    s.radarSamplingLocalPawn = 0 ∧ era s.journal = []

theorem enterPawn_tracks {s : Runtime} (config : RuntimeConfig) (localPlayerPawn : Address)
    (tracks : Tracks s) : Tracks (s.enterPawn config localPlayerPawn) ∧
      OfPawn localPlayerPawn (s.enterPawn config localPlayerPawn) := by
  unfold Runtime.enterPawn
  by_cases on : config.radarSnapshotEnabled = true
  · rw [if_neg (not_not.mpr on)]
    by_cases same : s.radarSamplingLocalPawn = localPlayerPawn
    · rw [if_neg (not_not.mpr same)]
      exact ⟨tracks, .inl same⟩
    · rw [if_pos same]
      exact ⟨tracks_begin (era_forgot _) rfl, .inl rfl⟩
  · rw [if_pos on]
    exact ⟨tracks_begin (era_forgot _) rfl, .inr ⟨rfl, era_forgot _⟩⟩

/-- What the samples must be before the loop of a capture: those of the era that it goes on with,
    or none where it begins one. -/
def Aimed (localPawn : Address) (s : Runtime) : Prop :=
  ∀ now : Capture, now.mapId = s.cachedMapState.id → now.localPawn = localPawn →
    ∃ prior, era (s.journal ++ [some now]) = prior ++ [now] ∧
      s.radarPlayerLastKnownSamples = samplesAfter (prior.flatMap Capture.acts)

theorem enterMap_changed {s : Runtime} {map : MapState}
    (changed : map.id = noMap ∨ s.radarSamplingMapId ≠ map.id) :
    s.enterMap map = { s with
      cachedMapState := map
      radarPlayerLastKnownSamples := fun _ => none
      cachedObservedPawnHandle := none
      observedPawnHandleSampledAtMs := 0
      radarSamplingMapId := map.id } :=
  if_pos changed

theorem enterMap_same {s : Runtime} {map : MapState}
    (same : ¬ (map.id = noMap ∨ s.radarSamplingMapId ≠ map.id)) :
    s.enterMap map = { s with cachedMapState := map } :=
  if_neg same

theorem enterMap_aimed {s : Runtime} (map : MapState) {localPawn : Address} (tracks : Tracks s)
    (ofPawn : OfPawn localPawn s) (known : localPawn ≠ 0) :
    Aimed localPawn (s.enterMap map) ∧ (s.enterMap map).radarSamplingMapId = map.id := by
  by_cases changed : map.id = noMap ∨ s.radarSamplingMapId ≠ map.id
  · rw [enterMap_changed changed]
    refine ⟨fun now here _ => ⟨[], ?_, rfl⟩, rfl⟩
    change era (s.journal ++ [some now]) = [now]
    change now.mapId = map.id at here
    rw [era_captured, extend]
    split
    · rename_i goes
      cases latest : (era s.journal).getLast? with
      | none => rw [List.getLast?_eq_none_iff.mp latest, List.nil_append]
      | some last =>
        obtain ⟨sameMap, -, named⟩ := (sameEra_snoc.mp goes).2 last latest
        rcases changed with empty | differs
        · exact absurd (here.trans empty) named
        · exact absurd ((tracks.last last latest).1.symm.trans (sameMap.trans here)) differs
    · rfl
  · rw [enterMap_same changed]
    rw [not_or, not_not] at changed
    refine ⟨fun now here mine => ⟨era s.journal, ?_, tracks.samples⟩, changed.2⟩
    change now.mapId = map.id at here
    change era (s.journal ++ [some now]) = era s.journal ++ [now]
    rw [era_captured, extend_eq_append_iff]
    rcases ofPawn with own | ⟨-, begun⟩
    · left
      apply sameEra_snoc.mpr
      refine ⟨era_sameEra _, fun last latest => ?_⟩
      obtain ⟨onMap, ofLast⟩ := tracks.last last latest
      rw [own] at ofLast
      refine ⟨onMap.trans (changed.2.trans here.symm), (ofLast known).trans mine.symm, ?_⟩
      rw [here]
      exact changed.1
    · exact .inr begun

/-- What was read when a capture's loop asks for a player's sample: the calls before it. -/
def shownSample (mapId : MapId) (start : Samples) (earlier : List Call) (call : Call) :
    RetainedPlayerSample :=
  if mapId = noMap then ⟨call.currentPosition, call.currentYaw⟩
  else (retainPlayerSample ((((earlier.map Act.sample).foldl Samples.step start)
    call.identity.playerId).getD {}) call).2

structure Gathered (mapId : MapId) (nowMs : Nat) (start : Samples)
    (seen : List (CachedPawn × Observation)) (frame : Frame) : Prop where
  samples : frame.samples =
    (if mapId = noMap then [] else frame.calls.map Act.sample).foldl Samples.step start
  calls : frame.calls = seen.map fun entry => sighting nowMs entry.1 entry.2
  players : List.Forall₂ (fun entry player => ∃ earlier : List Call,
    (∀ c ∈ earlier, c ∈ frame.calls) ∧ player = snapshotPlayer entry.1 entry.2
      (shownSample mapId start earlier (sighting nowMs entry.1 entry.2))) seen frame.players
  localPlayer : ∀ id ∈ frame.localPlayerId, ∃ entry ∈ seen, entry.1.playerId = id
  observed : ∀ id ∈ frame.observedPlayerId,
    ∃ entry ∈ seen, entry.1.playerId = id ∧ entry.2.alive = true
  carrier : ∀ id ∈ frame.bombCarrierId,
    ∃ entry ∈ seen, entry.1.playerId = id ∧ entry.1.hasBomb = true

theorem add_shown {mapId : MapId} (observed : Option UInt32) (nowMs : Nat) {frame : Frame}
    {entry : CachedPawn × Observation} (identified : entry.1.playerId ≠ 0) (start : Samples)
    (samples : frame.samples =
      (if mapId = noMap then [] else frame.calls.map Act.sample).foldl Samples.step start) :
    (frame.add mapId observed nowMs entry).players = frame.players ++
      [snapshotPlayer entry.1 entry.2
        (shownSample mapId start frame.calls (sighting nowMs entry.1 entry.2))] ∧
    (frame.add mapId observed nowMs entry).samples =
      (if mapId = noMap then []
        else (frame.calls ++ [sighting nowMs entry.1 entry.2]).map Act.sample).foldl
          Samples.step start := by
  unfold Frame.add shownSample
  by_cases empty : mapId = noMap
  · simp only [empty, if_true] at samples ⊢
    simp [samples, sighting]
  · simp only [empty, if_false] at samples ⊢
    simp [samples, identified, sighting, empty]

theorem gathered_add {mapId : MapId} {observed : Option UInt32} {nowMs : Nat} {start : Samples}
    {seen : List (CachedPawn × Observation)} {frame : Frame} {entry : CachedPawn × Observation}
    (gathered : Gathered mapId nowMs start seen frame) (identified : entry.1.playerId ≠ 0) :
    Gathered mapId nowMs start (seen ++ [entry]) (frame.add mapId observed nowMs entry) := by
  obtain ⟨players, samples⟩ := add_shown observed nowMs identified start
    gathered.samples
  have calls : (frame.add mapId observed nowMs entry).calls =
    frame.calls ++ [sighting nowMs entry.1 entry.2] := rfl
  have newest : entry ∈ seen ++ [entry] := List.mem_append_right _ List.mem_cons_self
  constructor
  case samples => rw [samples, calls]
  case calls => rw [calls, gathered.calls, List.map_append, List.map_singleton]
  case players =>
    rw [players, calls]
    apply List.rel_append
    · apply gathered.players.imp
      rintro a b ⟨earlier, within, same⟩
      exact ⟨earlier, fun c member => List.mem_append_left _ (within c member), same⟩
    · exact .cons ⟨frame.calls, fun c member => List.mem_append_left _ member, rfl⟩ .nil
  case localPlayer =>
    intro id member
    change id ∈ (if entry.1.isLocal then some entry.1.playerId else frame.localPlayerId) at member
    split at member
    · cases member
      exact ⟨entry, newest, rfl⟩
    · obtain ⟨e, here, same⟩ := gathered.localPlayer id member
      exact ⟨e, List.mem_append_left _ here, same⟩
  case observed =>
    intro id member
    change id ∈ (if observed = some entry.2.livePawnHandle ∧ entry.2.alive then
      some entry.1.playerId else frame.observedPlayerId) at member
    split at member
    · rename_i own
      cases member
      exact ⟨entry, newest, rfl, own.2⟩
    · obtain ⟨e, here, same⟩ := gathered.observed id member
      exact ⟨e, List.mem_append_left _ here, same⟩
  case carrier =>
    intro id member
    change id ∈ (if entry.1.hasBomb then some entry.1.playerId else frame.bombCarrierId) at member
    split at member
    · rename_i own
      cases member
      exact ⟨entry, newest, rfl, own⟩
    · obtain ⟨e, here, same⟩ := gathered.carrier id member
      exact ⟨e, List.mem_append_left _ here, same⟩

theorem gather_gathered {s : Runtime} (observed : Option UInt32) (nowMs : Nat)
    {seen : List (CachedPawn × Observation)} (identified : ∀ entry ∈ seen, entry.1.playerId ≠ 0) :
    Gathered s.cachedMapState.id nowMs s.radarPlayerLastKnownSamples seen
      (s.gather observed nowMs seen) := by
  unfold Runtime.gather
  induction seen using List.reverseRecOn with
  | nil =>
    constructor
    case samples =>
      rw [List.foldl_nil, List.map_nil, ite_self]
      rfl
    case calls => rfl
    case players => exact .nil
    all_goals
      intro id member
      cases member
  | append_singleton seen entry ih =>
    rw [List.foldl_append]
    apply gathered_add
    · exact ih fun e member => identified e (List.mem_append_left _ member)
    · exact identified entry (List.mem_append_right _ List.mem_cons_self)

theorem keepSamples_tracks {s : Runtime} {localPawn : Address} {nowMs : Nat} {frame : Frame}
    {seen : List (CachedPawn × Observation)} (aimed : Aimed localPawn s)
    (map : s.radarSamplingMapId = s.cachedMapState.id)
    (ofPawn : OfPawn localPawn s)
    (gathered : Gathered s.cachedMapState.id nowMs s.radarPlayerLastKnownSamples seen frame) :
    Tracks (s.keepSamples localPawn nowMs frame) := by
  obtain ⟨prior, cut, start⟩ := aimed ⟨s.cachedMapState.id, localPawn, nowMs, frame.calls⟩ rfl rfl
  constructor
  case samples =>
    change frame.samples.step (.prune nowMs) =
      samplesAfter ((era (s.journal ++ [some _])).flatMap _)
    rw [cut, List.flatMap_append, List.flatMap_singleton, samplesAfter_append, ← start,
      gathered.samples, Capture.acts, List.foldl_append]
    rfl
  case last =>
    change ∀ last ∈ (era (s.journal ++ [some _])).getLast?, _
    rw [cut, List.getLast?_concat]
    rintro _ ⟨⟩
    refine ⟨map.symm, fun present => ?_⟩
    rcases ofPawn with own | ⟨gone, -⟩
    · exact own.symm
    · exact absurd gone present

/-- A value that is shown of a player: a capture of the run has read it of the same player, and
    where he is alive and not dormant it has done so a short time ago. -/
def Told {α : Type} (sample : Call → Option α) (run : List Capture) (mine : Call)
    (value : Option α) : Prop :=
  ∀ v ∈ value, ∃ capture ∈ run, ∃ call ∈ capture.calls, sample call = some v ∧
    hasSameStableIdentity call.identity mine.identity = true ∧
    hasConflictingSteamIdentity call.identity mine.identity = false ∧
    (mine.alive = true → mine.dormant = false →
      call.nowMs ≤ mine.nowMs ∧ mine.nowMs - call.nowMs ≤ kLastKnownMaximumAgeMs)

theorem epoch_alike {events : List RadarPlayerSample.Event} {call mine : Call}
    (member : call ∈ epoch (events ++ [some mine])) :
    hasSameStableIdentity call.identity mine.identity = true ∧
      hasConflictingSteamIdentity call.identity mine.identity = false := by
  have newest : mine ∈ epoch (events ++ [some mine]) := by
    rw [epoch, openRun_snoc]
    exact last_mem_extend _ mine
  obtain ⟨same, free, -⟩ := epoch_epoch (events ++ [some mine])
  exact ⟨same call member mine newest, Bool.eq_false_iff.mpr (free call member mine newest)⟩

theorem shownSample_told {α : Type} (k : Channel α) (prior : List Capture) {now : Capture}
    {earlier : List Call} {mine : Call} (within : ∀ c ∈ earlier, c ∈ now.calls)
    (own : mine ∈ now.calls) :
    Told k.sample (prior ++ [now]) mine (k.value (retainPlayerSample
      ((((earlier.map Act.sample).foldl Samples.step (samplesAfter (prior.flatMap Capture.acts)))
        mine.identity.playerId).getD {}) mine).2) := by
  rw [← samplesAfter_append]
  obtain ⟨events, state, history⟩ :=
    slot_history (prior.flatMap Capture.acts ++ earlier.map Act.sample) mine.identity.playerId
  rw [state]
  -- Every call of the slot's epoch is one of the captures' calls.
  have made : ∀ call ∈ epoch (events ++ [some mine]),
      ∃ capture ∈ prior ++ [now], call ∈ capture.calls := by
    intro call member
    rcases List.mem_append.mp (epoch_passed member) with old | new
    · have reduced : call ∈ events.reduceOption := List.reduceOption_mem_iff.mpr old
      rw [history] at reduced
      obtain ⟨act, done, is⟩ := List.mem_filterMap.mp reduced
      cases act with
      | prune _ => cases is
      | clear => cases is
      | sample c =>
        rw [Act.call] at is
        split at is
        · cases is
          rcases List.mem_append.mp done with before | during
          · obtain ⟨capture, kept, acted⟩ := List.mem_flatMap.mp before
            exact ⟨capture, List.mem_append_left _ kept, mem_acts acted⟩
          · obtain ⟨c, here, same⟩ := List.mem_map.mp during
            cases same
            exact ⟨now, List.mem_append_right _ List.mem_cons_self, within _ here⟩
        · cases is
    · cases List.mem_singleton.mp new
      exact ⟨now, List.mem_append_right _ List.mem_cons_self, own⟩
  intro v shown
  change k.value (published events mine) = some v at shown
  by_cases active : mine.alive = true ∧ mine.dormant = false
  · have awake : mine.freezeLastKnown = false := by
      simp [Call.freezeLastKnown, active]
    rcases published_recent k awake shown with current | ⟨call, member, value, recent⟩
    · refine ⟨now, List.mem_append_right _ List.mem_cons_self, mine, own, current, ?_, ?_, ?_⟩
      · simp [hasSameStableIdentity]
      · simp [hasConflictingSteamIdentity]
      · simp [kLastKnownMaximumAgeMs]
    · obtain ⟨capture, kept, called⟩ := made call member
      obtain ⟨same, free⟩ := epoch_alike member
      exact ⟨capture, kept, call, called, value, same, free, fun _ _ => recent⟩
  · obtain ⟨call, member, value, -⟩ := published_own k shown
    obtain ⟨capture, kept, called⟩ := made call member
    obtain ⟨same, free⟩ := epoch_alike member
    refine ⟨capture, kept, call, called, value, same, free, fun alive awake => ?_⟩
    exact absurd ⟨alive, awake⟩ active

end RadarSampler
