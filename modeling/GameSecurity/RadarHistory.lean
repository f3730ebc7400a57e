import Mathlib.Data.List.ReduceOption
import GameSecurity.RadarRuns

/- What has happened in a run, told by its inputs: the local player that an update finds, and
   where an era of the radar ends. -/
namespace RadarSampler
open Asking EntityCache GameMemory RadarPlayerSample Runs

variable {o : ClientDll} {s : Runtime}

def Input.found (o : ClientDll) : Input → Option LocalSample
  | .update modBase _ _ world => (run world 0 (readLocal o modBase)).1
  | .clear _ => none

def lastLocalTeam (o : ClientDll) (inputs : List Input) : Option UInt8 :=
  (inputs.filterMap fun input => (input.found o).map LocalSample.team).getLast?

theorem lastLocalTeam_snoc (past : List Input) (input : Input) :
    lastLocalTeam o (past ++ [input]) =
      ((input.found o).map LocalSample.team).or (lastLocalTeam o past) := by
  unfold lastLocalTeam
  rw [List.filterMap_append, List.getLast?_append]
  cases found : input.found o <;> simp [found]

theorem opposed_apply {localTeam : Option UInt8} (sound : Sound s)
    (opposed : Opposed localTeam s) (input : Input) :
    Opposed (((input.found o).map LocalSample.team).or localTeam) (input.apply o s) := by
  cases input with
  | clear wallMs => exact opposed_nil rfl
  | update modBase config now world =>
    have known : Ensures (fun _ => True) (fun found => ∀ here ∈ found, Ready here)
        (readLocal o modBase) := ensures_readLocal fun _ _ => trivial
    have ready := (ensures_run known world 0).1
    rw [Input.apply, updateEntities, run_bind, Input.found]
    dsimp only
    cases found : (run world 0 (readLocal o modBase)).1 with
    | none =>
      change Opposed localTeam (s.recordUpdateFailure now.wallMs)
      unfold Runtime.recordUpdateFailure
      split
      · exact opposed_nil rfl
      · exact opposed
    | some here =>
      have ends : Ensures (fun _ => True) (Opposed (some here.team))
          (s.sample o modBase config now here) := by
        unfold Runtime.sample
        apply ensures_bind (P := fun _ => True)
        · apply ensures_ite
          · exact fun _ => ensures_tryWriteRaw trivial
          · exact fun _ => ensures_done trivial
        · intro _ _
          apply ensures_imp (ensures_refresh (fun _ _ => trivial) sound (ready here found))
          exact fun _ after => after.2.2
      exact (ensures_run ends world _).1

theorem run_opposed {inputs : List Input} (exec : (sampler o).exec {} inputs = some s) :
    Opposed (lastLocalTeam o inputs) s := by
  have kept (past : List Input) (s : Runtime) (input : Input) (t : Runtime)
      (before : Sound s ∧ Opposed (lastLocalTeam o past) s)
      (taken : (sampler o).step s input = some t) :
      Sound t ∧ Opposed (lastLocalTeam o (past ++ [input])) t := by
    cases Option.some.inj taken
    rw [lastLocalTeam_snoc]
    exact ⟨(sound_apply before.1 input).1, opposed_apply before.1 before.2 input⟩
  have start : Sound {} ∧ Opposed (lastLocalTeam o []) {} := ⟨start_sound, opposed_nil rfl⟩
  exact (exec_preserves_past (sampler o) kept start exec).2

/-- The update refreshes the cache, and the entity list is not to be had. -/
def Input.loses (o : ClientDll) (s : Runtime) : Input → Bool
  | .update modBase config now world =>
    let first := run world 0 (readLocal o modBase)
    let asked := first.2.length + if config.antiFlash then 1 else 0
    first.1.isSome && s.cacheStale config now.updateNow &&
      (run world asked (readCache o modBase config)).1.isNone
  | .clear _ => false

/-- An era ends: with a clear, with the third failure in a row, with the radar switched off or
    without the entity list. -/
def Input.breaks (o : ClientDll) (s : Runtime) (input : Input) : Bool :=
  match input with
  | .clear _ => true
  | .update _ config _ _ =>
    if (input.found o).isSome then !config.radarSnapshotEnabled || input.loses o s
    else decide (3 ≤ s.consecutiveReadFailures + 1)

def Input.captures (o : ClientDll) (s : Runtime) (input : Input) : List Capture :=
  ((input.apply o s).journal.drop s.journal.length).reduceOption

/-- What an input brings about: the end of an era, and behind it what it captures. -/
def events (o : ClientDll) (s : Runtime) (input : Input) : List (Option Capture) :=
  (if input.breaks o s then [none] else []) ++ (input.captures o s).map some

/-- The journal grows, and where an era ends it says so before what is captured. -/
structure Grows (breaks : Prop) (s t : Runtime) : Prop where
  grows : ∃ added, t.journal = s.journal ++ added
  marked : breaks → ∃ before after, t.journal = s.journal ++ before ++ none :: after ∧
    before.reduceOption = []

section Growth

variable {allowed : Request → Prop} {config : RuntimeConfig} {modBase : Address}
  {here : LocalSample} {now : Moment} {localPawn : Address}

theorem enterMap_journal (map : MapState) : (s.enterMap map).journal = s.journal := by
  unfold Runtime.enterMap
  dsimp only
  split <;> rfl

theorem follow_journal (nowMs : Nat) (observerTarget : Option UInt32) :
    (s.follow nowMs observerTarget).1.journal = s.journal := by
  unfold Runtime.follow
  split
  · split <;> rfl
  · split <;> rfl

theorem ensures_captureMap_journal (reads : ∀ q : Request, q.Reads → allowed q) {nowMs : Nat} :
    Ensures allowed (fun aimed => aimed.1.journal = s.journal)
      (s.captureMap o modBase localPawn nowMs) := by
  unfold Runtime.captureMap
  apply ensures_bind (ensures_sampleMapState reads)
  intro map _
  apply ensures_ite
  · exact fun _ => ensures_done (enterMap_journal map)
  · intro _
    apply ensures_bind (ensures_readObserverTarget reads)
    intro observerTarget _
    exact ensures_done ((follow_journal nowMs observerTarget).trans (enterMap_journal map))

theorem ensures_survey_journal (reads : ∀ q : Request, q.Reads → allowed q) {capture : Bool} :
    Ensures allowed (fun t => ∃ added, t.journal = s.journal ++ added)
      (s.survey o modBase config now here capture) := by
  unfold Runtime.survey
  apply ensures_bind (P := fun aimed => aimed.1.journal = s.journal)
  · exact ensures_ite (fun _ => ensures_captureMap_journal reads) fun _ => ensures_done rfl
  intro aimed same
  apply ensures_bind (ensures_observeAll reads)
  intro seen _
  apply ensures_conclude reads
  intro u beside
  cases capture with
  | true =>
    refine ⟨[some ⟨aimed.1.cachedMapState.id, here.pawn, now.ms,
      (aimed.1.gather aimed.2 now.ms seen).calls⟩], ?_⟩
    rw [← same]
    exact beside.journal
  | false =>
    refine ⟨[], ?_⟩
    rw [← same, List.append_nil]
    exact beside.journal

theorem enterPawn_journal (config : RuntimeConfig) (localPlayerPawn : Address) :
    ∃ marks, (s.enterPawn config localPlayerPawn).journal = s.journal ++ marks ∧
      marks.reduceOption = [] ∧ (config.radarSnapshotEnabled = false → marks = [none]) := by
  unfold Runtime.enterPawn
  split
  · exact ⟨[none], rfl, rfl, fun _ => rfl⟩
  · rename_i on
    split
    · exact ⟨[none], rfl, rfl, fun _ => rfl⟩
    · refine ⟨[], (List.append_nil _).symm, rfl, fun off => ?_⟩
      exact absurd (by simp [off]) on

theorem enterPawn_stale (config : RuntimeConfig) (localPlayerPawn : Address) (updateNow : Nat) :
    (s.enterPawn config localPlayerPawn).cacheStale config updateNow =
      s.cacheStale config updateNow := by
  unfold Runtime.enterPawn
  split
  · rfl
  · split <;> rfl

theorem refreshEntityCache_journal (world : Nat → (q : Request) → q.Reply) (n updateNow : Nat) :
    ∃ marks, (run world n (s.refreshEntityCache o modBase config updateNow)).1.journal =
        s.journal ++ marks ∧
      (s.cacheStale config updateNow = true →
        (run world n (readCache o modBase config)).1 = none → marks = [none]) := by
  unfold Runtime.refreshEntityCache
  by_cases stale : s.cacheStale config updateNow = true
  · rw [if_neg (not_not.mpr stale), run_bind]
    dsimp only
    cases (run world n (readCache o modBase config)).1 with
    | none => exact ⟨[none], rfl, fun _ _ => rfl⟩
    | some pawns => exact ⟨[], (List.append_nil _).symm, fun _ none => by cases none⟩
  · rw [if_pos stale]
    exact ⟨[], (List.append_nil _).symm, fun is => absurd is stale⟩

end Growth

theorem sample_journal {modBase : Address} {config : RuntimeConfig} {now : Moment}
    {here : LocalSample} (world : Nat → (q : Request) → q.Reply) (n : Nat) :
    Grows (config.radarSnapshotEnabled = false ∨ s.cacheStale config now.updateNow = true ∧
        (run world (n + if config.antiFlash then 1 else 0) (readCache o modBase config)).1 = none)
      s (run world n (s.sample o modBase config now here)).1 := by
  have asked : (run world n (if config.antiFlash then
      tryWriteRaw (here.pawn + o.m_flFlashDuration) [0, 0, 0, 0] else pure false)).2.length =
      if config.antiFlash then 1 else 0 := by
    split <;> rfl
  unfold Runtime.sample
  rw [run_bind]
  dsimp only
  rw [asked]
  generalize n + (if config.antiFlash then 1 else 0) = m
  obtain ⟨entered, journal, empty, off⟩ := enterPawn_journal
    (s := { s with consecutiveReadFailures := 0 }) config here.pawn
  have stale := enterPawn_stale
    (s := { s with consecutiveReadFailures := 0 }) config here.pawn now.updateNow
  generalize ({ s with consecutiveReadFailures := 0 } : Runtime).enterPawn config here.pawn = u
    at journal stale ⊢
  unfold Runtime.refresh
  rw [run_bind]
  obtain ⟨marks, refreshed, lost⟩ := @refreshEntityCache_journal o
    (u.schedule config now.updateNow) config modBase world m now.updateNow
  generalize run world m ((u.schedule config now.updateNow).refreshEntityCache o modBase config
    now.updateNow) = first at refreshed ⊢
  have survey : Ensures (fun _ => True) (fun t => ∃ added, t.journal = first.1.journal ++ added)
      (first.1.survey o modBase config now here (u.captureDue config now.updateNow)) :=
    ensures_survey_journal fun _ _ => trivial
  obtain ⟨added, surveyed⟩ := (ensures_run survey world (m + first.2.length)).1
  have whole : first.1.journal = s.journal ++ entered ++ marks := by
    rw [refreshed]
    exact congrArg (· ++ marks) journal
  dsimp only
  rw [whole] at surveyed
  constructor
  case grows => exact ⟨entered ++ (marks ++ added), by rw [surveyed]; simp⟩
  case marked =>
    rintro (switched | ⟨due, missing⟩)
    · refine ⟨[], marks ++ added, ?_, rfl⟩
      rw [surveyed, off switched]
      simp
    · refine ⟨entered, added, ?_, empty⟩
      rw [surveyed, lost (stale.trans due) missing]
      simp

theorem apply_journal (input : Input) : Grows (input.breaks o s = true) s (input.apply o s) := by
  have cleared (wallMs : Nat) {breaks : Prop} : Grows breaks s (clearRuntimeState wallMs s) :=
    ⟨⟨[none], rfl⟩, fun _ => ⟨[], [], by rw [List.append_nil]; rfl, rfl⟩⟩
  cases input with
  | clear wallMs => exact cleared wallMs
  | update modBase config now world =>
    rw [Input.apply, updateEntities, run_bind, Input.breaks, Input.loses, Input.found]
    dsimp only
    cases found : (run world 0 (readLocal o modBase)).1 with
    | none =>
      change Grows _ s (s.recordUpdateFailure now.wallMs)
      rw [Option.isSome_none, if_neg Bool.false_ne_true, decide_eq_true_eq]
      unfold Runtime.recordUpdateFailure
      by_cases third : s.consecutiveReadFailures + 1 ≥ 3
      · rw [if_pos third]
        exact cleared now.wallMs
      · rw [if_neg third]
        exact ⟨⟨[], (List.append_nil _).symm⟩, fun is => absurd is third⟩
    | some here =>
      obtain ⟨grows, marked⟩ := @sample_journal o s modBase config now here world
        (0 + (run world 0 (readLocal o modBase)).2.length)
      refine ⟨grows, fun breaks => marked ?_⟩
      rw [Nat.zero_add]
      simpa [Option.isNone_iff_eq_none] using breaks

/-- A history has what the journal has, but for some of the marks. -/
structure Within (journal history : List (Option Capture)) : Prop where
  among : history.Sublist journal
  captures : history.reduceOption = journal.reduceOption

theorem reduceOption_some (captures : List Capture) :
    (captures.map some).reduceOption = captures := by
  unfold List.reduceOption
  rw [List.filterMap_map]
  exact List.filterMap_some

theorem captures_sublist (journal : List (Option Capture)) :
    (journal.reduceOption.map some).Sublist journal := by
  induction journal with
  | nil => exact .slnil
  | cons e rest ih =>
    cases e with
    | none => exact ih.cons _
    | some capture => exact ih.cons_cons _

theorem Within.append {journal history added brought : List (Option Capture)}
    (before : Within journal history) (later : Within added brought) :
    Within (journal ++ added) (history ++ brought) where
  among := before.among.append later.among
  captures := by
    rw [List.reduceOption_append, List.reduceOption_append, before.captures, later.captures]

theorem events_within (input : Input) :
    Within ((input.apply o s).journal.drop s.journal.length) (events o s input) := by
  obtain ⟨⟨added, grown⟩, marked⟩ := apply_journal (o := o) (s := s) input
  unfold events Input.captures
  rw [grown, List.drop_left]
  by_cases breaks : input.breaks o s = true
  · obtain ⟨before, after, cut, empty⟩ := marked breaks
    rw [grown, List.append_assoc, List.append_cancel_left_eq] at cut
    subst cut
    have only : (before ++ none :: after).reduceOption = after.reduceOption := by
      rw [List.reduceOption_append, empty, List.reduceOption_cons_of_none]
      rfl
    rw [if_pos breaks, only]
    constructor
    case among =>
      apply List.Sublist.trans _ (List.sublist_append_right before _)
      exact (captures_sublist after).cons_cons none
    case captures =>
      rw [only]
      exact reduceOption_some _
  · rw [if_neg breaks, List.nil_append]
    exact ⟨captures_sublist added, reduceOption_some _⟩

theorem history_within {inputs : List Input} (exec : (sampler o).exec {} inputs = some s) :
    Within s.journal ((sampler o).history (events o) {} inputs) := by
  have start : Within ({} : Runtime).journal [] := ⟨.slnil, rfl⟩
  refine history_preserves (sampler o) (P := fun log s => Within s.journal log) ?_
    (reachable_start (sampler o) rfl) start exec
  intro log s input t _ within taken
  cases Option.some.inj taken
  obtain ⟨added, grown⟩ := (apply_journal (o := o) (s := s) input).grows
  have brought := events_within (o := o) (s := s) input
  rw [grown, List.drop_left] at brought
  change Within (input.apply o s).journal _
  rw [grown]
  exact within.append brought

theorem within_run {older newer history : List (Option Capture)} {captures : List Capture}
    (within : Within (older ++ captures.map some ++ newer) history) :
    ∃ older' newer', history = older' ++ captures.map some ++ newer' := by
  obtain ⟨among, same⟩ := within
  obtain ⟨front, back, rfl, first, third⟩ := List.sublist_append_iff.mp among
  obtain ⟨left, middle, rfl, first, second⟩ := List.sublist_append_iff.mp first
  refine ⟨left, back, ?_⟩
  simp only [List.reduceOption_append, reduceOption_some] at same
  -- Each of the three parts has as many captures as it can have.
  have fewer {a b : List (Option Capture)} (sub : a.Sublist b) :
      a.reduceOption.length ≤ b.reduceOption.length := (sub.filterMap id).length_le
  have lengths := congrArg List.length same
  simp only [List.length_append] at lengths
  have inner := fewer second
  rw [reduceOption_some] at inner
  have outer := fewer first
  have last := fewer third
  have size : (captures.map some).length ≤ middle.length := by
    rw [List.length_map]
    have bound := List.reduceOption_length_le middle
    omega
  rw [second.eq_of_length_le size]

theorem ofOneEra_within {journal history : List (Option Capture)} {snapshot : GameSnapshot}
    (within : Within journal history) (ofEra : OfOneEra journal snapshot) :
    OfOneEra history snapshot := by
  obtain ⟨older, captures, now, newer, cut, rest⟩ := ofEra
  subst cut
  obtain ⟨older', newer', cut⟩ := within_run within
  exact ⟨older', captures, now, newer', cut, rest⟩

end RadarSampler
