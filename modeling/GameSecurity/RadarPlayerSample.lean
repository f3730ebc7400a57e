import GameSecurity.MaximalRuns
import GameSecurity.TeleportMailbox
import Mathlib.Data.List.Chain
import Mathlib.Data.List.ReduceOption
import Mathlib.Logic.Function.Basic

/- radar_player_sample: what the radar publishes of a player whose position or yaw could not
   be read. One slot's state is kept from call to call. -/
namespace RadarPlayerSample
open MaximalRuns TeleportMailbox

abbrev WorldPosition := TeleportMailbox.Vector3

def kWorldCoordinateLimit : Nat := 10000000

def kMaximumAbsoluteYawDegrees : Nat := 1000000

def kLastKnownMaximumAgeMs : Nat := 150

structure PlayerSampleIdentity where
  playerId : Nat := 0
  controllerAddress : Nat := 0
  pawnAddress : Nat := 0
  pawnHandle : Nat := 0
  team : Nat := 0
  steamId : Nat := 0
  steamIdKnown : Bool := false
  deriving DecidableEq, Repr

def hasSameStableIdentity (left right : PlayerSampleIdentity) : Bool :=
  left.playerId = right.playerId ∧ left.controllerAddress = right.controllerAddress ∧
    left.pawnAddress = right.pawnAddress ∧ left.pawnHandle = right.pawnHandle ∧
    left.team = right.team

def hasConflictingSteamIdentity (left right : PlayerSampleIdentity) : Bool :=
  left.steamIdKnown ∧ right.steamIdKnown ∧ left.steamId ≠ right.steamId

/-- A failed Steam-ID read is an unknown observation, not evidence of another player. -/
def isCompatibleIdentityObservation (current cached : PlayerSampleIdentity) : Bool :=
  hasSameStableIdentity current cached && !hasConflictingSteamIdentity current cached

def isValidPosition (position : WorldPosition) : Bool :=
  if ¬ isfinite position.x ∨ ¬ isfinite position.y ∨ ¬ isfinite position.z ∨
      magnitude position.x ≥ kWorldCoordinateLimit * perUnit ∨
      magnitude position.y ≥ kWorldCoordinateLimit * perUnit ∨
      magnitude position.z ≥ kWorldCoordinateLimit * perUnit then false
  else true

def isUsableYaw (yaw : Single) : Bool :=
  isfinite yaw ∧ magnitude yaw ≤ kMaximumAbsoluteYawDegrees * perUnit

def canReuseLastKnown (currentIdentity cachedIdentity : PlayerSampleIdentity)
    (nowMs sampledAtMs : Nat) : Bool :=
  isCompatibleIdentityObservation currentIdentity cachedIdentity ∧ sampledAtMs ≤ nowMs ∧
    nowMs - sampledAtMs ≤ kLastKnownMaximumAgeMs

structure PlayerLastKnownState where
  identity : PlayerSampleIdentity := {}
  identityKnown : Bool := false
  stateKnown : Bool := false
  wasAlive : Bool := false
  wasDormant : Bool := false
  position : Option WorldPosition := none
  positionSampledAtMs : Nat := 0
  yaw : Option Single := none
  yawSampledAtMs : Nat := 0
  lastObservedAtMs : Nat := 0
  deriving DecidableEq, Repr

structure RetainedPlayerSample where
  position : Option WorldPosition
  yaw : Option Single
  deriving DecidableEq, Repr

structure Call where
  identity : PlayerSampleIdentity
  nowMs : Nat
  alive : Bool
  dormant : Bool
  currentPosition : Option WorldPosition
  currentYaw : Option Single
  deriving DecidableEq, Repr

/-- The samples a call keeps: the invalid ones are reset. -/
def Call.position (c : Call) : Option WorldPosition := c.currentPosition.filter isValidPosition

def Call.yaw (c : Call) : Option Single := c.currentYaw.filter isUsableYaw

def Call.freezeLastKnown (c : Call) : Bool := c.dormant || !c.alive

/-- What becomes of one cached value and of its time, and what is published of it. -/
structure Retained (α : Type) where
  cached : Option α
  sampledAtMs : Nat
  result : Option α

def retain {α : Type} (freezeLastKnown : Bool) (nowMs : Nat) (canReuse : Nat → Bool)
    (cached : Option α) (sampledAtMs : Nat) (current : Option α) : Retained α :=
  if freezeLastKnown then
    if cached.isNone ∧ current.isSome then ⟨current, nowMs, current⟩
    else ⟨cached, sampledAtMs, cached⟩
  else if current.isSome then ⟨current, nowMs, current⟩
  else if cached.isSome ∧ canReuse sampledAtMs then ⟨cached, sampledAtMs, cached⟩
  else ⟨cached, sampledAtMs, none⟩

/-- The call's player is not the one of the state, or he has come to life again. -/
def PlayerLastKnownState.renews (state : PlayerLastKnownState) (c : Call) : Bool :=
  let identityChanged := !state.identityKnown ||
    !isCompatibleIdentityObservation c.identity state.identity
  let revivedWithSameIdentity := !identityChanged && state.stateKnown && !state.wasAlive && c.alive
  identityChanged || revivedWithSameIdentity

/-- The state a call works on: a new one, or the old one with a Steam ID that has become
   known. -/
def PlayerLastKnownState.identify (state : PlayerLastKnownState) (c : Call) :
    PlayerLastKnownState :=
  if state.renews c then { identity := c.identity, identityKnown := true }
  else if c.identity.steamIdKnown then
    { state with
      identity := { state.identity with steamId := c.identity.steamId, steamIdKnown := true } }
  else state

def retainPlayerSample (state : PlayerLastKnownState) (c : Call) :
    PlayerLastKnownState × RetainedPlayerSample :=
  let state := state.identify c
  let canReuse := canReuseLastKnown c.identity state.identity c.nowMs
  let position :=
    retain c.freezeLastKnown c.nowMs canReuse state.position state.positionSampledAtMs c.position
  let yaw := retain c.freezeLastKnown c.nowMs canReuse state.yaw state.yawSampledAtMs c.yaw
  ({ state with
      lastObservedAtMs := c.nowMs
      position := position.cached
      positionSampledAtMs := position.sampledAtMs
      yaw := yaw.cached
      yawSampledAtMs := yaw.sampledAtMs
      stateKnown := true
      wasAlive := c.alive
      wasDormant := c.dormant },
    ⟨position.result, yaw.result⟩)

/-- A call for the slot; none: the sampler drops the slot's state. -/
abbrev Event := Option Call

def eventStep (state : PlayerLastKnownState) : Event → PlayerLastKnownState
  | none => {}
  | some c => (retainPlayerSample state c).1

def stateAfter (events : List Event) : PlayerLastKnownState := events.foldl eventStep {}

def published (earlier : List Event) (c : Call) : RetainedPlayerSample :=
  (retainPlayerSample (stateAfter earlier) c).2

@[simp] theorem stateAfter_snoc (events : List Event) (e : Event) :
    stateAfter (events ++ [e]) = eventStep (stateAfter events) e := by
  simp [stateAfter]

/-- The calls of one player in one life: equal stable identity, no two different known Steam
   IDs, nobody comes to life again. -/
def Epoch (run : List Call) : Prop :=
  (∀ a ∈ run, ∀ b ∈ run, hasSameStableIdentity a.identity b.identity) ∧
    (∀ a ∈ run, ∀ b ∈ run, ¬ hasConflictingSteamIdentity a.identity b.identity) ∧
    run.IsChain fun a b => a.alive ∨ ¬ b.alive

instance (run : List Call) : Decidable (Epoch run) :=
  inferInstanceAs (Decidable (_ ∧ _ ∧ _))

def epoch (events : List Event) : List Call := openRun Epoch events

theorem epoch_single (c : Call) : Epoch [c] := by
  simp [Epoch, hasSameStableIdentity, hasConflictingSteamIdentity]

theorem epoch_epoch (events : List Event) : Epoch (epoch events) :=
  openRun_run (by simp [Epoch]) epoch_single events

theorem epoch_passed {events : List Event} {c : Call} (member : c ∈ epoch events) :
    some c ∈ events :=
  mem_of_openRun member

def Backed {α : Type} (sample : Call → Option α) (run : List Call) (cached : Option α)
    (sampledAtMs : Nat) : Prop :=
  ∀ v, cached = some v → ∃ c ∈ run, sample c = some v ∧ c.nowMs = sampledAtMs

structure Follows (state : PlayerLastKnownState) (run : List Call) : Prop where
  known : state.identityKnown = true ∧ state.stateKnown = true
  epoch : Epoch run
  identity : ∀ c ∈ run, hasSameStableIdentity c.identity state.identity
  bound : ∀ c ∈ run, c.identity.steamIdKnown →
    state.identity.steamIdKnown ∧ state.identity.steamId = c.identity.steamId
  origin : state.identity.steamIdKnown →
    ∃ c ∈ run, c.identity.steamIdKnown ∧ c.identity.steamId = state.identity.steamId
  last : ∃ c, run.getLast? = some c ∧ state.wasAlive = c.alive
  position : Backed Call.position run state.position state.positionSampledAtMs
  yaw : Backed Call.yaw run state.yaw state.yawSampledAtMs

/-- The state belongs to the open epoch: it is new where that is empty. -/
def Belongs (state : PlayerLastKnownState) (run : List Call) : Prop :=
  (run = [] ∧ state = {}) ∨ Follows state run

theorem same_symm {a b : PlayerSampleIdentity} (h : hasSameStableIdentity a b) :
    hasSameStableIdentity b a := by
  simp only [hasSameStableIdentity, decide_eq_true_eq] at *
  exact ⟨h.1.symm, h.2.1.symm, h.2.2.1.symm, h.2.2.2.1.symm, h.2.2.2.2.symm⟩

theorem same_trans {a b c : PlayerSampleIdentity} (first : hasSameStableIdentity a b)
    (second : hasSameStableIdentity b c) : hasSameStableIdentity a c := by
  simp only [hasSameStableIdentity, decide_eq_true_eq] at *
  grind

theorem conflict_symm {a b : PlayerSampleIdentity} (h : hasConflictingSteamIdentity a b) :
    hasConflictingSteamIdentity b a := by
  simp only [hasConflictingSteamIdentity, decide_eq_true_eq] at *
  exact ⟨h.2.1, h.1, h.2.2.symm⟩

theorem renews_fresh (c : Call) : PlayerLastKnownState.renews {} c = true := rfl

theorem pairs_snoc {R : Call → Call → Prop} {run : List Call} {c : Call} (refl : R c c)
    (symm : ∀ a b, R a b → R b a) :
    (∀ a ∈ run ++ [c], ∀ b ∈ run ++ [c], R a b) ↔
      (∀ a ∈ run, ∀ b ∈ run, R a b) ∧ ∀ a ∈ run, R a c := by
  simp only [List.mem_append, List.mem_singleton]
  constructor
  · intro all
    exact ⟨fun a ha b hb => all a (.inl ha) b (.inl hb), fun a ha => all a (.inl ha) c (.inr rfl)⟩
  · rintro ⟨old, new⟩ a (ha | rfl) b (hb | rfl)
    · exact old a ha b hb
    · exact new a ha
    · exact symm _ _ (new b hb)
    · exact refl

theorem epoch_snoc_iff {run : List Call} {last c : Call} (epoch : Epoch run)
    (atEnd : run.getLast? = some last) :
    Epoch (run ++ [c]) ↔ (∀ a ∈ run, hasSameStableIdentity a.identity c.identity) ∧
      (∀ a ∈ run, ¬ hasConflictingSteamIdentity a.identity c.identity) ∧
      (last.alive ∨ ¬ c.alive) := by
  obtain ⟨same, agree, lives⟩ := epoch
  have single := epoch_single c
  unfold Epoch at single ⊢
  rw [pairs_snoc (R := fun a b => hasSameStableIdentity a.identity b.identity = true)
      (single.1 c (by simp) c (by simp)) fun a b h => same_symm h,
    pairs_snoc (R := fun a b => ¬ hasConflictingSteamIdentity a.identity b.identity = true)
      (single.2.1 c (by simp) c (by simp)) fun a b h back => h (conflict_symm back),
    List.isChain_append, atEnd]
  simp only [List.isChain_singleton, Option.mem_some_iff, List.head?_cons, forall_eq', true_and]
  constructor
  · rintro ⟨⟨-, new⟩, ⟨-, free⟩, -, life⟩
    exact ⟨new, free, life⟩
  · rintro ⟨new, free, life⟩
    exact ⟨⟨same, new⟩, ⟨agree, free⟩, lives, life⟩

/-- The state goes on exactly with the calls that go on with its epoch. -/
theorem renews_iff {state : PlayerLastKnownState} {run : List Call} {c : Call}
    (follows : Follows state run) : state.renews c = false ↔ Epoch (run ++ [c]) := by
  obtain ⟨last, atEnd, alive⟩ := follows.last
  have member : last ∈ run := List.mem_of_getLast? atEnd
  have goes : state.renews c = false ↔ hasSameStableIdentity c.identity state.identity ∧
      ¬ hasConflictingSteamIdentity c.identity state.identity ∧ (last.alive ∨ ¬ c.alive) := by
    simp only [PlayerLastKnownState.renews, isCompatibleIdentityObservation, follows.known, alive]
    cases hasSameStableIdentity c.identity state.identity <;>
      cases hasConflictingSteamIdentity c.identity state.identity <;>
      cases last.alive <;> cases c.alive <;> simp
  rw [goes, epoch_snoc_iff follows.epoch atEnd]
  constructor
  · rintro ⟨mine, free, life⟩
    refine ⟨fun a here => ?_, fun a here => ?_, life⟩
    · exact same_trans (follows.identity a here) (same_symm mine)
    · intro clash
      simp only [hasConflictingSteamIdentity, decide_eq_true_eq] at clash free
      obtain ⟨bound, value⟩ := follows.bound a here clash.1
      exact free ⟨clash.2.1, bound, by rw [value]; exact clash.2.2.symm⟩
  · rintro ⟨same, agree, life⟩
    refine ⟨?_, fun clash => ?_, life⟩
    · exact same_trans (same_symm (same last member)) (follows.identity last member)
    · simp only [hasConflictingSteamIdentity, decide_eq_true_eq] at clash agree
      obtain ⟨a, here, known, value⟩ := follows.origin clash.2.1
      exact agree a here ⟨known, clash.1, by rw [value]; exact clash.2.2.symm⟩

theorem retain_result {α : Type} {freeze : Bool} {now sampledAt : Nat} {canReuse : Nat → Bool}
    {cached current : Option α} {v : α}
    (result : (retain freeze now canReuse cached sampledAt current).result = some v) :
    (retain freeze now canReuse cached sampledAt current).cached = some v := by
  unfold retain at result ⊢
  grind

theorem retain_backed {α : Type} {sample : Call → Option α} {run : List Call} {c : Call}
    {canReuse : Nat → Bool} {cached : Option α} {sampledAt : Nat}
    (backed : Backed sample run cached sampledAt) :
    Backed sample (run ++ [c])
      (retain c.freezeLastKnown c.nowMs canReuse cached sampledAt (sample c)).cached
      (retain c.freezeLastKnown c.nowMs canReuse cached sampledAt (sample c)).sampledAtMs := by
  have old : Backed sample (run ++ [c]) cached sampledAt := by
    intro v held
    obtain ⟨a, here, value⟩ := backed v held
    exact ⟨a, List.mem_append_left _ here, value⟩
  have new : Backed sample (run ++ [c]) (sample c) c.nowMs :=
    fun v held => ⟨c, List.mem_append_right _ (List.mem_singleton.mpr rfl), held, rfl⟩
  unfold retain
  split_ifs <;> assumption

/-- An active player's cached value is published for a short time only. -/
theorem retain_active {α : Type} {now sampledAt : Nat} {canReuse : Nat → Bool}
    {cached current : Option α} {v : α}
    (result : (retain false now canReuse cached sampledAt current).result = some v) :
    current = some v ∨ (cached = some v ∧ canReuse sampledAt = true ∧
      (retain false now canReuse cached sampledAt current).sampledAtMs = sampledAt) := by
  unfold retain at result ⊢
  grind

theorem retain_frozen {α : Type} {now sampledAt : Nat} {canReuse : Nat → Bool}
    {cached current : Option α} {v : α} (held : cached = some v) :
    (retain true now canReuse cached sampledAt current).cached = some v ∧
      (retain true now canReuse cached sampledAt current).result = some v := by
  subst held
  exact ⟨rfl, rfl⟩

theorem renewed_follows {state : PlayerLastKnownState} {c : Call} (renewed : state.renews c) :
    Follows (retainPlayerSample state c).1 [c] := by
  have start : state.identify c = { identity := c.identity, identityKnown := true } :=
    if_pos renewed
  have nothing {α : Type} {sample : Call → Option α} : Backed sample [] none 0 := by
    intro v held
    cases held
  unfold retainPlayerSample
  rw [start]
  constructor
  case known => exact ⟨rfl, rfl⟩
  case epoch => exact epoch_single c
  case identity => simp [hasSameStableIdentity]
  case bound => simp
  case origin => simp
  case last => exact ⟨c, rfl, rfl⟩
  case position => exact retain_backed nothing
  case yaw => exact retain_backed nothing

theorem identify_continued {state : PlayerLastKnownState} {c : Call}
    (goes : state.renews c = false) :
    state.identify c =
      { state with
        identity := { state.identity with
          steamId := if c.identity.steamIdKnown then c.identity.steamId else state.identity.steamId
          steamIdKnown := c.identity.steamIdKnown || state.identity.steamIdKnown } } := by
  unfold PlayerLastKnownState.identify
  rw [goes]
  cases c.identity.steamIdKnown <;> rfl

theorem continued_follows {state : PlayerLastKnownState} {run : List Call} {c : Call}
    (follows : Follows state run) (goes : state.renews c = false) :
    Follows (retainPlayerSample state c).1 (run ++ [c]) := by
  have longer := (renews_iff follows).mp goes
  obtain ⟨last, atEnd, -⟩ := follows.last
  obtain ⟨same, agree, -⟩ := (epoch_snoc_iff follows.epoch atEnd).mp longer
  unfold retainPlayerSample
  rw [identify_continued goes]
  constructor
  case known => exact ⟨follows.known.1, rfl⟩
  case epoch => exact longer
  case identity =>
    have member : last ∈ run := List.mem_of_getLast? atEnd
    intro d here
    rcases List.mem_append.mp here with old | new
    · exact follows.identity d old
    · rw [List.mem_singleton.mp new]
      exact same_trans (same_symm (same last member)) (follows.identity last member)
  case bound =>
    intro d here known
    rcases List.mem_append.mp here with old | new
    · obtain ⟨bound, value⟩ := follows.bound d old known
      have free := agree d old
      simp only [hasConflictingSteamIdentity, known, decide_eq_true_eq, true_and] at free
      grind
    · rw [List.mem_singleton.mp new] at known ⊢
      simp [known]
  case origin =>
    intro known
    cases mine : c.identity.steamIdKnown with
    | true => exact ⟨c, by simp, mine, by simp⟩
    | false =>
      simp only [mine, Bool.false_or, Bool.false_eq_true, if_false] at known ⊢
      obtain ⟨d, here, value⟩ := follows.origin known
      exact ⟨d, List.mem_append_left _ here, value⟩
  case last => exact ⟨c, by simp, rfl⟩
  case position => exact retain_backed follows.position
  case yaw => exact retain_backed follows.yaw

theorem stateAfter_belongs (events : List Event) :
    Belongs (stateAfter events) (epoch events) := by
  apply fold_invariant
  · exact .inl ⟨rfl, rfl⟩
  · exact fun _ => .inl ⟨rfl, rfl⟩
  · rintro s run c (⟨rfl, rfl⟩ | follows)
    · have alone : extend Epoch [] c = [c] := extend_eq_append_iff.mpr (.inr rfl)
      rw [alone]
      exact .inr (renewed_follows (renews_fresh c))
    · right
      cases goes : s.renews c with
      | true =>
        have stops : ¬ Epoch (run ++ [c]) := fun longer => by
          rw [(renews_iff follows).mpr longer] at goes
          cases goes
        rw [extend, if_neg stops]
        exact renewed_follows goes
      | false =>
        rw [extend, if_pos ((renews_iff follows).mp goes)]
        exact continued_follows follows goes

theorem stateAfter_follows (earlier : List Event) (c : Call) :
    Follows (retainPlayerSample (stateAfter earlier) c).1 (epoch (earlier ++ [some c])) := by
  rcases stateAfter_belongs (earlier ++ [some c]) with ⟨none, -⟩ | follows
  · have member : c ∈ epoch (earlier ++ [some c]) := by
      rw [epoch, openRun_snoc]
      exact last_mem_extend _ c
    rw [none] at member
    cases member
  · rwa [stateAfter_snoc] at follows

/-- The calls go on with the epoch that is open after the events. -/
def WithinEpoch (events : List Event) : List Call → Prop
  | [] => True
  | c :: rest => epoch (events ++ [some c]) = epoch events ++ [c] ∧
      WithinEpoch (events ++ [some c]) rest

def publications (events : List Event) : List Call → List RetainedPlayerSample
  | [] => []
  | c :: rest => published events c :: publications (events ++ [some c]) rest

/-- What holds of a published value: it is the player's own, an active player's is recent, a
   frozen player's stays as it is. -/
structure Retains {α : Type} (sample : Call → Option α) (value : RetainedPlayerSample → Option α) :
    Prop where
  own : ∀ earlier c v, value (published earlier c) = some v →
    ∃ d ∈ epoch (earlier ++ [some c]), sample d = some v
  recent : ∀ earlier c v, c.alive → ¬ c.dormant → value (published earlier c) = some v →
    sample c = some v ∨ ∃ d ∈ epoch (earlier ++ [some c]), sample d = some v ∧
      d.nowMs ≤ c.nowMs ∧ c.nowMs - d.nowMs ≤ kLastKnownMaximumAgeMs
  still : ∀ before first later v, first.freezeLastKnown → (∀ c ∈ later, c.freezeLastKnown) →
    WithinEpoch (before ++ [some first]) later → value (published before first) = some v →
    ∀ r ∈ publications (before ++ [some first]) later, value r = some v

/-- A value that is retained from call to call: the position or the yaw. -/
structure Channel (α : Type) where
  sample : Call → Option α
  value : RetainedPlayerSample → Option α
  cached : PlayerLastKnownState → Option α
  sampledAtMs : PlayerLastKnownState → Nat
  part : PlayerLastKnownState → Call → Retained α
  retained : ∀ s c, part s c = retain c.freezeLastKnown c.nowMs
    (canReuseLastKnown c.identity (s.identify c).identity c.nowMs) (cached (s.identify c))
    (sampledAtMs (s.identify c)) (sample c)
  published : ∀ s c, value (retainPlayerSample s c).2 = (part s c).result
  stored : ∀ s c, cached (retainPlayerSample s c).1 = (part s c).cached ∧
    sampledAtMs (retainPlayerSample s c).1 = (part s c).sampledAtMs
  carried : ∀ s c, s.renews c = false → cached (s.identify c) = cached s
  backed : ∀ s run, Follows s run → Backed sample run (cached s) (sampledAtMs s)

def positionChannel : Channel WorldPosition where
  sample := Call.position
  value := RetainedPlayerSample.position
  cached := PlayerLastKnownState.position
  sampledAtMs := PlayerLastKnownState.positionSampledAtMs
  part s c := retain c.freezeLastKnown c.nowMs
    (canReuseLastKnown c.identity (s.identify c).identity c.nowMs) (s.identify c).position
    (s.identify c).positionSampledAtMs c.position
  retained _ _ := rfl
  published _ _ := rfl
  stored _ _ := ⟨rfl, rfl⟩
  carried _ _ goes := by rw [identify_continued goes]
  backed _ _ follows := follows.position

def yawChannel : Channel Single where
  sample := Call.yaw
  value := RetainedPlayerSample.yaw
  cached := PlayerLastKnownState.yaw
  sampledAtMs := PlayerLastKnownState.yawSampledAtMs
  part s c := retain c.freezeLastKnown c.nowMs
    (canReuseLastKnown c.identity (s.identify c).identity c.nowMs) (s.identify c).yaw
    (s.identify c).yawSampledAtMs c.yaw
  retained _ _ := rfl
  published _ _ := rfl
  stored _ _ := ⟨rfl, rfl⟩
  carried _ _ goes := by rw [identify_continued goes]
  backed _ _ follows := follows.yaw

variable {α : Type} (k : Channel α)

theorem published_cached {earlier : List Event} {c : Call} {v : α}
    (out : k.value (published earlier c) = some v) :
    k.cached (stateAfter (earlier ++ [some c])) = some v := by
  rw [published, k.published, k.retained] at out
  rw [stateAfter_snoc, eventStep, (k.stored _ c).1, k.retained]
  exact retain_result out

theorem published_own {earlier : List Event} {c : Call} {v : α}
    (out : k.value (published earlier c) = some v) :
    ∃ d ∈ epoch (earlier ++ [some c]), k.sample d = some v ∧
      d.nowMs = k.sampledAtMs (stateAfter (earlier ++ [some c])) := by
  have follows := stateAfter_follows earlier c
  have held := published_cached k out
  rw [stateAfter_snoc] at held ⊢
  exact k.backed _ _ follows v held

theorem published_recent {earlier : List Event} {c : Call} {v : α}
    (active : c.freezeLastKnown = false) (out : k.value (published earlier c) = some v) :
    k.sample c = some v ∨ ∃ d ∈ epoch (earlier ++ [some c]), k.sample d = some v ∧
      d.nowMs ≤ c.nowMs ∧ c.nowMs - d.nowMs ≤ kLastKnownMaximumAgeMs := by
  obtain ⟨d, here, value, time⟩ := published_own k out
  rw [stateAfter_snoc, eventStep, (k.stored _ c).2, k.retained, active] at time
  rw [published, k.published, k.retained, active] at out
  rcases retain_active out with current | ⟨-, reusable, same⟩
  · exact .inl current
  · simp only [canReuseLastKnown, decide_eq_true_eq] at reusable
    rw [same] at time
    rw [← time] at reusable
    exact .inr ⟨d, here, value, reusable.2⟩

theorem renews_within {events : List Event} {c : Call}
    (follows : Follows (stateAfter events) (epoch events))
    (within : epoch (events ++ [some c]) = epoch events ++ [c]) :
    (stateAfter events).renews c = false := by
  rw [epoch, openRun_snoc] at within
  rcases extend_eq_append_iff.mp within with longer | none
  · exact (renews_iff follows).mpr longer
  · obtain ⟨last, atEnd, -⟩ := follows.last
    rw [epoch, none] at atEnd
    cases atEnd

/-- One frozen call keeps what is cached and publishes it. -/
theorem still_step {events : List Event} {c : Call} {v : α}
    (follows : Follows (stateAfter events) (epoch events)) (frozen : c.freezeLastKnown)
    (within : epoch (events ++ [some c]) = epoch events ++ [c])
    (held : k.cached (stateAfter events) = some v) :
    k.cached (stateAfter (events ++ [some c])) = some v ∧
      k.value (published events c) = some v := by
  have carried := k.carried _ c (renews_within follows within)
  rw [stateAfter_snoc, eventStep, (k.stored _ c).1, published, k.published, k.retained, frozen]
  exact retain_frozen (carried.trans held)

theorem still_run (later : List Call) : ∀ {events : List Event} {v : α},
    Follows (stateAfter events) (epoch events) → (∀ c ∈ later, c.freezeLastKnown) →
    WithinEpoch events later → k.cached (stateAfter events) = some v →
    ∀ r ∈ publications events later, k.value r = some v := by
  induction later with
  | nil =>
    intro events v follows frozen within held r here
    cases here
  | cons c rest ih =>
    intro events v follows frozen within held r here
    have mine := frozen c List.mem_cons_self
    obtain ⟨next, out⟩ := still_step k follows mine within.1 held
    have onward : Follows (stateAfter (events ++ [some c])) (epoch (events ++ [some c])) := by
      rw [stateAfter_snoc]
      exact stateAfter_follows events c
    rcases List.mem_cons.mp here with first | more
    · rw [first]
      exact out
    · exact ih onward (fun d member => frozen d (List.mem_cons_of_mem c member)) within.2 next
        r more

theorem channel_retains : Retains k.sample k.value := by
  constructor
  case own =>
    intro earlier c v out
    obtain ⟨d, here, value, -⟩ := published_own k out
    exact ⟨d, here, value⟩
  case recent =>
    intro earlier c v alive awake out
    have active : c.freezeLastKnown = false := by
      simp [Call.freezeLastKnown, alive, awake]
    exact published_recent k active out
  case still =>
    intro before first later v frozen all within out
    have follows := stateAfter_follows before first
    exact still_run k later (by rwa [stateAfter_snoc]) all within (published_cached k out)

/-- No stale and no foreign sample is published, neither of the position nor of the yaw. -/
theorem player_samples_retained :
    Retains Call.position RetainedPlayerSample.position ∧
      Retains Call.yaw RetainedPlayerSample.yaw := by
  constructor
  · exact channel_retains positionChannel
  · exact channel_retains yawChannel

/-- A dormant player who comes to life again stays dormant and is moved all the same. -/
theorem revived_dormant_moves :
    let identity : PlayerSampleIdentity := { playerId := 17, team := 2 }
    let corpse : Call := ⟨identity, 1000, false, true, some ⟨1, 0, 0⟩, none⟩
    let spawned : Call := ⟨identity, 1010, true, true, some ⟨2, 0, 0⟩, none⟩
    corpse.dormant ∧ spawned.dormant ∧
      (published [] corpse).position = some ⟨1, 0, 0⟩ ∧
      (published [some corpse] spawned).position = some ⟨2, 0, 0⟩ := by
  decide

abbrev Samples := Nat → Option PlayerLastKnownState

/-- The sampler asks for a player's sample, prunes the players it has not observed for a while
   and forgets all players where a map or a local pawn begins. -/
inductive Act where
  | sample (c : Call)
  | prune (updateNowMs : Nat)
  | clear
  deriving DecidableEq, Repr

def isStale (updateNowMs : Nat) (state : PlayerLastKnownState) : Bool :=
  state.lastObservedAtMs > updateNowMs ∨
    updateNowMs - state.lastObservedAtMs > kLastKnownMaximumAgeMs

def Samples.step (samples : Samples) : Act → Samples
  | .sample c => Function.update samples c.identity.playerId
      (some (retainPlayerSample ((samples c.identity.playerId).getD {}) c).1)
  | .prune updateNowMs => fun id => (samples id).filter fun state => !isStale updateNowMs state
  | .clear => fun _ => none

def samplesAfter (acts : List Act) : Samples := acts.foldl Samples.step fun _ => none

def Act.call (id : Nat) : Act → Option Call
  | .sample c => if c.identity.playerId = id then some c else none
  | _ => none

theorem prune_slot (samples : Samples) (updateNowMs id : Nat) :
    samples.step (.prune updateNowMs) id = samples id ∨
      samples.step (.prune updateNowMs) id = none := by
  simp only [Samples.step]
  cases samples id with
  | none => exact .inl rfl
  | some state =>
    rw [Option.filter_some]
    split
    · exact .inl rfl
    · exact .inr rfl

theorem slot_history (acts : List Act) (id : Nat) :
    ∃ events : List Event, ((samplesAfter acts) id).getD {} = stateAfter events ∧
      events.reduceOption = acts.filterMap (Act.call id) := by
  induction acts using List.reverseRecOn with
  | nil => exact ⟨[], rfl, rfl⟩
  | append_singleton acts act ih =>
    obtain ⟨events, state, calls⟩ := ih
    have run : samplesAfter (acts ++ [act]) = (samplesAfter acts).step act := by
      simp [samplesAfter]
    rw [run, List.filterMap_append, ← calls]
    cases act with
    | sample c =>
      by_cases mine : c.identity.playerId = id
      · refine ⟨events ++ [some c], ?_, ?_⟩
        · rw [stateAfter_snoc, Samples.step, mine, Function.update_self, state]
          rfl
        · simp [Act.call, mine, List.reduceOption_append]
      · refine ⟨events, ?_, by simp [Act.call, mine]⟩
        rw [Samples.step, Function.update_of_ne (Ne.symm mine), state]
    | prune now =>
      rcases prune_slot (samplesAfter acts) now id with kept | dropped
      · exact ⟨events, by rw [kept, state], by simp [Act.call]⟩
      · refine ⟨events ++ [none], ?_, by simp [Act.call, List.reduceOption_append]⟩
        rw [dropped, stateAfter_snoc]
        rfl
    | clear =>
      refine ⟨events ++ [none], ?_, by simp [Act.call, List.reduceOption_append]⟩
      rw [stateAfter_snoc]
      rfl

end RadarPlayerSample
