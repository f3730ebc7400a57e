import GameSecurity.FlyPatch
import GameSecurity.TeleportMailbox

/- ProcessFlyOnGameThread, Tick after Tick: the movement fields it overrides, the
   snapshot it takes of them and the pointer it remembers with the snapshot. -/
namespace FlyMovement
open Runs FlyPatch TeleportMailbox

/-- A pointer of the game's 32-bit process; null is 0. -/
abbrev Player := Nat

def maxPointer : Nat := 2 ^ 32 - 1

def kPlayerWalkingSpeedOffset : Nat := 0x190

/-- The three fields from `kPlayerWalkingSpeedOffset` on. -/
structure MovementValues where
  walkingSpeed : Single
  jumpSpeed : Single
  jumpHoldTime : Single
  deriving DecidableEq, Repr

def noValues : MovementValues := ⟨0, 0, 0⟩

def Finite (values : MovementValues) : Prop :=
  isfinite values.walkingSpeed ∧ isfinite values.jumpSpeed ∧ isfinite values.jumpHoldTime

instance (values : MovementValues) : Decidable (Finite values) :=
  inferInstanceAs (Decidable (_ ∧ _))

/-- Limits are in multiples of the smallest float; 0x3E4CCCCD is 0.2. -/
def ValidFlyConfig (values : MovementValues) : Prop :=
  Finite values ∧
    0 ≤ signed values.walkingSpeed ∧ signed values.walkingSpeed ≤ 20000 * perUnit ∧
    10 * perUnit ≤ signed values.jumpSpeed ∧ signed values.jumpSpeed ≤ 20000 * perUnit ∧
    signed 0x3E4CCCCD ≤ signed values.jumpHoldTime ∧
    signed values.jumpHoldTime ≤ 999999 * perUnit

instance (values : MovementValues) : Decidable (ValidFlyConfig values) :=
  inferInstanceAs (Decidable (_ ∧ _))

/-- What a WriteProcessMemory does; a failed one may leave anything in the fields. -/
inductive WriteResult where
  | written
  | failed (left : MovementValues)
  deriving DecidableEq, Repr

/-- The movement fields behind each pointer and the snapshot taken of them. `written` are
   the pointers the current Tick has written through. -/
structure Movement where
  movement : Player → MovementValues
  snapshotPlayer : Player
  snapshot : MovementValues
  snapshotValid : Bool
  written : List Player

/-- The fly state of the DLL with the words published about it. -/
structure Fly extends Patch, Movement where
  publishedSnapshotValid : Int
  updateCount : Int
  restoreCount : Int

def Fly.setError (s : Fly) (flyError : FlyError) : Fly :=
  { s with toPatch := s.toPatch.setFlyError flyError }

/-- The pointer is set and `CheckedAdd` of the field offset does not wrap. -/
def Addressable (player : Player) : Prop :=
  player ≠ 0 ∧ kPlayerWalkingSpeedOffset ≤ maxPointer - player

instance (player : Player) : Decidable (Addressable player) :=
  inferInstanceAs (Decidable (_ ∧ _))

def readMovementValues (read : Bool) (player : Player) (s : Fly) : Option MovementValues :=
  if Addressable player ∧ read = true ∧ Finite (s.movement player) then some (s.movement player)
  else none

def Movement.put (m : Movement) (player : Player) (values : MovementValues) : Movement :=
  { m with
    movement := Function.update m.movement player values
    written := m.written ++ [player] }

def Fly.put (s : Fly) (player : Player) (values : MovementValues) : Fly :=
  { s with toMovement := s.toMovement.put player values }

def writeMovementValues (result : WriteResult) (player : Player) (values : MovementValues)
    (s : Fly) : Bool × Fly :=
  if ¬ Addressable player then (false, s)
  else
    match result with
    | .written => (true, s.put player values)
    | .failed left => (false, s.put player left)

def restoreMovementSnapshot (result : WriteResult) (s : Fly) : Bool × Fly :=
  if s.snapshotValid = false then (true, { s with publishedSnapshotValid := 0 })
  else
    let (ok, s) := writeMovementValues result s.snapshotPlayer s.snapshot s
    if ok = false then (false, s.setError .restore)
    else
      (true, { s with
        snapshotPlayer := 0
        snapshot := noValues
        snapshotValid := false
        publishedSnapshotValid := 0
        restoreCount := long (s.restoreCount + 1) })

/-- The snapshot of another player is dropped without a write. -/
def Fly.dropSnapshot (s : Fly) : Fly :=
  { s with
    snapshotPlayer := 0
    snapshot := noValues
    snapshotValid := false
    publishedSnapshotValid := 0 }

def saveMovementSnapshot (read : Bool) (player : Player) (s : Fly) : Bool × Fly :=
  if s.snapshotValid = true ∧ s.snapshotPlayer = player then (true, s)
  else
    let s := if s.snapshotValid = true then s.dropSnapshot else s
    match readMovementValues read player s with
    | none => (false, s.setError .movementRead)
    | some values =>
      (true, { s with
        snapshotPlayer := player
        snapshot := values
        snapshotValid := true
        publishedSnapshotValid := 1 })

/-- Which API calls of one Tick succeed. -/
structure TickCalls where
  read : Bool
  write : WriteResult
  restore : WriteResult
  enable : PatchCalls
  rollback : PatchCalls
  clear : PatchCalls

structure Tick where
  player : Player
  flyEnabled : Bool
  requested : MovementValues
  calls : TickCalls

def Fly.setPatch (s : Fly) (enabled : Bool) (calls rollback : PatchCalls) : Bool × Fly :=
  let (ok, patch) := setCanJumpPatch enabled calls rollback s.toPatch
  (ok, { s with toPatch := patch })

/-- Fields and bytes are put back, and `error` is reported when both are; the branch for
   fly off, the one for an invalid configuration and the worker's own restoration. -/
def restoreFly (calls : TickCalls) (error : FlyError) (s : Fly) : Bool × Fly :=
  let (movementOk, s) := restoreMovementSnapshot calls.restore s
  let (patchOk, s) := s.setPatch false calls.clear calls.rollback
  if movementOk = true ∧ patchOk = true then (true, s.setError error) else (false, s)

def processFly (tick : Tick) (s : Fly) : Fly :=
  if tick.flyEnabled = false then (restoreFly tick.calls .none s).2
  else if ¬ ValidFlyConfig tick.requested then (restoreFly tick.calls .invalidConfig s).2
  else
    let (saved, s) := saveMovementSnapshot tick.calls.read tick.player s
    if saved = false then s
    else
      let (patched, s) := s.setPatch true tick.calls.enable tick.calls.rollback
      if patched = false then (restoreMovementSnapshot tick.calls.restore s).2
      else
        let (ok, s) := writeMovementValues tick.calls.write tick.player tick.requested s
        if ok = false then
          let s := s.setError .movementWrite
          let (_, s) := s.setPatch false tick.calls.clear tick.calls.rollback
          (restoreMovementSnapshot tick.calls.restore s).2
        else { s.setError .none with updateCount := long (s.updateCount + 1) }

/-- A Tick of a local player, or anything the game itself does to the fields. -/
inductive Act where
  | tick (tick : Tick)
  | game (movement : Player → MovementValues)

def Fly.step (s : Fly) : Act → Fly
  | .tick tick => processFly tick { s with written := [] }
  | .game movement => { s with movement }

def Starting (s : Fly) : Prop := s.snapshotValid = false

def flying : Machine Fly Act where
  init := Starting
  step s a := some (s.step a)

theorem write_cases (result : WriteResult) (player : Player) (values : MovementValues)
    (s : Fly) :
    writeMovementValues result player values s = (false, s) ∧ ¬ Addressable player ∨
      writeMovementValues result player values s = (true, s.put player values) ∧
        Addressable player ∨
      ∃ left, writeMovementValues result player values s = (false, s.put player left) ∧
        Addressable player := by
  unfold writeMovementValues
  by_cases reached : Addressable player
  · rw [if_neg (not_not.mpr reached)]
    cases result with
    | written => exact Or.inr (Or.inl ⟨rfl, reached⟩)
    | failed left => exact Or.inr (Or.inr ⟨left, rfl, reached⟩)
  · rw [if_pos reached]
    exact Or.inl ⟨rfl, reached⟩

def Movement.clear (m : Movement) : Movement :=
  { m with snapshotPlayer := 0, snapshot := noValues, snapshotValid := false }

inductive Restored (m : Movement) : Movement → Prop where
  | nothing (invalid : m.snapshotValid = false) : Restored m m
  | unreached (valid : m.snapshotValid = true) (away : ¬ Addressable m.snapshotPlayer) :
      Restored m m
  | written (valid : m.snapshotValid = true) :
      Restored m (m.put m.snapshotPlayer m.snapshot).clear
  | failed (valid : m.snapshotValid = true) (left : MovementValues) :
      Restored m (m.put m.snapshotPlayer left)

theorem restore_restored (result : WriteResult) (s : Fly) :
    Restored s.toMovement (restoreMovementSnapshot result s).2.toMovement := by
  unfold restoreMovementSnapshot
  split
  · rename_i invalid
    exact .nothing invalid
  · rename_i valid
    rw [Bool.not_eq_false] at valid
    rcases write_cases result s.snapshotPlayer s.snapshot s with
      ⟨done, away⟩ | ⟨done, -⟩ | ⟨left, done, -⟩
    · rw [done]
      exact .unreached valid away
    · rw [done]
      exact .written valid
    · rw [done]
      exact .failed valid left

inductive Saved (player : Player) (m : Movement) : Bool → Movement → Prop where
  | kept (valid : m.snapshotValid = true) (own : m.snapshotPlayer = player) :
      Saved player m true m
  | unread (invalid : m.snapshotValid = false) : Saved player m false m
  | dropped (valid : m.snapshotValid = true) (other : m.snapshotPlayer ≠ player) :
      Saved player m false m.clear
  | taken (free : m.snapshotValid = true → m.snapshotPlayer ≠ player)
      (reached : Addressable player) :
      Saved player m true { m with
        snapshotPlayer := player, snapshot := m.movement player, snapshotValid := true }

theorem read_cases (read : Bool) (player : Player) (s : Fly) :
    readMovementValues read player s = none ∨
      readMovementValues read player s = some (s.movement player) ∧ Addressable player := by
  unfold readMovementValues
  split
  · rename_i done
    exact Or.inr ⟨rfl, done.1⟩
  · exact Or.inl rfl

theorem save_saved (read : Bool) (player : Player) (s : Fly) :
    Saved player s.toMovement (saveMovementSnapshot read player s).1
      (saveMovementSnapshot read player s).2.toMovement := by
  unfold saveMovementSnapshot
  split
  · rename_i own
    exact .kept own.1 own.2
  · rename_i free
    have free : s.snapshotValid = true → s.snapshotPlayer ≠ player := fun valid same =>
      free ⟨valid, same⟩
    split
    · rename_i valid
      dsimp only
      rcases read_cases read player s.dropSnapshot with unread | ⟨taken, reached⟩
      · rw [unread]
        exact .dropped valid (free valid)
      · rw [taken]
        exact .taken free reached
    · rename_i invalid
      dsimp only
      rcases read_cases read player s with unread | ⟨taken, reached⟩
      · rw [unread]
        exact .unread (Bool.eq_false_iff.mpr invalid)
      · rw [taken]
        exact .taken free reached

theorem saved_own {player : Player} {m n : Movement} (saved : Saved player m true n) :
    n.snapshotValid = true ∧ n.snapshotPlayer = player := by
  cases saved with
  | kept valid own => exact ⟨valid, own⟩
  | taken free reached => exact ⟨rfl, rfl⟩

theorem restoreFly_movement (calls : TickCalls) (error : FlyError) (s : Fly) :
    (restoreFly calls error s).2.toMovement =
      (restoreMovementSnapshot calls.restore s).2.toMovement := by
  unfold restoreFly
  dsimp only
  split
  · rfl
  · rfl

def SwitchedOff (tick : Tick) : Prop :=
  tick.flyEnabled = false ∨ ¬ ValidFlyConfig tick.requested

instance (tick : Tick) : Decidable (SwitchedOff tick) := inferInstanceAs (Decidable (_ ∨ _))

theorem process_off {tick : Tick} (off : SwitchedOff tick) (s : Fly) :
    (processFly tick s).toMovement =
      (restoreMovementSnapshot tick.calls.restore s).2.toMovement := by
  unfold processFly
  split
  · exact restoreFly_movement tick.calls .none s
  · rename_i enabled
    rw [if_pos (off.resolve_left enabled)]
    exact restoreFly_movement tick.calls .invalidConfig s

/-- The rule for a Tick: what its restorations and its own write preserve holds after it,
   when it holds before a Tick that puts things back and after the save of any other. -/
theorem process_rule {P : Movement → Prop} {tick : Tick} {s : Fly}
    (off : SwitchedOff tick → P s.toMovement)
    (saves : ¬ SwitchedOff tick → ∀ ok n, Saved tick.player s.toMovement ok n → P n)
    (restores : ∀ m n, P m → Restored m n → P n)
    (writes : ∀ m values, P m → m.snapshotValid = true → m.snapshotPlayer = tick.player →
      P (m.put tick.player values)) : P (processFly tick s).toMovement := by
  have restored : ∀ u : Fly, P u.toMovement →
      P (restoreMovementSnapshot tick.calls.restore u).2.toMovement :=
    fun u before => restores _ _ before (restore_restored tick.calls.restore u)
  by_cases switched : SwitchedOff tick
  · rw [process_off switched]
    exact restored s (off switched)
  · have on := saves switched
    unfold SwitchedOff at switched
    unfold processFly
    rw [if_neg (fun disabled => switched (Or.inl disabled)),
      if_neg (fun invalid => switched (Or.inr invalid))]
    have saved := save_saved tick.calls.read tick.player s
    have after := on _ _ saved
    generalize saveMovementSnapshot tick.calls.read tick.player s = result at saved after
    obtain ⟨ok, u⟩ := result
    dsimp only at saved after ⊢
    split
    · exact after
    · rename_i taken
      rw [Bool.not_eq_false] at taken
      subst taken
      obtain ⟨valid, own⟩ := saved_own saved
      split
      · exact restored _ after
      · rcases write_cases tick.calls.write tick.player tick.requested
          (u.setPatch true tick.calls.enable tick.calls.rollback).2 with
          ⟨done, -⟩ | ⟨done, -⟩ | ⟨left, done, -⟩
        · rw [done]
          exact restored _ after
        · rw [done]
          exact writes _ _ after valid own
        · rw [done]
          exact restored _ (writes _ _ after valid own)

/-- The fields of the player are the original ones unless the snapshot holds them. -/
structure Intact (player : Player) (original : MovementValues) (m : Movement) : Prop where
  own : m.snapshotValid = true → m.snapshotPlayer = player
  kept : m.snapshotValid = true → m.snapshot = original
  restored : m.snapshotValid = false → m.movement player = original

theorem restored_intact {player : Player} {original : MovementValues} {m n : Movement}
    (h : Intact player original m) (restored : Restored m n) : Intact player original n := by
  cases restored with
  | nothing invalid => exact h
  | unreached valid away => exact h
  | written valid =>
    constructor
    case own => exact fun stays => by cases stays
    case kept => exact fun stays => by cases stays
    case restored =>
      intro _
      simp only [Movement.clear, Movement.put, h.own valid, Function.update_self]
      exact h.kept valid
  | failed valid left =>
    constructor
    case own => exact h.own
    case kept => exact h.kept
    case restored => exact fun cleared => by simp [Movement.put, valid] at cleared

theorem saved_intact {player : Player} {original : MovementValues} {m n : Movement}
    {ok : Bool} (h : Intact player original m) (saved : Saved player m ok n) :
    Intact player original n := by
  cases saved with
  | kept valid own => exact h
  | unread invalid => exact h
  | dropped valid other => exact absurd (h.own valid) other
  | taken free reached =>
    have invalid : m.snapshotValid = false := by
      rw [← Bool.not_eq_true]
      exact fun valid => free valid (h.own valid)
    constructor
    case own => exact fun _ => rfl
    case kept => exact fun _ => h.restored invalid
    case restored => exact fun cleared => by cases cleared

theorem process_intact {player : Player} {original : MovementValues} {tick : Tick} {s : Fly}
    (own : tick.player = player) (h : Intact player original s.toMovement) :
    Intact player original (processFly tick s).toMovement := by
  subst own
  apply process_rule
  case off => exact fun _ => h
  case saves => exact fun _ _ _ saved => saved_intact h saved
  case restores => exact fun _ _ before restored => restored_intact before restored
  case writes =>
    intro m values before valid _
    constructor
    case own => exact before.own
    case kept => exact before.kept
    case restored => exact fun cleared => by simp [Movement.put, valid] at cleared

/-- What the snapshot promises about the fields of the player, whose values were `original`
   when no snapshot was held. -/
structure SnapshotIntegrity (player : Player) (original : MovementValues) (s : Fly) : Prop where
  kept : s.snapshotValid = true → s.snapshot = original
  restored : s.snapshotValid = false → s.movement player = original

/-- From any state without a snapshot, over any Ticks of one player. -/
theorem snapshot_integrity {player : Player} {start s : Fly} {ticks : List Tick}
    (begun : Starting start) (single : ∀ tick ∈ ticks, tick.player = player)
    (run : flying.exec start (ticks.map .tick) = some s) :
    SnapshotIntegrity player (start.movement player) s := by
  have intact : Intact player (start.movement player) start.toMovement := by
    unfold Starting at begun
    constructor
    case own => simp [begun]
    case kept => simp [begun]
    case restored => exact fun _ => rfl
  generalize start.movement player = original at intact ⊢
  clear begun
  induction ticks generalizing start with
  | nil =>
    simp only [List.map_nil, exec_nil, Option.some.injEq] at run
    subst s
    exact ⟨intact.kept, intact.restored⟩
  | cons tick rest ih =>
    obtain ⟨next, taken, tail⟩ := (exec_cons_iff flying).mp run
    have same : next = start.step (.tick tick) := (Option.some.inj taken).symm
    subst same
    have own := single tick (List.mem_cons_self ..)
    have later : ∀ t ∈ rest, t.player = player := fun t member =>
      single t (List.mem_cons_of_mem _ member)
    have cleared : Intact player original { start with written := [] }.toMovement :=
      ⟨intact.own, intact.kept, intact.restored⟩
    exact ih later tail (process_intact own cleared)

/-- A snapshot is kept with a pointer its values were read through. -/
def Held (m : Movement) : Prop := m.snapshotValid = true → Addressable m.snapshotPlayer

theorem saved_held {player : Player} {m n : Movement} {ok : Bool} (h : Held m)
    (saved : Saved player m ok n) : Held n := by
  cases saved with
  | kept valid own => exact h
  | unread invalid => exact h
  | dropped valid other => exact fun stays => by cases stays
  | taken free reached => exact fun _ => reached

theorem process_held {tick : Tick} {s : Fly} (h : Held s.toMovement) :
    Held (processFly tick s).toMovement := by
  apply process_rule
  case off => exact fun _ => h
  case saves => exact fun _ _ _ saved => saved_held h saved
  case restores =>
    intro m n before restored
    cases restored with
    | nothing invalid => exact before
    | unreached valid away => exact before
    | written valid => exact fun stays => by cases stays
    | failed valid left => exact before
  case writes => exact fun _ _ before _ _ => before

structure Own (player : Player) (m : Movement) : Prop where
  written : ∀ p ∈ m.written, p = player
  snapshot : m.snapshotValid = true → m.snapshotPlayer = player

theorem put_own {player : Player} {m : Movement} (values : MovementValues)
    (h : Own player m) : Own player (m.put player values) where
  written p member := by
    rcases List.mem_append.mp member with old | last
    · exact h.written p old
    · exact List.mem_singleton.mp last
  snapshot := h.snapshot

theorem restored_own {player : Player} {m n : Movement} (h : Own player m)
    (restored : Restored m n) : Own player n := by
  cases restored with
  | nothing invalid => exact h
  | unreached valid away => exact h
  | written valid =>
    rw [h.snapshot valid]
    exact ⟨(put_own m.snapshot h).written, fun stays => by cases stays⟩
  | failed valid left =>
    rw [h.snapshot valid]
    exact put_own left h

theorem save_own {player : Player} {m n : Movement} {ok : Bool}
    (untouched : m.written = []) (saved : Saved player m ok n) : Own player n := by
  have none : ∀ p ∈ m.written, p = player := by simp [untouched]
  cases saved with
  | kept valid own => exact ⟨none, fun _ => own⟩
  | unread invalid => exact ⟨none, fun valid => by simp [invalid] at valid⟩
  | dropped valid other => exact ⟨none, fun stays => by cases stays⟩
  | taken free reached => exact ⟨none, fun _ => rfl⟩

/-- Every write of the Tick goes through its own player. -/
def OwnWrites (s : Fly) : Act → Prop
  | .tick tick => ∀ p ∈ (s.step (.tick tick)).written, p = tick.player
  | .game _ => True

def Remembered (s : Fly) : Act → Prop
  | .tick tick =>
    SwitchedOff tick → s.snapshotValid = true → s.snapshotPlayer = tick.player
  | .game _ => True

instance (s : Fly) : ∀ a, Decidable (Remembered s a)
  | .tick _ => inferInstanceAs (Decidable (_ → _ → _))
  | .game _ => inferInstanceAs (Decidable True)

/-- A Tick that puts things back writes through the remembered pointer, whosever it is. -/
theorem off_written {tick : Tick} {s : Fly} (held : Held s.toMovement)
    (off : SwitchedOff tick) (valid : s.snapshotValid = true) :
    s.snapshotPlayer ∈ (processFly tick s).written := by
  rw [process_off off]
  have restored := restore_restored tick.calls.restore s
  generalize (restoreMovementSnapshot tick.calls.restore s).2.toMovement = n at restored
  cases restored with
  | nothing invalid => simp [invalid] at valid
  | unreached _ away => exact absurd (held valid) away
  | written _ => exact List.mem_append_right _ (List.mem_singleton_self _)
  | failed _ left => exact List.mem_append_right _ (List.mem_singleton_self _)

theorem own_writes_iff {s : Fly} {a : Act} (held : Held s.toMovement) :
    OwnWrites s a ↔ Remembered s a := by
  cases a with
  | game movement => exact Iff.rfl
  | tick tick =>
    constructor
    · intro own off valid
      exact own _ (off_written (s := { s with written := [] }) held off valid)
    · intro remembered
      have after : Own tick.player (s.step (.tick tick)).toMovement := by
        apply process_rule
        case off => exact fun off => ⟨by simp, remembered off⟩
        case saves => exact fun _ _ _ saved => save_own rfl saved
        case restores => exact fun _ _ before restored => restored_own before restored
        case writes => exact fun _ values before _ _ => put_own values before
      exact after.written

theorem held_invariant : Invariant flying fun s => Held s.toMovement where
  start s begun valid := by simp [show s.snapshotValid = false from begun] at valid
  kept s a t h taken := by
    have same : t = s.step a := (Option.some.inj taken).symm
    subst same
    cases a with
    | tick tick => exact process_held (s := { s with written := [] }) h
    | game movement => exact h

/-- The writes of every Tick stay inside its player exactly when no Tick that puts things
   back finds the snapshot of another one. -/
theorem writes_own_iff {start : Fly} {acts : List Act} (begun : Starting start) :
    flying.Along OwnWrites start acts ↔ flying.Along Remembered start acts := by
  have reach := reachable_start flying begun
  have held : ∀ s, flying.Reachable s → Held s.toMovement := fun s reach =>
    reachable_invariant flying held_invariant reach
  constructor
  · exact along_imp flying (fun s _ reach => (own_writes_iff (held s reach)).mp) reach
  · exact along_imp flying (fun s _ reach => (own_writes_iff (held s reach)).mpr) reach

def usualValues : MovementValues := ⟨0x43480000, 0x43960000, 0x3F000000⟩

def flyValues : MovementValues := ⟨0x44480000, 0x44160000, 0x3F800000⟩

def grounded : Fly where
  toPatch := unpatched
  movement := fun _ => usualValues
  snapshotPlayer := 0
  snapshot := noValues
  snapshotValid := false
  publishedSnapshotValid := 0
  updateCount := 0
  restoreCount := 0
  written := []

def succeeding : TickCalls := ⟨true, .written, .written, allSucceed, allSucceed, allSucceed⟩

def flyTick (player : Player) (flyEnabled : Bool) : Tick :=
  ⟨player, flyEnabled, flyValues, succeeding⟩

theorem grounded_starting : Starting grounded := rfl

theorem writes_own_one_player :
    flying.Along OwnWrites grounded [.tick (flyTick 4096 true), .tick (flyTick 4096 false)] := by
  refine (writes_own_iff grounded_starting).mpr ?_
  decide +kernel

/-- Fly is switched off between the Ticks of two players. -/
theorem writes_foreign :
    ¬ flying.Along OwnWrites grounded
      [.tick (flyTick 4096 true), .tick (flyTick 8192 false)] := by
  intro along
  have own := (along.2 _ rfl).1 4096 (by decide +kernel)
  revert own
  decide

/-- The write of the fly values fails half-way and so does the rollback; the next Tick puts
   the fields back. -/
def disturbed : List Tick :=
  [{ flyTick 4096 true with
      calls := { succeeding with write := .failed noValues, restore := .failed noValues } },
   flyTick 4096 false]

def disturbedFly : Fly := (flying.exec grounded (disturbed.map .tick)).get rfl

theorem snapshot_integrity_disturbed :
    disturbedFly.movement 4096 = usualValues ∧
      SnapshotIntegrity 4096 usualValues disturbedFly := by
  have run : flying.exec grounded (disturbed.map .tick) = some disturbedFly :=
    (Option.some_get _).symm
  have own : ∀ tick ∈ disturbed, tick.player = 4096 := by
    simp [disturbed, flyTick]
  have integrity := snapshot_integrity grounded_starting own run
  exact ⟨integrity.restored (by decide +kernel), integrity⟩

end FlyMovement
