import GameSecurity.FlyMovement

/- The unload of the DLL: the worker's shutdown, the Ticks of the game thread and the
   controllers, one access to a shared word a step. All API calls succeed. -/
namespace FlyUnload
open Runs FlyPatch FlyMovement TeleportMailbox

inductive Holder where
  | tick
  | worker
  deriving DecidableEq, Repr

/-- What HookPlayerTick does next. In the `prologue` it is in the detour but not counted
   yet; it holds the fly lock from `readEnabled` to `rollBack`. -/
inductive TickStage where
  | outside
  | prologue
  | entered
  | atLock
  | readEnabled
  | readWalkingSpeed
  | readJumpSpeed
  | readJumpHoldTime
  | restore
  | clear
  | drop
  | save
  | patch
  | write
  | unpatch
  | rollBack
  | leaving
  deriving DecidableEq, Repr

structure TickRun where
  stage : TickStage
  player : Player
  isLocal : Bool
  requested : MovementValues
  error : FlyError
  movementOk : Bool
  deriving DecidableEq, Repr

/-- What the worker does next, from the end of its loop on. -/
inductive WorkerStage where
  | running
  | clearEnabled
  | readSnapshot (attempt : Nat)
  | readPatch (attempt : Nat)
  | enterLock
  | restore
  | clear (movementOk : Bool)
  | disableHooks
  | drain
  | removeHooks
  | deleteLock
  | clearInitialized
  | exitWorker
  | failed
  deriving DecidableEq, Repr

structure World where
  fly : Fly
  flyEnabled : Int
  requested : MovementValues
  lock : Option Holder
  lockInitialized : Bool
  hooked : Bool
  activeCalls : Int
  tick : TickRun
  worker : WorkerStage

def World.setTick (w : World) (tick : TickRun) : World := { w with tick }

def World.setWorker (w : World) (worker : WorkerStage) : World := { w with worker }

def World.leave (w : World) (tick : TickRun) (fly : Fly) : World :=
  { w.setTick { tick with stage := .leaving } with fly, lock := none }

/-- The section turns to its restorations; `error` is what it reports after them. -/
def World.putBack (w : World) (tick : TickRun) (error : FlyError) : World :=
  w.setTick { tick with stage := .restore, error }

/-- ProcessFlyOnGameThread up to its lock, for a local player. -/
def World.enterFly (w : World) (tick : TickRun) : World :=
  w.setTick { tick with
    stage := if tick.isLocal = true ∧ w.lockInitialized = true then .atLock else .leaving }

/-- A deleted critical section is entered as a free one is; a Tick that hangs there takes
   no further step. -/
def World.enterLock (w : World) (tick : TickRun) : Option World :=
  if w.lock = none then
    some { w.setTick { tick with stage := .readEnabled } with lock := some .tick }
  else none

def World.readJumpHoldTime (w : World) (tick : TickRun) : World :=
  let tick := { tick with
    requested := { tick.requested with jumpHoldTime := w.requested.jumpHoldTime } }
  if ValidFlyConfig tick.requested then w.setTick { tick with stage := .drop }
  else w.putBack tick .invalidConfig

def World.drop (w : World) (tick : TickRun) : World :=
  { w.setTick { tick with stage := .save } with
    fly := if w.fly.snapshotValid = true ∧ w.fly.snapshotPlayer ≠ tick.player then
        w.fly.dropSnapshot
      else w.fly }

def World.save (w : World) (tick : TickRun) : World :=
  let (ok, fly) := saveMovementSnapshot true tick.player w.fly
  if ok = true then
    { w.setTick { tick with stage := .patch } with fly }
  else w.leave tick fly

def World.write (w : World) (tick : TickRun) : World :=
  let (ok, fly) := writeMovementValues .written tick.player tick.requested w.fly
  if ok = true then
    w.leave tick { fly.setError .none with updateCount := long (fly.updateCount + 1) }
  else { w.setTick { tick with stage := .unpatch } with fly := fly.setError .movementWrite }

def World.tickStep (w : World) (tick : TickRun) : Option World :=
  match tick.stage with
  | .outside => none
  | .prologue =>
    some { w.setTick { tick with stage := .entered } with activeCalls := w.activeCalls + 1 }
  | .entered => some (w.enterFly tick)
  | .atLock => w.enterLock tick
  | .readEnabled =>
    some (if w.flyEnabled = 0 then w.putBack tick .none
      else w.setTick { tick with stage := .readWalkingSpeed })
  | .readWalkingSpeed =>
    some (w.setTick { tick with
      requested := { tick.requested with walkingSpeed := w.requested.walkingSpeed }
      stage := .readJumpSpeed })
  | .readJumpSpeed =>
    some (w.setTick { tick with
      requested := { tick.requested with jumpSpeed := w.requested.jumpSpeed }
      stage := .readJumpHoldTime })
  | .readJumpHoldTime => some (w.readJumpHoldTime tick)
  | .restore =>
    let (ok, fly) := restoreMovementSnapshot .written w.fly
    some { w.setTick { tick with stage := .clear, movementOk := ok } with fly }
  | .clear =>
    let (ok, fly) := w.fly.setPatch false allSucceed allSucceed
    some (w.leave tick
      (if tick.movementOk = true ∧ ok = true then fly.setError tick.error else fly))
  | .drop => some (w.drop tick)
  | .save => some (w.save tick)
  | .patch =>
    let (ok, fly) := w.fly.setPatch true allSucceed allSucceed
    some { w.setTick { tick with stage := if ok = true then .write else .rollBack } with fly }
  | .write => some (w.write tick)
  | .unpatch =>
    let (_, fly) := w.fly.setPatch false allSucceed allSucceed
    some { w.setTick { tick with stage := .rollBack } with fly }
  | .rollBack => some (w.leave tick (restoreMovementSnapshot .written w.fly).2)
  | .leaving =>
    some { w.setTick { tick with stage := .outside } with activeCalls := w.activeCalls - 1 }

/-- RestoreFlyBeforeShutdown polls this often. -/
def attempts : Nat := 25

def nextAttempt (attempt : Nat) : WorkerStage :=
  if attempt + 1 < attempts then .readSnapshot (attempt + 1) else .enterLock

def World.workerStep (w : World) : Option World :=
  match w.worker with
  | .running => some (w.setWorker .clearEnabled)
  | .clearEnabled => some { w.setWorker (.readSnapshot 0) with flyEnabled := 0 }
  | .readSnapshot attempt =>
    some (w.setWorker
      (if w.fly.publishedSnapshotValid = 0 then .readPatch attempt else nextAttempt attempt))
  | .readPatch attempt =>
    some (w.setWorker
      (if w.fly.publishedActive = 0 then .disableHooks else nextAttempt attempt))
  | .enterLock =>
    if w.lock = none then
      some { w.setWorker .restore with lock := some .worker }
    else none
  | .restore =>
    let (ok, fly) := restoreMovementSnapshot .written w.fly
    some { w.setWorker (.clear ok) with fly }
  | .clear movementOk =>
    let (ok, fly) := w.fly.setPatch false allSucceed allSucceed
    let restored := movementOk = true ∧ ok = true
    some { w.setWorker (if restored then .disableHooks else .failed) with
      fly := if restored then fly.setError .none else fly
      lock := none }
  | .disableHooks => some { w.setWorker .drain with hooked := false }
  | .drain => some (w.setWorker (if w.activeCalls = 0 then .removeHooks else .drain))
  | .removeHooks => some (w.setWorker .deleteLock)
  | .deleteLock => some (w.setWorker .clearInitialized)
  | .clearInitialized => some { w.setWorker .exitWorker with lockInitialized := false }
  | .exitWorker => none
  | .failed => none

/-- `enter` is a call of the hooked Player::Tick, `tick` and `work` the next steps of the
   game thread and of the worker; the game may change the fields itself. In the worker's
   last stage ExitWorker(0) is reached and the code is not freed yet. -/
inductive Act where
  | enter (player : Player) (isLocal : Bool)
  | tick
  | work
  | setEnabled (value : Int)
  | setWalkingSpeed (value : Single)
  | setJumpSpeed (value : Single)
  | setJumpHoldTime (value : Single)
  | game (movement : Player → MovementValues)

def World.step (w : World) : Act → Option World
  | .enter player isLocal =>
    if w.hooked = true ∧ w.tick.stage = .outside then
      some (w.setTick { w.tick with stage := .prologue, player, isLocal })
    else none
  | .tick => w.tickStep w.tick
  | .work => w.workerStep
  | .setEnabled value => some { w with flyEnabled := value }
  | .setWalkingSpeed value =>
    some { w with requested := { w.requested with walkingSpeed := value } }
  | .setJumpSpeed value => some { w with requested := { w.requested with jumpSpeed := value } }
  | .setJumpHoldTime value =>
    some { w with requested := { w.requested with jumpHoldTime := value } }
  | .game movement => some { w with fly := { w.fly with movement } }

structure Starting (w : World) : Prop where
  patch : FlyPatch.Starting w.fly.toPatch
  snapshot : FlyMovement.Starting w.fly
  lock : w.lock = none
  initialized : w.lockInitialized = true
  calls : w.activeCalls = 0
  tick : w.tick.stage = .outside
  worker : w.worker = .running

def unloading : Machine World Act where
  init := Starting
  step := World.step

def inSection : TickStage → Bool
  | .outside | .prologue | .entered | .atLock | .leaving => false
  | _ => true

/-- The stages of a Tick that HookActivityGuard counts. -/
def counted : TickStage → Bool
  | .outside | .prologue => false
  | _ => true

def restoring : WorkerStage → Bool
  | .restore | .clear _ => true
  | _ => false

/-- Who is where: the lock and the count of active hook calls. -/
structure Order (w : World) : Prop where
  tick : w.lock = some .tick ↔ inSection w.tick.stage = true
  worker : w.lock = some .worker ↔ restoring w.worker = true
  calls : w.activeCalls = if counted w.tick.stage = true then 1 else 0

theorem order_start {w : World} (start : Starting w) : Order w := by
  constructor
  case tick => simp [start.lock, start.tick, inSection]
  case worker => simp [start.lock, start.worker, restoring]
  case calls => simp [start.calls, start.tick, counted]

theorem order_move {w v : World} (h : Order w)
    (same : counted v.tick.stage = counted w.tick.stage)
    (lock : v.lock = some .tick ↔ inSection v.tick.stage = true)
    (other : v.lock = some .worker ↔ w.lock = some .worker) (worker : v.worker = w.worker)
    (calls : v.activeCalls = w.activeCalls) : Order v := by
  constructor
  case tick => exact lock
  case worker => exact other.trans (worker ▸ h.worker)
  case calls => rw [calls, same, h.calls]

theorem section_counted {stage : TickStage} (inside : inSection stage = true) :
    counted stage = true := by
  cases stage <;> first | rfl | cases inside

theorem order_stay {w v : World} (h : Order w) (before : inSection w.tick.stage = true)
    (after : inSection v.tick.stage = true) (lock : v.lock = w.lock) (worker : v.worker = w.worker)
    (calls : v.activeCalls = w.activeCalls) : Order v := by
  refine order_move h ?_ ?_ (by rw [lock]) worker calls
  · rw [section_counted before, section_counted after]
  · rw [lock, after, h.tick, before]

theorem order_outside {w v : World} (h : Order w) (before : inSection w.tick.stage = false)
    (after : inSection v.tick.stage = false)
    (same : counted v.tick.stage = counted w.tick.stage) (lock : v.lock = w.lock)
    (worker : v.worker = w.worker) (calls : v.activeCalls = w.activeCalls) : Order v := by
  refine order_move h same ?_ (by rw [lock]) worker calls
  rw [lock, after, h.tick, before]

theorem order_leave {w : World} (h : Order w) (inside : inSection w.tick.stage = true)
    (tick : TickRun) (fly : Fly) : Order (w.leave tick fly) := by
  have held := h.tick.mpr inside
  refine order_move h ?_ ?_ ?_ rfl rfl
  · rw [section_counted inside]
    rfl
  · simp [World.leave, World.setTick, inSection]
  · simp [World.leave, held]

theorem tick_order {w v : World} (h : Order w) (taken : w.tickStep w.tick = some v) :
    Order v := by
  cases stage : w.tick.stage <;>
    simp only [World.tickStep, stage, Option.some.injEq, reduceCtorEq] at taken
  case prologue =>
    subst taken
    have away := h.tick
    have count := h.calls
    simp only [stage, inSection, counted, reduceCtorEq, if_false, iff_false] at away count
    constructor
    case tick => simp [World.setTick, inSection, away]
    case worker => exact h.worker
    case calls => simp [World.setTick, counted, count]
  case entered =>
    subst taken
    unfold World.enterFly
    refine order_outside h (by rw [stage]; rfl) ?_ ?_ rfl rfl rfl
    · simp only [World.setTick]
      split <;> rfl
    · rw [stage]
      simp only [World.setTick]
      split <;> rfl
  case atLock =>
    unfold World.enterLock at taken
    split at taken
    · rename_i free
      rw [← Option.some.inj taken]
      refine order_move h (by rw [stage]; rfl) ?_ ?_ rfl rfl
      · simp [World.setTick, inSection]
      · simp [free]
    · cases taken
  case leaving =>
    subst taken
    have away := h.tick
    have count := h.calls
    simp only [stage, inSection, counted, if_true, iff_false, reduceCtorEq] at away count
    constructor
    case tick => simp [World.setTick, inSection, away]
    case worker => exact h.worker
    case calls => simp [World.setTick, counted, count]
  all_goals have inside : inSection w.tick.stage = true := by rw [stage]; rfl
  case readEnabled =>
    subst taken
    split
    · exact order_stay h inside rfl rfl rfl rfl
    · exact order_stay h inside rfl rfl rfl rfl
  case readJumpHoldTime =>
    subst taken
    unfold World.readJumpHoldTime
    dsimp only
    split
    · exact order_stay h inside rfl rfl rfl rfl
    · exact order_stay h inside rfl rfl rfl rfl
  case clear =>
    subst taken
    exact order_leave h inside _ _
  case save =>
    subst taken
    unfold World.save
    dsimp only
    split
    · exact order_stay h inside rfl rfl rfl rfl
    · exact order_leave h inside _ _
  case patch =>
    subst taken
    refine order_stay h inside ?_ rfl rfl rfl
    simp only [World.setTick]
    split <;> rfl
  case write =>
    subst taken
    unfold World.write
    dsimp only
    split
    · exact order_leave h inside _ _
    · exact order_stay h inside rfl rfl rfl rfl
  case rollBack =>
    subst taken
    exact order_leave h inside _ _
  all_goals
    subst taken
    exact order_stay h inside rfl rfl rfl rfl

theorem order_work {w v : World} (h : Order w) (before : restoring w.worker = false)
    (after : restoring v.worker = false) (lock : v.lock = w.lock)
    (tick : v.tick = w.tick) (calls : v.activeCalls = w.activeCalls) : Order v := by
  have away : w.lock ≠ some .worker := by
    rw [ne_eq, h.worker, before]
    decide
  constructor
  case tick =>
    rw [lock, tick]
    exact h.tick
  case worker => simp [lock, away, after]
  case calls =>
    rw [calls, tick]
    exact h.calls

/-- The worker has read the snapshot's word and reads the patch's next. -/
def betweenReads : WorkerStage → Bool
  | .readPatch _ => true
  | _ => false

/-- The worker's stages from its last look at the two words on. -/
def checked : WorkerStage → Bool
  | .disableHooks | .drain | .removeHooks | .deleteLock | .clearInitialized | .exitWorker => true
  | _ => false

theorem nextAttempt_polls (attempt : Nat) :
    restoring (nextAttempt attempt) = false ∧ betweenReads (nextAttempt attempt) = false ∧
      checked (nextAttempt attempt) = false := by
  unfold nextAttempt
  split
  · exact ⟨rfl, rfl, rfl⟩
  · exact ⟨rfl, rfl, rfl⟩

theorem work_order {w v : World} (h : Order w) (taken : w.workerStep = some v) : Order v := by
  cases stage : w.worker <;>
    simp only [World.workerStep, stage, Option.some.injEq, reduceCtorEq] at taken
  case enterLock =>
    split at taken
    · rename_i free
      rw [← Option.some.inj taken]
      constructor
      case tick =>
        have outside := h.tick
        simp only [free, reduceCtorEq, false_iff] at outside
        simp [World.setWorker, outside]
      case worker => simp [World.setWorker, restoring]
      case calls => exact h.calls
    · cases taken
  case restore =>
    subst taken
    have held : w.lock = some .worker := h.worker.mpr (by rw [stage]; rfl)
    constructor
    case tick => exact h.tick
    case worker => simp [World.setWorker, restoring, held]
    case calls => exact h.calls
  case clear movementOk =>
    subst taken
    have held : w.lock = some .worker := h.worker.mpr (by rw [stage]; rfl)
    have outside := h.tick
    simp only [held, Option.some.injEq, reduceCtorEq, false_iff] at outside
    constructor
    case tick => simp [World.setWorker, outside]
    case worker =>
      simp only [World.setWorker]
      split <;> simp [restoring]
    case calls => exact h.calls
  all_goals
    subst taken
    refine order_work h (by rw [stage]; rfl) ?_ rfl rfl rfl
    simp only [World.setWorker]
  case readSnapshot attempt =>
    split
    · rfl
    · exact (nextAttempt_polls attempt).1
  case readPatch attempt =>
    split
    · rfl
    · exact (nextAttempt_polls attempt).1
  case drain => split <;> rfl
  all_goals rfl

theorem step_order {w v : World} {a : Act} (h : Order w) (taken : w.step a = some v) :
    Order v := by
  cases a with
  | enter player isLocal =>
    simp only [World.step, Option.ite_none_right_eq_some, Option.some.injEq] at taken
    obtain ⟨⟨-, outside⟩, rfl⟩ := taken
    exact order_outside h (by rw [outside]; rfl) rfl (by rw [outside]; rfl) rfl rfl rfl
  | tick => exact tick_order h taken
  | work => exact work_order h taken
  | _ =>
    simp only [World.step, Option.some.injEq] at taken
    subst taken
    exact ⟨h.tick, h.worker, h.calls⟩

/-- The bytes follow the flag, a snapshot can be written back, and the published words do
   not hide either. -/
structure Sound (fly : Fly) : Prop where
  ready : Ready fly.toPatch
  bytes : fly.bytes = if fly.active = true then kEnabledCanJump else kExpectedCanJump
  held : Held fly.toMovement
  shownActive : fly.active = true → fly.publishedActive ≠ 0
  shownSnapshot : fly.snapshotValid = true → fly.publishedSnapshotValid ≠ 0

theorem restore_effect {fly : Fly} (h : Sound fly) :
    (restoreMovementSnapshot .written fly).1 = true ∧
      Sound (restoreMovementSnapshot .written fly).2 ∧
      (restoreMovementSnapshot .written fly).2.snapshotValid = false ∧
      (restoreMovementSnapshot .written fly).2.active = fly.active := by
  unfold restoreMovementSnapshot
  split
  · rename_i invalid
    refine ⟨rfl, ⟨h.ready, h.bytes, h.held, h.shownActive, fun valid => ?_⟩, invalid, rfl⟩
    rw [invalid] at valid
    cases valid
  · rename_i valid
    rw [Bool.not_eq_false] at valid
    have reached := h.held valid
    simp only [writeMovementValues, not_not.mpr reached, if_false]
    refine ⟨rfl, ⟨h.ready, h.bytes, ?_, h.shownActive, ?_⟩, rfl, rfl⟩
    · exact fun stays => by cases stays
    · exact fun stays => by cases stays

theorem clear_effect {fly : Fly} (h : Sound fly) :
    (fly.setPatch false allSucceed allSucceed).1 = true ∧
      Sound (fly.setPatch false allSucceed allSucceed).2 ∧
      (fly.setPatch false allSucceed allSucceed).2.active = false ∧
      (fly.setPatch false allSucceed allSucceed).2.snapshotValid = fly.snapshotValid := by
  have bytes := h.bytes
  have switched : ∀ s, setCanJumpPatch false allSucceed allSucceed s =
      clearCanJumpPatch allSucceed s := fun _ => rfl
  unfold Fly.setPatch
  rw [switched]
  cases active : fly.active with
  | false =>
    rw [clear_idle h.ready active]
    refine ⟨rfl, ?_, active, rfl⟩
    constructor
    case ready => exact ⟨h.ready.target, h.ready.saved, h.ready.original⟩
    case bytes => exact h.bytes
    case held => exact h.held
    case shownActive => exact fun stays => by simp [active] at stays
    case shownSnapshot => exact h.shownSnapshot
  | true =>
    rw [active, if_pos rfl] at bytes
    rw [clear_succeeds h.ready active bytes]
    refine ⟨rfl, ?_, rfl, rfl⟩
    constructor
    case ready => exact ⟨h.ready.target, h.ready.saved, h.ready.original⟩
    case bytes => exact h.ready.original
    case held => exact h.held
    case shownActive => exact fun stays => by cases stays
    case shownSnapshot => exact h.shownSnapshot

theorem patch_effect {fly : Fly} (h : Sound fly) :
    (fly.setPatch true allSucceed allSucceed).1 = true ∧
      Sound (fly.setPatch true allSucceed allSucceed).2 ∧
      (fly.setPatch true allSucceed allSucceed).2.active = true ∧
      (fly.setPatch true allSucceed allSucceed).2.toMovement = fly.toMovement := by
  have bytes := h.bytes
  unfold Fly.setPatch
  cases active : fly.active with
  | true =>
    rw [set_active h.ready active]
    exact ⟨rfl, h, active, rfl⟩
  | false =>
    rw [active, if_neg (by simp), ← h.ready.original] at bytes
    rw [set_succeeds h.ready active bytes]
    refine ⟨rfl, ?_, rfl, rfl⟩
    constructor
    case ready => exact ⟨h.ready.target, h.ready.saved, h.ready.original⟩
    case bytes => rfl
    case held => exact h.held
    case shownActive => exact fun _ => by simp
    case shownSnapshot => exact h.shownSnapshot

theorem saveMovementSnapshot_patch (read : Bool) (player : Player) (fly : Fly) :
    (saveMovementSnapshot read player fly).2.bytes = fly.bytes ∧
      (saveMovementSnapshot read player fly).2.active = fly.active ∧
      (saveMovementSnapshot read player fly).2.publishedActive = fly.publishedActive ∧
      Kept fly.toPatch (saveMovementSnapshot read player fly).2.toPatch := by
  unfold saveMovementSnapshot
  split
  · exact ⟨rfl, rfl, rfl, kept_refl _⟩
  · split
    · dsimp only
      split
      · exact ⟨rfl, rfl, rfl, ⟨rfl, rfl, rfl⟩⟩
      · exact ⟨rfl, rfl, rfl, ⟨rfl, rfl, rfl⟩⟩
    · dsimp only
      split
      · exact ⟨rfl, rfl, rfl, ⟨rfl, rfl, rfl⟩⟩
      · exact ⟨rfl, rfl, rfl, kept_refl _⟩

theorem save_shown {fly : Fly} (read : Bool) (player : Player)
    (shown : fly.snapshotValid = true → fly.publishedSnapshotValid ≠ 0) :
    (saveMovementSnapshot read player fly).2.snapshotValid = true →
      (saveMovementSnapshot read player fly).2.publishedSnapshotValid ≠ 0 := by
  unfold saveMovementSnapshot
  split
  · exact shown
  · split
    · dsimp only
      split
      · exact fun valid => by cases valid
      · exact fun _ => by simp
    · rename_i invalid
      dsimp only
      split
      · exact fun valid => absurd valid invalid
      · exact fun _ => by simp

theorem save_effect {fly : Fly} (h : Sound fly) (player : Player) :
    Sound (saveMovementSnapshot true player fly).2 ∧
      (saveMovementSnapshot true player fly).2.active = fly.active ∧
      (saveMovementSnapshot true player fly).2.publishedActive = fly.publishedActive := by
  obtain ⟨bytes, active, published, kept⟩ := saveMovementSnapshot_patch true player fly
  refine ⟨?_, active, published⟩
  constructor
  case ready => exact ready_kept h.ready kept
  case bytes => rw [bytes, active, h.bytes]
  case held => exact saved_held h.held (save_saved true player fly)
  case shownActive =>
    rw [active, published]
    exact h.shownActive
  case shownSnapshot => exact save_shown true player h.shownSnapshot

theorem write_effect {fly : Fly} (h : Sound fly) {player : Player}
    (valid : fly.snapshotValid = true) (own : fly.snapshotPlayer = player)
    (values : MovementValues) :
    writeMovementValues .written player values fly = (true, fly.put player values) := by
  have reached := own ▸ h.held valid
  simp only [writeMovementValues, not_not.mpr reached, if_false]

theorem sound_setError {fly : Fly} (h : Sound fly) (error : FlyError) :
    Sound (fly.setError error) :=
  ⟨⟨h.ready.target, h.ready.saved, h.ready.original⟩, h.bytes, h.held, h.shownActive,
    h.shownSnapshot⟩

def Taken (fly : Fly) (player : Player) : Prop :=
  fly.snapshotValid = true ∧ fly.snapshotPlayer = player

/-- How far a section of a Tick or of the worker has come with the snapshot. -/
def TickAt (fly : Fly) (tick : TickRun) : Prop :=
  match tick.stage with
  | .clear => fly.snapshotValid = false
  | .patch | .write => Taken fly tick.player
  | .unpatch | .rollBack => False
  | _ => True

def WorkerAt (fly : Fly) : WorkerStage → Prop
  | .clear _ => fly.snapshotValid = false
  | _ => True

structure Section (w : World) : Prop where
  sound : Sound w.fly
  tick : TickAt w.fly w.tick
  worker : WorkerAt w.fly w.worker

theorem tickAt_outside {fly : Fly} {tick : TickRun} (outside : inSection tick.stage = false) :
    TickAt fly tick := by
  unfold TickAt
  cases stage : tick.stage <;> simp_all [inSection]

theorem order_idle {w : World} (order : Order w) (inside : inSection w.tick.stage = true) :
    restoring w.worker = false := by
  cases busy : restoring w.worker with
  | false => rfl
  | true =>
    have owner := order.worker.mpr busy
    rw [order.tick.mpr inside] at owner
    cases owner

theorem workerAt_idle {fly : Fly} {worker : WorkerStage} (idle : restoring worker = false) :
    WorkerAt fly worker := by
  unfold WorkerAt
  split
  · cases idle
  · trivial

theorem save_section {w : World} (h : Section w) (idle : restoring w.worker = false) :
    Section (w.save w.tick) := by
  obtain ⟨sound, -⟩ := save_effect h.sound w.tick.player
  have saved := save_saved true w.tick.player w.fly
  unfold World.save
  dsimp only
  split
  · rename_i ok
    rw [ok] at saved
    exact ⟨sound, saved_own saved, workerAt_idle idle⟩
  · exact ⟨sound, trivial, workerAt_idle idle⟩

theorem tick_section {w v : World} (order : Order w) (h : Section w)
    (taken : w.tickStep w.tick = some v) : Section v := by
  have here := h.tick
  unfold TickAt at here
  cases stage : w.tick.stage <;>
    simp only [World.tickStep, stage, Option.some.injEq, reduceCtorEq] at taken here
  case prologue =>
    subst taken
    exact ⟨h.sound, trivial, h.worker⟩
  case entered =>
    subst taken
    refine ⟨h.sound, tickAt_outside ?_, h.worker⟩
    simp only [World.enterFly, World.setTick]
    split <;> rfl
  case atLock =>
    unfold World.enterLock at taken
    split at taken
    · rw [← Option.some.inj taken]
      exact ⟨h.sound, trivial, h.worker⟩
    · cases taken
  case leaving =>
    subst taken
    exact ⟨h.sound, trivial, h.worker⟩
  all_goals have idle : restoring w.worker = false := order_idle order (by rw [stage]; rfl)
  case readEnabled =>
    subst taken
    split
    · exact ⟨h.sound, trivial, h.worker⟩
    · exact ⟨h.sound, trivial, h.worker⟩
  case readWalkingSpeed =>
    subst taken
    exact ⟨h.sound, trivial, h.worker⟩
  case readJumpSpeed =>
    subst taken
    exact ⟨h.sound, trivial, h.worker⟩
  case readJumpHoldTime =>
    subst taken
    unfold World.readJumpHoldTime
    dsimp only
    split
    · exact ⟨h.sound, trivial, h.worker⟩
    · exact ⟨h.sound, trivial, h.worker⟩
  case restore =>
    subst taken
    obtain ⟨-, sound, invalid, -⟩ := restore_effect h.sound
    exact ⟨sound, invalid, workerAt_idle idle⟩
  case clear =>
    subst taken
    obtain ⟨-, sound, -, -⟩ := clear_effect h.sound
    refine ⟨?_, trivial, workerAt_idle idle⟩
    simp only [World.leave]
    split
    · exact sound_setError sound _
    · exact sound
  case drop =>
    subst taken
    refine ⟨?_, trivial, workerAt_idle idle⟩
    unfold World.drop
    dsimp only
    split
    · refine ⟨h.sound.ready, h.sound.bytes, ?_, h.sound.shownActive, ?_⟩
      · exact fun stays => by cases stays
      · exact fun stays => by cases stays
    · exact h.sound
  case save =>
    subst taken
    exact save_section h idle
  case patch =>
    subst taken
    obtain ⟨done, sound, -, same⟩ := patch_effect h.sound
    rw [done]
    refine ⟨sound, ?_, workerAt_idle idle⟩
    show Taken (w.fly.setPatch true allSucceed allSucceed).2 w.tick.player
    unfold Taken
    rw [same]
    exact here
  case write =>
    subst taken
    unfold World.write
    rw [write_effect h.sound here.1 here.2]
    exact ⟨⟨⟨h.sound.ready.target, h.sound.ready.saved, h.sound.ready.original⟩, h.sound.bytes,
      h.sound.held, h.sound.shownActive, h.sound.shownSnapshot⟩, trivial, workerAt_idle idle⟩

theorem work_section {w v : World} (order : Order w) (h : Section w)
    (taken : w.workerStep = some v) : Section v := by
  cases stage : w.worker <;>
    simp only [World.workerStep, stage, Option.some.injEq, reduceCtorEq] at taken
  case enterLock =>
    split at taken
    · rw [← Option.some.inj taken]
      exact ⟨h.sound, h.tick, trivial⟩
    · cases taken
  case restore =>
    subst taken
    have held : w.lock = some .worker := order.worker.mpr (by rw [stage]; rfl)
    have outside := order.tick
    simp only [held, Option.some.injEq, reduceCtorEq, false_iff, Bool.not_eq_true] at outside
    obtain ⟨-, sound, invalid, -⟩ := restore_effect h.sound
    exact ⟨sound, tickAt_outside outside, invalid⟩
  case clear movementOk =>
    subst taken
    have held : w.lock = some .worker := order.worker.mpr (by rw [stage]; rfl)
    have outside := order.tick
    simp only [held, Option.some.injEq, reduceCtorEq, false_iff, Bool.not_eq_true] at outside
    obtain ⟨-, sound, -, -⟩ := clear_effect h.sound
    refine ⟨?_, tickAt_outside outside, workerAt_idle ?_⟩
    · dsimp only
      split
      · exact sound_setError sound _
      · exact sound
    · simp only [World.setWorker]
      split <;> rfl
  all_goals
    subst taken
    refine ⟨h.sound, h.tick, workerAt_idle ?_⟩
    simp only [World.setWorker]
  case readSnapshot attempt =>
    split
    · rfl
    · exact (nextAttempt_polls attempt).1
  case readPatch attempt =>
    split
    · rfl
    · exact (nextAttempt_polls attempt).1
  case drain => split <;> rfl
  all_goals rfl

theorem section_start {w : World} (start : Starting w) : Section w := by
  obtain ⟨ready, inPlace, inactive⟩ := start.patch
  have invalid : w.fly.snapshotValid = false := start.snapshot
  refine ⟨?_, tickAt_outside (by rw [start.tick]; rfl), workerAt_idle (by rw [start.worker]; rfl)⟩
  constructor
  case ready => exact ready
  case bytes => rw [inPlace, ready.original, inactive, if_neg (by simp)]
  case held => exact fun valid => by simp [invalid] at valid
  case shownActive => exact fun active => by simp [inactive] at active
  case shownSnapshot => exact fun valid => by simp [invalid] at valid

theorem step_section {w v : World} {a : Act} (order : Order w) (h : Section w)
    (taken : w.step a = some v) : Section v := by
  cases a with
  | enter player isLocal =>
    simp only [World.step, Option.ite_none_right_eq_some, Option.some.injEq] at taken
    obtain ⟨-, rfl⟩ := taken
    exact ⟨h.sound, trivial, h.worker⟩
  | tick => exact tick_section order h taken
  | work => exact work_section order h taken
  | game movement =>
    simp only [World.step, Option.some.injEq] at taken
    subst taken
    exact ⟨⟨h.sound.ready, h.sound.bytes, h.sound.held, h.sound.shownActive,
      h.sound.shownSnapshot⟩, h.tick, h.worker⟩
  | _ =>
    simp only [World.step, Option.some.injEq] at taken
    subst taken
    exact ⟨h.sound, h.tick, h.worker⟩

theorem unload_invariant : Invariant unloading fun w => Order w ∧ Section w where
  start _ start := ⟨order_start start, section_start start⟩
  kept _ _ _ := fun ⟨order, h⟩ taken => ⟨step_order order taken, step_section order h taken⟩

/-- What a Tick saves now the worker does not see any more: its look at the two words is
   over, or it has only the patch's word left to read and that is clear. -/
def Unwatched (w : World) : Prop :=
  checked w.worker = true ∨ betweenReads w.worker = true ∧ w.fly.publishedActive = 0

instance (w : World) : Decidable (Unwatched w) := inferInstanceAs (Decidable (_ ∨ _))

/-- A Tick that is about to switch fly on can save the player's values. -/
def Saves (w : World) : Prop :=
  w.tick.stage = .save ∧ (saveMovementSnapshot true w.tick.player w.fly).1 = true

instance (w : World) : Decidable (Saves w) := inferInstanceAs (Decidable (_ ∧ _))

/-- No Tick saves the player's values behind the worker's back. -/
def Heedful (w : World) : Act → Prop
  | .tick => Saves w → ¬ Unwatched w
  | _ => True

instance (w : World) : ∀ a, Decidable (Heedful w a)
  | .tick => inferInstanceAs (Decidable (Saves w → ¬ Unwatched w))
  | .enter .. | .work | .setEnabled _ | .setWalkingSpeed _ | .setJumpSpeed _
  | .setJumpHoldTime _ | .game _ => isTrue trivial

/-- What the worker has seen clear is clear. -/
structure Settled (w : World) : Prop where
  polled : betweenReads w.worker = true → w.fly.snapshotValid = true → w.fly.publishedActive ≠ 0
  done : checked w.worker = true → w.fly.active = false ∧ w.fly.snapshotValid = false

theorem settled_calm {w v : World} (h : Settled w) (worker : v.worker = w.worker)
    (active : v.fly.active = true → w.fly.active = true)
    (snapshot : v.fly.snapshotValid = true →
      w.fly.snapshotValid = true ∧ v.fly.publishedActive = w.fly.publishedActive) :
    Settled v where
  polled between valid := by
    obtain ⟨before, same⟩ := snapshot valid
    rw [same]
    exact h.polled (worker ▸ between) before
  done closed := by
    obtain ⟨inactive, invalid⟩ := h.done (worker ▸ closed)
    rw [← Bool.not_eq_true] at inactive invalid ⊢
    exact ⟨fun on => inactive (active on), by
      rw [← Bool.not_eq_true]
      exact fun valid => invalid (snapshot valid).1⟩

theorem settled_off {w : World} (inactive : w.fly.active = false)
    (invalid : w.fly.snapshotValid = false) : Settled w where
  polled _ valid := by simp [invalid] at valid
  done _ := ⟨inactive, invalid⟩

theorem save_settled {w : World} (h : Settled w) (sound : Sound w.fly)
    (stage : w.tick.stage = .save) (heedful : Heedful w .tick) : Settled (w.save w.tick) := by
  obtain ⟨-, active, published⟩ := save_effect sound w.tick.player
  have saved := save_saved true w.tick.player w.fly
  have known := heedful
  unfold World.save
  simp only [Heedful, Saves, stage, true_and] at known
  generalize saveMovementSnapshot true w.tick.player w.fly = result at *
  obtain ⟨ok, fly⟩ := result
  cases ok with
  | true =>
    have watched := known rfl
    simp only [Unwatched, not_or, not_and] at watched
    refine ⟨fun between _ => ?_, fun closed => absurd closed watched.1⟩
    show fly.publishedActive ≠ 0
    rw [published]
    exact watched.2 between
  | false =>
    refine settled_calm h rfl (fun on => active ▸ on) fun valid => ?_
    have valid : fly.snapshotValid = true := valid
    dsimp only at saved
    generalize fly.toMovement = m at saved valid
    cases saved with
    | unread invalid => simp [invalid] at valid
    | dropped _ other => cases valid

theorem tick_settled {w v : World} (h : Settled w) (safe : Section w)
    (heedful : Heedful w .tick) (taken : w.tickStep w.tick = some v) : Settled v := by
  have here := safe.tick
  unfold TickAt at here
  cases stage : w.tick.stage <;>
    simp only [World.tickStep, stage, Option.some.injEq, reduceCtorEq] at taken here
  case atLock =>
    unfold World.enterLock at taken
    split at taken
    · rw [← Option.some.inj taken]
      exact ⟨h.polled, h.done⟩
    · cases taken
  case readEnabled =>
    subst taken
    split
    · exact ⟨h.polled, h.done⟩
    · exact ⟨h.polled, h.done⟩
  case readJumpHoldTime =>
    subst taken
    unfold World.readJumpHoldTime
    dsimp only
    split
    · exact ⟨h.polled, h.done⟩
    · exact ⟨h.polled, h.done⟩
  case restore =>
    subst taken
    obtain ⟨-, -, invalid, active⟩ := restore_effect safe.sound
    refine settled_calm h rfl (fun on => active ▸ on) fun valid => ?_
    rw [show _ = false from invalid] at valid
    cases valid
  case clear =>
    subst taken
    obtain ⟨-, -, inactive, same⟩ := clear_effect safe.sound
    split
    · exact settled_off inactive (same.trans here)
    · exact settled_off inactive (same.trans here)
  case drop =>
    subst taken
    unfold World.drop
    split
    · exact settled_calm h rfl id fun valid => by cases valid
    · exact ⟨h.polled, h.done⟩
  case save =>
    subst taken
    exact save_settled h safe.sound stage heedful
  case patch =>
    subst taken
    obtain ⟨-, sound, active, same⟩ := patch_effect safe.sound
    constructor
    case polled => exact fun _ _ => sound.shownActive active
    case done =>
      intro closed
      have invalid := (h.done closed).2
      rw [here.1] at invalid
      cases invalid
  case write =>
    subst taken
    unfold World.write
    rw [write_effect safe.sound here.1 here.2]
    exact ⟨h.polled, h.done⟩
  all_goals
    subst taken
    exact ⟨h.polled, h.done⟩

theorem settled_before {w : World} (before : betweenReads w.worker = false)
    (early : checked w.worker = false) : Settled w where
  polled between := by simp [before] at between
  done closed := by simp [early] at closed

theorem work_settled {w v : World} (h : Settled w) (safe : Section w)
    (taken : w.workerStep = some v) : Settled v := by
  have here := safe.worker
  cases stage : w.worker <;>
    simp only [World.workerStep, stage, Option.some.injEq, reduceCtorEq] at taken
  case readSnapshot attempt =>
    subst taken
    split
    · rename_i clear
      constructor
      case polled => exact fun _ valid => absurd clear (safe.sound.shownSnapshot valid)
      case done => exact fun closed => by cases closed
    · obtain ⟨-, before, early⟩ := nextAttempt_polls attempt
      exact settled_before before early
  case readPatch attempt =>
    subst taken
    split
    · rename_i clear
      apply settled_off
      · exact Bool.eq_false_iff.mpr fun active => safe.sound.shownActive active clear
      · exact Bool.eq_false_iff.mpr fun valid => h.polled (by rw [stage]; rfl) valid clear
    · obtain ⟨-, before, early⟩ := nextAttempt_polls attempt
      exact settled_before before early
  case enterLock =>
    split at taken
    · rw [← Option.some.inj taken]
      exact settled_before rfl rfl
    · cases taken
  case clear movementOk =>
    subst taken
    rw [stage] at here
    obtain ⟨-, -, inactive, same⟩ := clear_effect safe.sound
    split
    · exact settled_off inactive (same.trans here)
    · exact settled_off inactive (same.trans here)
  case running =>
    subst taken
    exact settled_before rfl rfl
  case clearEnabled =>
    subst taken
    exact settled_before rfl rfl
  case restore =>
    subst taken
    exact settled_before rfl rfl
  all_goals
    subst taken
    have done := h.done (by rw [stage]; rfl)
    exact settled_off done.1 done.2

theorem step_settled {w v : World} {a : Act} (h : Settled w) (safe : Section w)
    (heedful : Heedful w a) (taken : w.step a = some v) : Settled v := by
  cases a with
  | enter player isLocal =>
    simp only [World.step, Option.ite_none_right_eq_some, Option.some.injEq] at taken
    obtain ⟨-, rfl⟩ := taken
    exact ⟨h.polled, h.done⟩
  | tick => exact tick_settled h safe heedful taken
  | work => exact work_settled h safe taken
  | _ =>
    simp only [World.step, Option.some.injEq] at taken
    subst taken
    exact ⟨h.polled, h.done⟩

/-- Nothing the fly code did is left behind. -/
structure Clean (w : World) : Prop where
  bytes : w.fly.bytes = kExpectedCanJump
  patch : w.fly.active = false
  snapshot : w.fly.snapshotValid = false

theorem settled_clean {w : World} (h : Settled w) (sound : Sound w.fly)
    (exits : w.worker = .exitWorker) : Clean w := by
  obtain ⟨inactive, invalid⟩ := h.done (by rw [exits]; rfl)
  constructor
  case bytes => rw [sound.bytes, inactive, if_neg (by simp)]
  case patch => exact inactive
  case snapshot => exact invalid

def ticks (count : Nat) : List Act := List.replicate count .tick

def works (count : Nat) : List Act := List.replicate count .work

theorem patch_leaves {w : World} (safe : Section w) (calls : w.activeCalls = 1)
    (stage : w.tick.stage = .patch) :
    ∃ v, unloading.exec w (ticks 3) = some v ∧ v.worker = w.worker ∧ v.activeCalls = 0 ∧
      v.fly.active = true := by
  obtain ⟨done, sound, active, same⟩ := patch_effect safe.sound
  have here := safe.tick
  simp only [TickAt, stage] at here
  have patched : w.tickStep w.tick = some { w.setTick { w.tick with stage := .write } with
      fly := (w.fly.setPatch true allSucceed allSucceed).2 } := by
    simp only [World.tickStep, stage, done, if_true]
  have own : Taken (w.fly.setPatch true allSucceed allSucceed).2 w.tick.player := by
    unfold Taken
    rw [same]
    exact here
  have written := write_effect sound own.1 own.2 w.tick.requested
  generalize (w.fly.setPatch true allSucceed allSucceed).2 = fly at *
  have wrote : World.tickStep { w.setTick { w.tick with stage := .write } with fly }
      { w.tick with stage := .write } =
      some (World.leave { w.setTick { w.tick with stage := .write } with fly }
        { w.tick with stage := .write } { (fly.put w.tick.player w.tick.requested).setError .none with
          updateCount := long (fly.updateCount + 1) }) := by
    simp only [World.tickStep, World.write, written, if_true]
    rfl
  refine ⟨_, (exec_cons_iff unloading).mpr ⟨_, patched, (exec_cons_iff unloading).mpr
    ⟨_, wrote, (exec_cons_iff unloading).mpr ⟨_, rfl, rfl⟩⟩⟩, rfl, ?_, active⟩
  show w.activeCalls - 1 = 0
  rw [calls]
  rfl

/-- The worker alone reaches ExitWorker(0). -/
def Exits (w : World) : Prop :=
  ∃ count v, unloading.exec w (works count) = some v ∧ v.worker = .exitWorker ∧ v.fly = w.fly

theorem exits_step {w u : World} (taken : w.workerStep = some u) (same : u.fly = w.fly)
    (rest : Exits u) : Exits w := by
  obtain ⟨count, v, run, exits, fly⟩ := rest
  exact ⟨count + 1, v, (exec_cons_iff unloading).mpr ⟨u, taken, run⟩, exits, fly.trans same⟩

theorem worker_exits {w : World} (closed : checked w.worker = true)
    (calls : w.activeCalls = 0) : Exits w := by
  have initialized : ∀ u : World, u.worker = .clearInitialized → Exits u := by
    intro u stage
    refine exits_step (u := { u.setWorker .exitWorker with lockInitialized := false }) ?_ rfl
      ⟨0, _, rfl, rfl, rfl⟩
    simp only [World.workerStep, stage]
  have locked : ∀ u : World, u.worker = .deleteLock → Exits u := by
    intro u stage
    refine exits_step (u := u.setWorker .clearInitialized) ?_ rfl (initialized _ rfl)
    simp only [World.workerStep, stage]
  have removes : ∀ u : World, u.worker = .removeHooks → Exits u := by
    intro u stage
    refine exits_step (u := u.setWorker .deleteLock) ?_ rfl (locked _ rfl)
    simp only [World.workerStep, stage]
  have drains : ∀ u : World, u.worker = .drain → u.activeCalls = 0 → Exits u := by
    intro u stage none
    refine exits_step (u := u.setWorker .removeHooks) ?_ rfl (removes _ rfl)
    simp only [World.workerStep, stage, none, if_true]
  cases stage : w.worker <;> rw [stage] at closed
  case disableHooks =>
    refine exits_step (u := { w.setWorker .drain with hooked := false }) ?_ rfl
      (drains _ rfl calls)
    simp only [World.workerStep, stage]
  case drain => exact drains w stage calls
  case removeHooks => exact removes w stage
  case deleteLock => exact locked w stage
  case clearInitialized => exact initialized w stage
  case exitWorker => exact ⟨0, w, rfl, stage, rfl⟩
  all_goals cases closed

/-- The run can go on to an exit that is not clean. -/
def Ruined (w : World) : Prop :=
  ∃ rest v, unloading.exec w rest = some v ∧ v.worker = .exitWorker ∧ ¬ Clean v

theorem ruined_step {w u : World} {a : Act} (taken : w.step a = some u) (rest : Ruined u) :
    Ruined w := by
  obtain ⟨more, v, run, ends⟩ := rest
  exact ⟨a :: more, v, (exec_cons_iff unloading).mpr ⟨u, taken, run⟩, ends⟩

theorem patch_ruined {w : World} (order : Order w) (safe : Section w)
    (stage : w.tick.stage = .patch) (closed : checked w.worker = true) : Ruined w := by
  have calls := order.calls
  rw [stage] at calls
  obtain ⟨u, ran, worker, none, active⟩ := patch_leaves safe calls stage
  obtain ⟨count, v, run, exits, fly⟩ := worker_exits (worker ▸ closed) none
  refine ⟨ticks 3 ++ works count, v, exec_append unloading ran run, exits, fun clean => ?_⟩
  have inactive := clean.patch
  rw [fly, active] at inactive
  cases inactive

theorem save_ruined {w : World} (order : Order w) (safe : Section w) (saves : Saves w)
    (unwatched : Unwatched w) : ∃ v, w.step .tick = some v ∧ Ruined v := by
  obtain ⟨stage, ok⟩ := saves
  obtain ⟨-, -, published⟩ := save_effect safe.sound w.tick.player
  have taken : w.step .tick = some (w.save w.tick) := by
    simp only [World.step, World.tickStep, stage]
  have order' := step_order order taken
  have safe' := step_section order safe taken
  refine ⟨_, taken, ?_⟩
  simp only [World.save, ok, if_true] at order' safe' ⊢
  rcases unwatched with closed | ⟨between, clear⟩
  · exact patch_ruined order' safe' rfl closed
  · cases polls : w.worker <;> rw [polls] at between
    case readPatch attempt =>
      have reads : World.step { w.setTick { w.tick with stage := .patch } with
          fly := (saveMovementSnapshot true w.tick.player w.fly).2 } .work =
          some { w.setTick { w.tick with stage := .patch } with
            fly := (saveMovementSnapshot true w.tick.player w.fly).2, worker := .disableHooks } := by
        simp only [World.step, World.workerStep, World.setTick, World.setWorker, polls, published,
          clear, if_true]
      exact ruined_step reads
        (patch_ruined (step_order order' reads) (step_section order' safe' reads) rfl rfl)
    all_goals cases between

theorem heedless_ruined {w : World} {a : Act} (reach : unloading.Reachable w)
    (heedless : ¬ Heedful w a) : ∃ v, w.step a = some v ∧ Ruined v := by
  obtain ⟨order, safe⟩ := reachable_invariant unloading unload_invariant reach
  cases a with
  | tick =>
    simp only [Heedful, Classical.not_imp, not_not] at heedless
    exact save_ruined order safe heedless.1 heedless.2
  | _ => exact absurd trivial heedless

theorem run_settled {start w : World} {actions : List Act} (begun : Starting start)
    (heedful : unloading.Along Heedful start actions)
    (run : unloading.exec start actions = some w) : Settled w := by
  refine along_preserves unloading ?_ (reachable_start unloading begun)
    (settled_before (by rw [begun.worker]; rfl) (by rw [begun.worker]; rfl)) heedful run
  intro s a t reach heeds h taken
  exact step_settled h (reachable_invariant unloading unload_invariant reach).2 heeds taken

/-- A run of heedful steps is clean when it reaches ExitWorker(0); after a step that is not
   heedful it can reach it with things left behind. -/
theorem unload_clean {start w : World} {actions : List Act} (begun : Starting start)
    (run : unloading.exec start actions = some w) :
    (unloading.Along Heedful start actions → w.worker = .exitWorker → Clean w) ∧
      ∀ a, ¬ Heedful w a → ∃ v, w.step a = some v ∧ Ruined v := by
  have reach := reachable_exec unloading (reachable_start unloading begun) run
  constructor
  · intro heedful exits
    have safe := (reachable_invariant unloading unload_invariant reach).2
    exact settled_clean (run_settled begun heedful run) safe.sound exits
  · intro a heedless
    exact heedless_ruined reach heedless

theorem save_dropped (read : Bool) (player : Player) (fly : Fly) :
    saveMovementSnapshot read player
        (if fly.snapshotValid = true ∧ fly.snapshotPlayer ≠ player then fly.dropSnapshot else fly) =
      saveMovementSnapshot read player fly := by
  split
  · rename_i foreign
    have kept : ¬ (fly.snapshotValid = true ∧ fly.snapshotPlayer = player) := fun own =>
      foreign.2 own.2
    have dropped : ¬ (fly.dropSnapshot.snapshotValid = true ∧
        fly.dropSnapshot.snapshotPlayer = player) := fun own => by cases own.1
    unfold saveMovementSnapshot
    rw [if_neg kept, if_neg dropped, if_pos foreign.1]
    rfl
  · rfl

def Alone (w v : World) : Prop := ∃ count, unloading.exec w (ticks count) = some v

theorem alone_refl (w : World) : Alone w w := ⟨0, rfl⟩

theorem alone_step {w u v : World} (taken : w.tickStep w.tick = some u) (rest : Alone u v) :
    Alone w v := by
  obtain ⟨count, run⟩ := rest
  exact ⟨count + 1, (exec_cons_iff unloading).mpr ⟨u, taken, run⟩⟩

def Ends (w : World) (fly : Fly) : Prop :=
  ∃ v, Alone w v ∧ v.tick.stage = .leaving ∧ v.lock = none ∧ v.fly = fly

theorem ends_step {w u : World} {fly : Fly} (taken : w.tickStep w.tick = some u)
    (rest : Ends u fly) : Ends w fly := by
  obtain ⟨v, alone, ended⟩ := rest
  exact ⟨v, alone_step taken alone, ended⟩

theorem ends_leave (w : World) (tick : TickRun) (fly : Fly) : Ends (w.leave tick fly) fly :=
  ⟨_, alone_refl _, rfl, rfl, rfl⟩

theorem clear_ends {w : World} (stage : w.tick.stage = .clear) :
    Ends w (if w.tick.movementOk = true ∧ (w.fly.setPatch false allSucceed allSucceed).1 = true
      then (w.fly.setPatch false allSucceed allSucceed).2.setError w.tick.error
      else (w.fly.setPatch false allSucceed allSucceed).2) := by
  refine ends_step ?_ (ends_leave w w.tick _)
  simp only [World.tickStep, stage]

theorem putBack_ends {w : World} (stage : w.tick.stage = .restore) :
    Ends w (restoreFly succeeding w.tick.error w.fly).2 := by
  have restored : w.tickStep w.tick = some { w.setTick { w.tick with
      stage := .clear, movementOk := (restoreMovementSnapshot .written w.fly).1 } with
      fly := (restoreMovementSnapshot .written w.fly).2 } := by
    simp only [World.tickStep, stage]
  refine ends_step restored ?_
  unfold restoreFly
  dsimp only
  rw [apply_ite Prod.snd]
  exact clear_ends rfl

theorem rollBack_ends {w : World} (stage : w.tick.stage = .rollBack) :
    Ends w (restoreMovementSnapshot .written w.fly).2 := by
  refine ends_step ?_ (ends_leave w w.tick _)
  simp only [World.tickStep, stage]

/-- What ProcessFlyOnGameThread does with the patch in place. -/
def override (player : Player) (requested : MovementValues) (fly : Fly) : Fly :=
  let (ok, fly) := writeMovementValues .written player requested fly
  if ok = false then
    (restoreMovementSnapshot .written
      ((fly.setError .movementWrite).setPatch false allSucceed allSucceed).2).2
  else { fly.setError .none with updateCount := long (fly.updateCount + 1) }

theorem write_ends {w : World} (stage : w.tick.stage = .write) :
    Ends w (override w.tick.player w.tick.requested w.fly) := by
  have written : w.tickStep w.tick = some (w.write w.tick) := by
    simp only [World.tickStep, stage]
  refine ends_step written ?_
  unfold World.write override
  generalize writeMovementValues .written w.tick.player w.tick.requested w.fly = result
  obtain ⟨ok, fly⟩ := result
  cases ok with
  | true => exact ends_leave _ _ _
  | false =>
    have unpatched : Ends { w.setTick { w.tick with stage := .rollBack } with
        fly := ((fly.setError .movementWrite).setPatch false allSucceed allSucceed).2 }
        (restoreMovementSnapshot .written
          ((fly.setError .movementWrite).setPatch false allSucceed allSucceed).2).2 :=
      rollBack_ends rfl
    exact ends_step rfl unpatched

theorem patch_ends {w : World} (stage : w.tick.stage = .patch) :
    Ends w
      (let (patched, fly) := w.fly.setPatch true allSucceed allSucceed
       if patched = false then (restoreMovementSnapshot .written fly).2
       else override w.tick.player w.tick.requested fly) := by
  have patched : w.tickStep w.tick = some { w.setTick { w.tick with
      stage := if (w.fly.setPatch true allSucceed allSucceed).1 = true then .write
        else .rollBack } with fly := (w.fly.setPatch true allSucceed allSucceed).2 } := by
    simp only [World.tickStep, stage]
  refine ends_step patched ?_
  generalize w.fly.setPatch true allSucceed allSucceed = result
  obtain ⟨ok, fly⟩ := result
  cases ok with
  | true => exact write_ends (w := { w.setTick { w.tick with stage := .write } with fly }) rfl
  | false =>
    exact rollBack_ends (w := { w.setTick { w.tick with stage := .rollBack } with fly }) rfl

theorem drop_ends {w : World} (stage : w.tick.stage = .drop) :
    Ends w
      (let (saved, fly) := saveMovementSnapshot true w.tick.player w.fly
       if saved = false then fly
       else
         let (patched, fly) := fly.setPatch true allSucceed allSucceed
         if patched = false then (restoreMovementSnapshot .written fly).2
         else override w.tick.player w.tick.requested fly) := by
  have dropped : w.tickStep w.tick = some (w.drop w.tick) := by
    simp only [World.tickStep, stage]
  have saves : (w.drop w.tick).tickStep (w.drop w.tick).tick =
      some ((w.drop w.tick).save (w.drop w.tick).tick) := rfl
  refine ends_step dropped (ends_step saves ?_)
  unfold World.save
  have same : saveMovementSnapshot true (w.drop w.tick).tick.player (w.drop w.tick).fly =
      saveMovementSnapshot true w.tick.player w.fly := save_dropped true w.tick.player w.fly
  rw [same]
  generalize saveMovementSnapshot true w.tick.player w.fly = result
  obtain ⟨ok, fly⟩ := result
  cases ok with
  | true =>
    exact patch_ends (w :=
      { (w.drop w.tick).setTick { (w.drop w.tick).tick with stage := .patch } with
        fly }) rfl
  | false => exact ends_leave _ _ _

theorem config_ends {w : World} {fly : Fly} (stage : w.tick.stage = .readWalkingSpeed)
    (rest : ∀ tick : TickRun, tick.player = w.tick.player → tick.requested = w.requested →
      Ends (if ValidFlyConfig w.requested then w.setTick { tick with stage := .drop }
        else w.putBack tick .invalidConfig) fly) : Ends w fly := by
  have walking : w.tickStep w.tick = some (w.setTick { w.tick with
      requested := { w.tick.requested with walkingSpeed := w.requested.walkingSpeed }
      stage := .readJumpSpeed }) := by
    simp only [World.tickStep, stage]
  refine ends_step walking (ends_step rfl (ends_step rfl ?_))
  exact rest { w.tick with requested := w.requested, stage := .readJumpHoldTime } rfl rfl

theorem section_ends {w : World} (stage : w.tick.stage = .readEnabled) :
    Ends w (processFly ⟨w.tick.player, w.flyEnabled ≠ 0, w.requested, succeeding⟩ w.fly) := by
  unfold processFly
  by_cases off : w.flyEnabled = 0
  · have disabled : w.tickStep w.tick = some (w.putBack w.tick .none) := by
      simp only [World.tickStep, stage, off, if_true]
    simp only [off, ne_eq, not_true, decide_false, if_true]
    exact ends_step disabled (putBack_ends (w := w.putBack w.tick .none) rfl)
  · have enabled : w.tickStep w.tick =
        some (w.setTick { w.tick with stage := .readWalkingSpeed }) := by
      simp only [World.tickStep, stage, off, if_false]
    simp only [off, ne_eq, not_false_eq_true, decide_true, reduceCtorEq, if_false]
    refine ends_step enabled (config_ends rfl ?_)
    intro tick player requested
    show Ends (if ValidFlyConfig w.requested then _ else _) _
    by_cases valid : ValidFlyConfig w.requested
    · rw [if_pos valid, if_neg (not_not.mpr valid)]
      obtain ⟨_, _, isLocal, _, error, movementOk⟩ := tick
      dsimp only at player requested
      subst player requested
      exact drop_ends (w := w.setTick ⟨.drop, w.tick.player, isLocal, w.requested, error,
        movementOk⟩) rfl
    · rw [if_neg valid, if_pos valid]
      exact putBack_ends (w := World.putBack (w.setTick _) tick .invalidConfig) rfl

/-- With no other step in between, a Tick's section is ProcessFlyOnGameThread with all API
   calls succeeding. -/
theorem tick_alone {w : World} (free : w.lock = none) (initialized : w.lockInitialized = true)
    (stage : w.tick.stage = .entered) (isLocal : w.tick.isLocal = true) :
    Ends w (processFly ⟨w.tick.player, w.flyEnabled ≠ 0, w.requested, succeeding⟩ w.fly) := by
  have entered : w.tickStep w.tick = some (w.setTick { w.tick with stage := .atLock }) := by
    simp [World.tickStep, stage, World.enterFly, isLocal, initialized]
  have locked : World.tickStep (w.setTick { w.tick with stage := .atLock })
      { w.tick with stage := .atLock } =
      some { w.setTick { w.tick with stage := .readEnabled } with lock := some .tick } := by
    simp only [World.tickStep, World.enterLock, World.setTick, free, if_true]
  exact ends_step entered (ends_step locked (section_ends
    (w := { w.setTick { w.tick with stage := .readEnabled } with lock := some .tick }) rfl))

def loaded : World where
  fly := grounded
  flyEnabled := 0
  requested := flyValues
  lock := none
  lockInitialized := true
  hooked := true
  activeCalls := 0
  tick := ⟨.outside, 0, false, noValues, .none, true⟩
  worker := .running

theorem loaded_starting : Starting loaded :=
  ⟨unpatched_starting, grounded_starting, rfl, rfl, rfl, rfl, rfl⟩

def orderly : List Act :=
  [.setEnabled 1, .enter 4096 true] ++ ticks 12 ++ [.setEnabled 0, .enter 4096 true] ++ ticks 7 ++
    works 9

def orderlyWorld : World := (unloading.exec loaded orderly).get rfl

theorem unload_clean_orderly :
    unloading.Along Heedful loaded orderly ∧ orderlyWorld.worker = .exitWorker ∧
      Clean orderlyWorld := by
  have heedful : unloading.Along Heedful loaded orderly := by decide +kernel
  have run : unloading.exec loaded orderly = some orderlyWorld := (Option.some_get _).symm
  exact ⟨heedful, rfl, (unload_clean loaded_starting run).1 heedful rfl⟩

/-- A Tick reads that fly is on, the worker switches it off, finds both words clear and
   disables the hooks, and the Tick goes on. -/
def hasty : List Act :=
  [.setEnabled 1, .enter 4096 true] ++ ticks 4 ++ works 5 ++ ticks 8 ++ works 4

def hastyWorld : World := (unloading.exec loaded hasty).get rfl

theorem unload_hasty :
    unloading.Reachable hastyWorld ∧ hastyWorld.worker = .exitWorker ∧
      hastyWorld.fly.bytes = kEnabledCanJump ∧ hastyWorld.fly.snapshotValid = true ∧
      ¬ Clean hastyWorld := by
  refine ⟨⟨loaded, hasty, loaded_starting, (Option.some_get _).symm⟩, rfl, rfl, rfl, ?_⟩
  intro clean
  have patched : hastyWorld.fly.active = true := rfl
  rw [clean.patch] at patched
  cases patched

end FlyUnload
