import GameSecurity.Runs

/- SetCanJumpPatchLocked of the research DLL, the five bytes it patches and the flag it
   keeps about them. Each ReadProcessMemory and VirtualProtect may fail on its own. -/
namespace FlyPatch
open Runs

/-- kCanJumpPatchSize bytes of code. -/
abbrev CanJumpBytes := Vector UInt8 5

def kExpectedCanJump : CanJumpBytes := #v[0x8B, 0x49, 0x9C, 0x85, 0xC9]

def kEnabledCanJump : CanJumpBytes := #v[0xB0, 0x01, 0xC3, 0x90, 0x90]

inductive FlyError where
  | none
  | canJumpBytes
  | canJumpProtect
  | movementRead
  | movementWrite
  | invalidConfig
  | restore
  deriving DecidableEq, Repr

/-- The code at the target, what is kept about it, and the two words published about it.
   A null target is 0. -/
structure Patch where
  target : Nat
  bytes : CanJumpBytes
  original : CanJumpBytes
  originalSaved : Bool
  active : Bool
  publishedActive : Int
  flyError : FlyError
  deriving DecidableEq, Repr

def Patch.setFlyError (s : Patch) (flyError : FlyError) : Patch := { s with flyError }

/-- Which API calls of one WriteExecutableBytes succeed; `reprotect` are the attempts to
   put the page protection back. -/
structure WriteCalls where
  protect : Bool
  reprotect : Nat → Bool

/-- Which API calls of one SetCanJumpPatchLocked succeed, its rollback apart: the first
   read, the write and the read that checks it. -/
structure PatchCalls where
  read : Bool
  write : WriteCalls
  verify : Bool

def matchBytes (read : Bool) (actual expected : CanJumpBytes) : Bool :=
  read && actual == expected

def writeExecutableBytes (calls : WriteCalls) (s : Patch) (bytes : CanJumpBytes) :
    Bool × Patch :=
  if s.target = 0 then (false, s)
  else if calls.protect = false then (false, s)
  else ((List.range 5).any calls.reprotect, { s with bytes })

def Patch.setActive (s : Patch) (active : Bool) : Patch :=
  { s with active, publishedActive := if active then 1 else 0 }

def clearCanJumpPatch (calls : PatchCalls) (s : Patch) : Bool × Patch :=
  if s.target = 0 ∨ s.originalSaved = false then (false, s.setFlyError .canJumpBytes)
  else if s.active = false then (true, { s with publishedActive := 0 })
  else if matchBytes calls.read s.bytes kEnabledCanJump = false then
    (false, s.setFlyError .canJumpBytes)
  else
    let (protectOk, written) := writeExecutableBytes calls.write s s.original
    let bytesOk := matchBytes calls.verify written.bytes s.original
    let s := written.setActive !bytesOk
    if protectOk = false ∨ bytesOk = false then (false, s.setFlyError .canJumpProtect)
    else (true, s)

/-- SetCanJumpPatchLocked; `rollback` are the API calls of the nested one. -/
def setCanJumpPatch (enabled : Bool) (calls rollback : PatchCalls) (s : Patch) : Bool × Patch :=
  if enabled = false then clearCanJumpPatch calls s
  else if s.target = 0 ∨ s.originalSaved = false then (false, s.setFlyError .canJumpBytes)
  else if s.active then (true, s)
  else if matchBytes calls.read s.bytes s.original = false then
    (false, s.setFlyError .canJumpBytes)
  else
    let (protectOk, written) := writeExecutableBytes calls.write s kEnabledCanJump
    let bytesOk := matchBytes calls.verify written.bytes kEnabledCanJump
    let s := written.setActive bytesOk
    if protectOk = false ∨ bytesOk = false then
      let s := if bytesOk then (clearCanJumpPatch rollback (s.setActive true)).2 else s
      (false, s.setFlyError .canJumpProtect)
    else (true, s)

/-- The target is found and its original bytes are saved, as the verification of the
   module leaves it. -/
structure Ready (s : Patch) : Prop where
  target : s.target ≠ 0
  saved : s.originalSaved = true
  original : s.original = kExpectedCanJump

/-- A clear flag means that the original bytes are in place. -/
def Honest (s : Patch) : Prop := s.active = false → s.bytes = s.original

instance (s : Patch) : Decidable (Honest s) := inferInstanceAs (Decidable (_ → _))

theorem matchBytes_iff {read : Bool} {actual expected : CanJumpBytes} :
    matchBytes read actual expected = true ↔ read = true ∧ actual = expected := by
  simp [matchBytes]

theorem ready_not_unset {s : Patch} (ready : Ready s) :
    ¬ (s.target = 0 ∨ s.originalSaved = false) := by
  have saved := ready.saved
  rintro (null | unsaved)
  · exact ready.target null
  · rw [saved] at unsaved
    cases unsaved

/-- The write either does nothing or, when the page can be made writable, puts all the
   bytes in place. -/
theorem writeExecutableBytes_cases (calls : WriteCalls) (bytes : CanJumpBytes) {s : Patch}
    (ready : Ready s) :
    calls.protect = false ∧ writeExecutableBytes calls s bytes = (false, s) ∨
      calls.protect = true ∧ writeExecutableBytes calls s bytes =
        ((List.range 5).any calls.reprotect, { s with bytes }) := by
  unfold writeExecutableBytes
  rw [if_neg ready.target]
  cases calls.protect with
  | false => exact Or.inl ⟨rfl, rfl⟩
  | true => exact Or.inr ⟨rfl, rfl⟩

structure Kept (s t : Patch) : Prop where
  target : t.target = s.target
  original : t.original = s.original
  saved : t.originalSaved = s.originalSaved

theorem kept_refl (s : Patch) : Kept s s := ⟨rfl, rfl, rfl⟩

theorem ready_kept {s t : Patch} (ready : Ready s) (kept : Kept s t) : Ready t where
  target := kept.target ▸ ready.target
  saved := kept.saved.trans ready.saved
  original := kept.original.trans ready.original

/-- What switching the patch off can do: leave bytes and flag alone, or set the flag by
   a comparison with the original bytes. -/
theorem clear_cases (calls : PatchCalls) {s : Patch} (ready : Ready s) :
    Kept s (clearCanJumpPatch calls s).2 ∧
      ((clearCanJumpPatch calls s).2.bytes = s.bytes ∧
          (clearCanJumpPatch calls s).2.active = s.active ∨
        (clearCanJumpPatch calls s).2.active =
          !matchBytes calls.verify (clearCanJumpPatch calls s).2.bytes s.original) := by
  unfold clearCanJumpPatch
  rw [if_neg (ready_not_unset ready)]
  split
  · exact ⟨⟨rfl, rfl, rfl⟩, Or.inl ⟨rfl, rfl⟩⟩
  · split
    · exact ⟨⟨rfl, rfl, rfl⟩, Or.inl ⟨rfl, rfl⟩⟩
    · rcases writeExecutableBytes_cases calls.write s.original ready
        with ⟨-, written⟩ | ⟨-, written⟩
      all_goals
        rw [written]
        dsimp only
        split
        · exact ⟨⟨rfl, rfl, rfl⟩, Or.inr rfl⟩
        · exact ⟨⟨rfl, rfl, rfl⟩, Or.inr rfl⟩

/-- Switching the patch off never clears the flag falsely. -/
theorem clear_honest {calls : PatchCalls} {s : Patch} (ready : Ready s) (h : Honest s) :
    Honest (clearCanJumpPatch calls s).2 := by
  obtain ⟨kept, same | compared⟩ := clear_cases calls ready
  · intro clear
    rw [same.1, kept.original]
    exact h (same.2.symm.trans clear)
  · intro clear
    rw [compared, Bool.not_eq_false', matchBytes_iff] at clear
    rw [kept.original]
    exact clear.2

structure SetCall where
  enabled : Bool
  calls : PatchCalls
  rollback : PatchCalls

def Patch.set (s : Patch) (call : SetCall) : Patch :=
  (setCanJumpPatch call.enabled call.calls call.rollback s).2

/-- A call that switches the patch on and writes it can also read it back. -/
def Verified (s : Patch) (call : SetCall) : Prop :=
  call.enabled = true → s.active = false → call.calls.read = true →
    call.calls.write.protect = true → call.calls.verify = true

instance (s : Patch) (call : SetCall) : Decidable (Verified s call) :=
  inferInstanceAs (Decidable (_ → _))

theorem expected_ne_enabled : kExpectedCanJump ≠ kEnabledCanJump := by decide

theorem rollback_kept {s on : Patch} {calls : PatchCalls} (ready : Ready s)
    (kept : Kept s on) :
    Kept s ((clearCanJumpPatch calls on).2.setFlyError .canJumpProtect) := by
  have rolled := (clear_cases calls (ready_kept ready kept)).1
  constructor
  case target => exact rolled.target.trans kept.target
  case original => exact rolled.original.trans kept.original
  case saved => exact rolled.saved.trans kept.saved

theorem set_kept {s : Patch} {call : SetCall} (ready : Ready s) : Kept s (s.set call) := by
  unfold Patch.set setCanJumpPatch
  split
  · exact (clear_cases call.calls ready).1
  · rw [if_neg (ready_not_unset ready)]
    split
    · exact kept_refl s
    · split
      · exact ⟨rfl, rfl, rfl⟩
      · have cases := writeExecutableBytes_cases call.calls.write kEnabledCanJump ready
        rcases cases with ⟨-, written⟩ | ⟨-, written⟩
        all_goals
          rw [written]
          dsimp only
          split
          · split
            · exact rollback_kept ready ⟨rfl, rfl, rfl⟩
            · exact ⟨rfl, rfl, rfl⟩
          · exact ⟨rfl, rfl, rfl⟩

theorem enable_clear {s : Patch} {calls rollback : PatchCalls} (ready : Ready s)
    (clear : s.active = false) (inPlace : s.bytes = s.original) :
    Honest (setCanJumpPatch true calls rollback s).2 ↔
      (calls.read = true → calls.write.protect = true → calls.verify = true) := by
  have differs : s.original ≠ kEnabledCanJump := ready.original ▸ expected_ne_enabled
  unfold setCanJumpPatch
  rw [if_neg (by simp), if_neg (ready_not_unset ready), clear, if_neg (by simp)]
  cases read : calls.read with
  | false =>
    have failed : matchBytes false s.bytes s.original = false := rfl
    rw [if_pos failed]
    simp [Honest, Patch.setFlyError, inPlace]
  | true =>
    have passed : ¬ matchBytes true s.bytes s.original = false := by
      simp [matchBytes, inPlace]
    rw [if_neg passed]
    rcases writeExecutableBytes_cases calls.write kEnabledCanJump ready with
      ⟨protect, written⟩ | ⟨protect, written⟩
    · have unchanged : matchBytes calls.verify s.bytes kEnabledCanJump = false := by
        rw [inPlace]
        simp [matchBytes, differs]
      rw [written]
      dsimp only
      rw [unchanged]
      simp [protect, Honest, Patch.setFlyError, Patch.setActive, inPlace]
    · rw [written]
      cases verify : calls.verify with
      | false =>
        have unseen : matchBytes false kEnabledCanJump kEnabledCanJump = false := rfl
        simp [unseen, protect, Honest, Patch.setFlyError, Patch.setActive, Ne.symm differs]
      | true =>
        have seen : matchBytes true kEnabledCanJump kEnabledCanJump = true := rfl
        simp only [seen, protect, implies_true, iff_true]
        split
        · exact clear_honest (s := { s with bytes := kEnabledCanJump }.setActive true)
            ⟨ready.target, ready.saved, ready.original⟩ fun down => by cases down
        · exact fun down => by cases down

theorem set_active {s : Patch} {calls rollback : PatchCalls} (ready : Ready s)
    (active : s.active = true) : setCanJumpPatch true calls rollback s = (true, s) := by
  unfold setCanJumpPatch
  rw [if_neg (by simp), if_neg (ready_not_unset ready), active, if_pos rfl]

theorem set_honest_iff {s : Patch} {call : SetCall} (ready : Ready s) (h : Honest s) :
    Honest (s.set call) ↔ Verified s call := by
  obtain ⟨enabled, calls, rollback⟩ := call
  cases enabled with
  | false =>
    have cleared : Honest (s.set ⟨false, calls, rollback⟩) := clear_honest ready h
    simp [cleared, Verified]
  | true =>
    cases active : s.active with
    | false => simpa [Patch.set, Verified, active] using enable_clear ready active (h active)
    | true =>
      have same : s.set ⟨true, calls, rollback⟩ = s := by
        simp [Patch.set, set_active ready active]
      simp [same, h, Verified, active]

def allSucceed : PatchCalls := ⟨true, ⟨true, fun _ => true⟩, true⟩

theorem clear_idle {s : Patch} {calls : PatchCalls} (ready : Ready s)
    (idle : s.active = false) :
    clearCanJumpPatch calls s = (true, { s with publishedActive := 0 }) := by
  unfold clearCanJumpPatch
  rw [if_neg (ready_not_unset ready), if_pos idle]

theorem clear_succeeds {s : Patch} (ready : Ready s) (active : s.active = true)
    (patched : s.bytes = kEnabledCanJump) :
    clearCanJumpPatch allSucceed s =
      (true, { s with bytes := s.original, active := false, publishedActive := 0 }) := by
  obtain ⟨target, saved, original⟩ := ready
  obtain ⟨_, _, _, _, _, _, _⟩ := s
  dsimp only at active patched original target saved
  subst active patched original saved
  simp only [clearCanJumpPatch, writeExecutableBytes, target, reduceCtorEq, or_self, if_false]
  rfl

theorem set_succeeds {s : Patch} {rollback : PatchCalls} (ready : Ready s)
    (idle : s.active = false) (inPlace : s.bytes = s.original) :
    setCanJumpPatch true allSucceed rollback s =
      (true, { s with bytes := kEnabledCanJump, active := true, publishedActive := 1 }) := by
  obtain ⟨target, saved, original⟩ := ready
  obtain ⟨_, _, _, _, _, _, _⟩ := s
  dsimp only at idle inPlace original target saved
  subst idle inPlace original saved
  simp only [setCanJumpPatch, writeExecutableBytes, target, reduceCtorEq, or_self, if_false]
  rfl

/-- The original bytes are saved and in place, and nothing is patched yet. -/
def Starting (s : Patch) : Prop := Ready s ∧ s.bytes = s.original ∧ s.active = false

def patching : Machine Patch SetCall where
  init := Starting
  step s call := some (s.set call)

def HonestAfter (s : Patch) (call : SetCall) : Prop := Honest (s.set call)

instance (s : Patch) (call : SetCall) : Decidable (HonestAfter s call) :=
  inferInstanceAs (Decidable (Honest _))

theorem honest_along_iff {s : Patch} {calls : List SetCall} (ready : Ready s) (h : Honest s) :
    patching.Along HonestAfter s calls ↔ patching.Along Verified s calls := by
  induction calls generalizing s with
  | nil => exact Iff.rfl
  | cons call rest ih =>
    have here : HonestAfter s call ↔ Verified s call := set_honest_iff ready h
    have next : ∀ t ∈ patching.step s call, t = s.set call := fun t taken =>
      (Option.some.inj taken).symm
    constructor
    · rintro ⟨honest, later⟩
      refine ⟨here.mp honest, fun t taken => ?_⟩
      have along := later t taken
      rw [next t taken] at along ⊢
      exact (ih (ready_kept ready (set_kept ready)) honest).mp along
    · rintro ⟨verified, later⟩
      have honest := here.mpr verified
      refine ⟨honest, fun t taken => ?_⟩
      have along := later t taken
      rw [next t taken] at along ⊢
      exact (ih (ready_kept ready (set_kept ready)) honest).mpr along

/-- The flag is never falsely clear exactly when every patch that is written can be read
   back. -/
theorem flag_honest_iff {start : Patch} {calls : List SetCall} (begun : Starting start) :
    patching.Along HonestAfter start calls ↔ patching.Along Verified start calls := by
  obtain ⟨ready, inPlace, -⟩ := begun
  exact honest_along_iff ready fun _ => inPlace

def unpatched : Patch := ⟨1, kExpectedCanJump, kExpectedCanJump, true, false, 0, .none⟩

/-- The patch is written, its read-back fails, and switching it off finds nothing to do. -/
def unverified : List SetCall :=
  [⟨true, { allSucceed with verify := false }, allSucceed⟩, ⟨false, allSucceed, allSucceed⟩]

theorem unpatched_starting : Starting unpatched := ⟨⟨by decide, rfl, rfl⟩, rfl, rfl⟩

theorem flag_honest_unpatched :
    patching.Along HonestAfter unpatched
      [⟨true, allSucceed, allSucceed⟩, ⟨false, allSucceed, allSucceed⟩] := by
  refine (flag_honest_iff unpatched_starting).mpr ?_
  decide

theorem flag_falsely_clear :
    ¬ patching.Along HonestAfter unpatched unverified ∧
      patching.exec unpatched unverified = some
        { unpatched with bytes := kEnabledCanJump, flyError := .canJumpProtect } := by
  constructor
  · decide
  · rfl

end FlyPatch
