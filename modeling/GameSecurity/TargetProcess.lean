import GameSecurity.PatternScanner
import GameSecurity.PortableExports
import GameSecurity.SchemaBindings

/- IProcessMemory and the module views of analysis.cpp. -/
namespace TargetProcess
open AsciiText ByteMemory PortableExecutable SchemaHash SchemaBindings
open PatternScanner (headersOnly)

structure ModuleInfo where
  name : Text
  base : Address
  size : UInt64
  deriving DecidableEq, Repr

/-- The three virtual members of IProcessMemory, while the target does not change. -/
structure Process where
  memory : Target
  moduleList : Except Text (List ModuleInfo)
  moduleByName : Text → Except Text ModuleInfo

/-- How an analysis ends without a result: by an exception, by looking outside of a module's
   bytes, or because a loop has not ended within its rounds. -/
inductive Stop where
  | thrown (what : Text)
  | fault
  | endless
  deriving DecidableEq, Repr

abbrev Analysis := Except Stop

def Analysis.of {α : Type} : Except Text α → Analysis α
  | .error what => .error (.thrown what)
  | .ok a => .ok a

/-- A catch that takes every exception; what is not an exception goes on. -/
def Analysis.catchWith {α : Type} (x : Analysis α) (handler : α) : Analysis α :=
  match x with
  | .error (.thrown _) => .ok handler
  | other => other

def readBytes (mem : Target) (a : Address) (size : Nat) : Except Text (List UInt8) :=
  if size = 0 then .ok [] else readOrThrow (fun a => block mem size a) a

/-- The bytes of a module as pe.cpp looks at them. -/
def span (bytes : List UInt8) : Span where
  size := bytes.length
  data i := bytes.getD i 0

structure ModuleView where
  module : ModuleInfo
  bytes : List UInt8
  valid : (PeImage.ofBytes (span bytes)).valid = true

def ModuleView.pe (mv : ModuleView) : PeImage := PeImage.ofBytes (span mv.bytes)

def ModuleView.create (module : ModuleInfo) (bytes : List UInt8) : Except Text ModuleView :=
  if valid : (PeImage.ofBytes (span bytes)).valid = true then .ok ⟨module, bytes, valid⟩
  else .error (text "invalid PE image: " ++ module.name)

def loadModule (process : Process) (name : Text) : Except Text ModuleView := do
  let module ← process.moduleByName name
  let bytes ← readBytes process.memory module.base module.size.toNat
  ModuleView.create module bytes

/-- The modules' sizes are 32-bit numbers of the system. -/
structure Process.Small (process : Process) : Prop where
  listed : ∀ modules, process.moduleList = .ok modules → ∀ m ∈ modules, m.size.toNat < 2 ^ 32
  named : ∀ name m, process.moduleByName name = .ok m → m.size.toNat < 2 ^ 32

/-- How a run may end: with a result that has the property, with an exception, or not at all
   where that is allowed; but never by a look outside of a module. -/
def Gives {α : Type} (endless : Prop) (P : α → Prop) : Analysis α → Prop
  | .ok a => P a
  | .error (.thrown _) => True
  | .error .fault => False
  | .error .endless => endless

section Gives

variable {α β : Type} {endless : Prop} {P Q : α → Prop} {R : β → Prop}

theorem Gives.bind {x : Analysis α} {f : α → Analysis β} (first : Gives endless P x)
    (rest : ∀ a, P a → Gives endless R (f a)) : Gives endless R (x >>= f) := by
  match x with
  | .ok a => exact rest a first
  | .error (.thrown _) => trivial
  | .error .fault => exact first
  | .error .endless => exact first

theorem Gives.imp {x : Analysis α} (gives : Gives endless P x) (weaker : ∀ a, P a → Q a) :
    Gives endless Q x := by
  match x with
  | .ok a => exact weaker a gives
  | .error (.thrown _) => trivial
  | .error .fault => exact gives
  | .error .endless => exact gives

theorem Gives.catchWith {x : Analysis α} {handler : α} (gives : Gives endless P x)
    (handled : P handler) : Gives endless P (Analysis.catchWith x handler) := by
  match x with
  | .ok a => exact gives
  | .error (.thrown _) => exact handled
  | .error .fault => exact gives
  | .error .endless => exact gives

end Gives

@[simp] theorem of_ok {α : Type} (a : α) : Analysis.of (.ok a) = .ok a := rfl

theorem readBytes_length {mem : Target} {a : Address} {size : Nat} {bytes : List UInt8}
    (read : readBytes mem a size = .ok bytes) : bytes.length = size := by
  unfold readBytes at read
  split at read
  · rename_i empty
    cases read
    exact empty.symm
  · unfold readOrThrow at read
    split at read
    · cases read
    · rename_i value here
      cases read
      exact (block_iff.mp here).1

theorem loadModule_spec {process : Process} {name : Text} {mv : ModuleView}
    (loaded : loadModule process name = .ok mv) :
    process.moduleByName name = .ok mv.module ∧ mv.bytes.length = mv.module.size.toNat := by
  unfold loadModule at loaded
  simp only [bind_eq_ok_iff] at loaded
  obtain ⟨module, found, bytes, read, created⟩ := loaded
  unfold ModuleView.create at created
  split at created
  · cases created
    exact ⟨found, readBytes_length read⟩
  · cases created

/-- The bytes that are not null in a target, behind its only module. -/
def sampleBytes : List (Address × UInt8) :=
  [(0x47009, 0x80), (0x4700A, 4), (0x48000, 43), (0x101D2, 2), (0x101DC, 2), (0x102C2, 1),
    (0x2000A, 3), (0x30008, 97), (0x3056C, 1), (0x305D2, 4), (0x40011, 0x10),
    (0x40012, 4), (0x41009, 0x20), (0x4100A, 4), (0x41024, 1),
    (0x41031, 0x30), (0x41032, 4), (0x42000, 67), (0x43001, 0x40), (0x43002, 4), (0x43009, 0x50),
    (0x4300A, 4), (0x43010, 16), (0x44000, 102), (0x45009, 0x60), (0x4500A, 4), (0x46000, 105),
    (0x46001, 32), (0x46002, 116)]

def sampleMemory : Target := fun a =>
  if a < 0x10000 ∨ 0x50000 ≤ a then none
  else if a = 0x10081 then some 0x70
  else if a = 0x10082 then some 4
  else if a < 0x10100 then some (headersOnly.data (a - 0x10000).toNat)
  else some (((sampleBytes.find? (·.1 = a)).map Prod.snd).getD 0)

def sampleModule : ModuleInfo := ⟨text "schemasystem.dll", 0x10000, 0x100⟩

def sampleProcess : Process where
  memory := sampleMemory
  moduleList := .ok [sampleModule]
  moduleByName _ := .ok sampleModule

theorem sample_small : sampleProcess.Small := by
  constructor
  · rintro _ ⟨⟩ m member
    rw [List.mem_singleton.mp member]
    decide
  · rintro _ _ ⟨⟩
    decide

end TargetProcess
