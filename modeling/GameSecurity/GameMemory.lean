import GameSecurity.Asking
import GameSecurity.ByteMemory
import GameSecurity.TeleportMailbox

/- memory.hpp: typed reads of another process, which goes on running between any two of them. -/
namespace GameMemory
open Asking ByteMemory TeleportMailbox

/-- uintptr_t; sums wrap around. -/
abbrev Address := UInt64

/-- A ReadProcessMemory of so many bytes, or a memory::TryWriteRaw. -/
inductive Request where
  | read (address : Address) (size : Nat)
  | write (address : Address) (bytes : List UInt8)
  deriving DecidableEq, Repr

/-- A read gives the bytes that were read, or nothing where it fails or no process is open. -/
abbrev Request.Reply : Request → Type
  | .read _ _ => Option (List UInt8)
  | .write _ _ => Bool

abbrev Remote := Asking Request Request.Reply

def readProcessMemory (address : Address) (size : Nat) : Remote (Option (List UInt8)) :=
  question (Request.read address size)

def tryWriteRaw (address : Address) (bytes : List UInt8) : Remote Bool :=
  question (Request.write address bytes)

/-- A trivially copyable type: its size, and its value by its bytes. Without bytes it is `T{}`. -/
class Plain (T : Type) where
  size : Nat
  decode : List UInt8 → T

def zero (T : Type) [Plain T] : T := Plain.decode []

instance : Plain UInt8 := ⟨1, fun bytes => (ofBytes bytes).toUInt8⟩

instance : Plain UInt16 := ⟨2, fun bytes => (ofBytes bytes).toUInt16⟩

instance : Plain UInt32 := ⟨4, fun bytes => (ofBytes bytes).toUInt32⟩

instance : Plain UInt64 := ⟨8, fun bytes => (ofBytes bytes).toUInt64⟩

instance : Plain Int32 := ⟨4, fun bytes => .ofBitVec (.ofNat 32 (ofBytes bytes))⟩

instance : Plain Bool := ⟨1, fun bytes => ofBytes bytes != 0⟩

instance : Plain Single := ⟨4, fun bytes => .ofNat 32 (ofBytes bytes)⟩

/-- One after another, as the fields of a struct. -/
def decodeSingle (bytes : List UInt8) (index : Nat) : Single :=
  .ofNat 32 (ofBytes ((bytes.drop (4 * index)).take 4))

instance : Plain Vector3 :=
  ⟨12, fun bytes => ⟨decodeSingle bytes 0, decodeSingle bytes 1, decodeSingle bytes 2⟩⟩

structure ViewMatrix where
  m : List Single
  deriving DecidableEq, Repr

instance : Plain ViewMatrix := ⟨64, fun bytes => ⟨(List.range 16).map (decodeSingle bytes)⟩⟩

/-- TryRead; none: it returns false, and its value is `T{}`. -/
def tryRead (T : Type) [Plain T] (address : Address) : Remote (Option T) := do
  if address = 0 then return none
  let bytes ← readProcessMemory address (Plain.size T)
  return (bytes.filter fun bytes => bytes.length = Plain.size T).map Plain.decode

/-- Read. -/
def readAs (T : Type) [Plain T] (address : Address) : Remote T := do
  let value ← tryRead T address
  return value.getD (zero T)

/-- ReadRaw; none: it returns false, and its buffer is all zero. -/
def readRaw (address : Address) (size : Nat) : Remote (Option (List UInt8)) := do
  if size = 0 ∨ address = 0 then return none
  let bytes ← readProcessMemory address size
  return bytes.filter fun bytes => bytes.length = size

section Rules

variable {allowed : Request → Prop} {T : Type} [Plain T] {address : Address} {size : Nat}

/-- Requests that read. -/
def Request.Reads : Request → Prop
  | .read _ _ => True
  | .write _ _ => False

instance : DecidablePred Request.Reads
  | .read _ _ => .isTrue trivial
  | .write _ _ => .isFalse id

theorem filter_reads {questions : List Request} (reads : ∀ q ∈ questions, q.Reads) :
    (questions.filter fun q => ¬ q.Reads) = [] := by
  apply List.filter_eq_nil_iff.mpr
  intro q member
  rw [decide_eq_true_eq, not_not]
  exact reads q member

theorem ensures_readProcessMemory (reads : ∀ q : Request, q.Reads → allowed q) :
    Ensures allowed (fun _ => True) (readProcessMemory address size) :=
  ensures_question (reads (.read address size) trivial) fun _ => trivial

theorem ensures_tryWriteRaw {bytes : List UInt8} (writes : allowed (.write address bytes)) :
    Ensures allowed (fun _ => True) (tryWriteRaw address bytes) :=
  ensures_question writes fun _ => trivial

/-- A read comes to anything, and only reads. -/
theorem ensures_tryRead (reads : ∀ q : Request, q.Reads → allowed q) :
    Ensures allowed (fun _ => True) (tryRead T address) := by
  unfold tryRead
  split
  · exact ensures_done trivial
  · exact ensures_bind (ensures_readProcessMemory reads) fun _ _ => ensures_done trivial

theorem ensures_readAs (reads : ∀ q : Request, q.Reads → allowed q) :
    Ensures allowed (fun _ => True) (readAs T address) :=
  ensures_bind (ensures_tryRead reads) fun _ _ => ensures_done trivial

theorem ensures_readRaw (reads : ∀ q : Request, q.Reads → allowed q) :
    Ensures allowed (fun bytes => ∀ b ∈ bytes, b.length = size) (readRaw address size) := by
  unfold readRaw
  split
  · apply ensures_done
    intro b member
    cases member
  · apply ensures_bind (ensures_readProcessMemory reads)
    intro bytes _
    apply ensures_done
    intro b member
    exact of_decide_eq_true (Option.mem_filter_iff.mp member).2

end Rules

end GameMemory
