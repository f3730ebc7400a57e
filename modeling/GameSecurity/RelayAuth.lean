import GameSecurity.RelayRoom

/- Token digests. SHA-256 is the parameter `sum`. -/
namespace RelayAuth
open RelayRoom

def hexDigit (c : UInt8) : Option UInt8 :=
  if 48 ≤ c ∧ c ≤ 57 then some (c - 48)
  else if 97 ≤ c ∧ c ≤ 102 then some (c - 87)
  else if 65 ≤ c ∧ c ≤ 70 then some (c - 55)
  else none

/- `hex.DecodeString`, none where it returns an error. -/
def hexDecode : Bytes → Option Bytes
  | [] => some []
  | [_] => none
  | high :: low :: rest => do
    let h ← hexDigit high
    let l ← hexDigit low
    let decoded ← hexDecode rest
    return (h * 16 + l) :: decoded

def hexSumError : String := "must be exactly 64 hexadecimal characters"

def parseHexSum (value : Bytes) : Except String Digest :=
  match hexDecode value with
  | none => .error hexSumError
  | some decoded =>
    if exact : decoded.length = 32 then .ok ⟨decoded.toArray, by simpa using exact⟩
    else .error hexSumError

variable (sum : Bytes → Digest)

/-- The comparison is constant time in the source; its result is equality. -/
def tokenMatches (token : Bytes) (expected : Digest) : Bool := decide (sum token = expected)

def matchesAny (token : Bytes) (expected : List Digest) : Bool :=
  let presented := sum token
  expected.foldl (fun matched digest => matched || decide (presented = digest)) false

/-- A control character or a blank is one byte of a Go string in any encoding. -/
def validPresentedToken (token : Bytes) : Bool :=
  if token.length < 24 ∨ 512 < token.length then false
  else !token.any fun c => decide (c ≤ 32) || decide (c = 127)

theorem matchesAny_iff {sum : Bytes → Digest} {token : Bytes} {expected : List Digest} :
    matchesAny sum token expected = true ↔ sum token ∈ expected := by
  have fold : ∀ (l : List Digest) (start : Bool),
      l.foldl (fun matched digest => matched || decide (sum token = digest)) start = true ↔
        start = true ∨ sum token ∈ l := by
    intro l
    induction l with
    | nil => simp
    | cons digest rest ih =>
      intro start
      rw [List.foldl_cons, ih]
      simp [or_assoc]
  simpa [matchesAny] using fold expected false

theorem tokenMatches_iff {sum : Bytes → Digest} {token : Bytes} {expected : Digest} :
    tokenMatches sum token expected = true ↔ sum token = expected := by
  simp [tokenMatches]

end RelayAuth
