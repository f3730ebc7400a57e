import GameSecurity.WebHost

/- Web addresses up to the origin: the scheme, the host and the port that a browser takes from a
   text. What stands behind the host cannot fail and is no part of the origin. -/
namespace WebOrigin
open AsciiText WebHost

/-- Blanks at the ends do not count, nor do tabs and ends of lines anywhere. -/
def clean (s : Text) : Text :=
  let inner := (s.dropWhile fun c => decide (c ≤ 32)).rdropWhile fun c => decide (c ≤ 32)
  inner.filter fun c => decide (c ≠ 9 ∧ c ≠ 10 ∧ c ≠ 13)

def schemeChar (c : UInt8) : Bool := isalnum c ∨ c = 43 ∨ c = 45 ∨ c = 46

def splitScheme (s : Text) : Option (Text × Text) :=
  match s.head?, s.dropWhile schemeChar with
  | some first, 58 :: rest =>
    if isupper first ∨ islower first then some ((s.takeWhile schemeChar).map tolower, rest) else none
  | _, _ => none

def defaultPorts : List (Text × Nat) :=
  [(text "https", 443), (text "http", 80), (text "wss", 443), (text "ws", 80), (text "ftp", 21)]

def slash (c : UInt8) : Bool := c = 47 ∨ c = 92

def endsAuthority (c : UInt8) : Bool := slash c ∨ c = 63 ∨ c = 35

/-- The host, and the port if there is a colon outside brackets. -/
def splitPort : Bool → Text → Text × Option Text
  | _, [] => ([], none)
  | inside, c :: rest =>
    if c = 58 ∧ inside = false then ([], some rest)
    else
      let (host, port) := splitPort (if c = 91 then true else if c = 93 then false else inside) rest
      (c :: host, port)

def portTail (default : Nat) : Option Text → Option Text
  | none => some []
  | some port =>
    if port.all isdigit = false ∨ 65535 < value 10 port then none
    else if port = [] ∨ value 10 port = default then some []
    else some (58 :: numeral 10 (value 10 port))

def portText : Option Nat → Text
  | none => []
  | some n => 58 :: numeral 10 n

/-- The text of the origin, where the address can be read and its origin is not opaque. -/
def origin (toASCII : Text → Option Text) (s : Text) : Option Text := do
  let (scheme, rest) ← splitScheme (clean s)
  let default ← defaultPorts.lookup scheme
  let authority := (rest.dropWhile slash).takeWhile fun c => !endsAuthority c
  let (name, port) := splitPort false (authority.rtakeWhile fun c => decide (c ≠ 64))
  if name = [] then none
  else
    let host ← parseHost toASCII name
    let tail ← portTail default port
    return scheme ++ text "://" ++ host.serialize ++ tail

theorem clean_plain {s : Text} (plain : ∀ c ∈ s, 32 < c) : clean s = s := by
  have solid : ∀ c ∈ s, ¬ decide (c ≤ 32) = true := by
    intro c member
    rw [decide_eq_true_eq]
    exact UInt8.not_le.mpr (plain c member)
  have front : (s.dropWhile fun c => decide (c ≤ 32)) = s := by
    rw [List.dropWhile_eq_self_iff]
    exact fun some_ => solid _ (List.getElem_mem some_)
  have back : (s.rdropWhile fun c => decide (c ≤ 32)) = s := by
    rw [List.rdropWhile_eq_self_iff]
    exact fun some_ => solid _ (List.getLast_mem some_)
  have whole : ∀ c ∈ s, decide (c ≠ 9 ∧ c ≠ 10 ∧ c ≠ 13) = true := by
    intro c member
    rw [decide_eq_true_eq]
    refine ⟨?_, ?_, ?_⟩ <;> rintro rfl <;> exact absurd (plain _ member) (by decide)
  rw [clean, front, back, List.filter_eq_self.mpr whole]

set_option maxRecDepth 1500

theorem origin_https (toASCII : Text → Option Text) {s name tail : Text} {port : Option Text}
    (plain : ∀ c ∈ s, 32 < c ∧ endsAuthority c = false ∧ c ≠ 64) (some_ : name ≠ [])
    (parts_ : splitPort false s = (name, port)) (known : portTail 443 port = some tail) :
    origin toASCII (text "https://" ++ s) =
      (parseHost toASCII name).map fun host => text "https://" ++ host.serialize ++ tail := by
  have whole : clean (text "https://" ++ s) = text "https://" ++ s := by
    refine clean_plain fun c member => ?_
    rcases List.mem_append.mp member with before | behind
    · have each : ∀ c ∈ text "https://", 32 < c := by decide
      exact each c before
    · exact (plain c behind).1
  have scheme : splitScheme (text "https://" ++ s) = some (text "https", text "//" ++ s) := rfl
  have slashes : (text "//" ++ s).dropWhile slash = s := by
    rw [List.dropWhile_append_of_pos (by decide), List.dropWhile_eq_self_iff]
    intro front
    have first := (plain _ (List.getElem_mem front)).2.1
    exact fun slash_ => of_decide_eq_false first (.inl slash_)
  have all : (s.takeWhile fun c => !endsAuthority c) = s := by
    rw [List.takeWhile_eq_self_iff]
    intro c member
    rw [(plain c member).2.1]
    rfl
  have user : (s.rtakeWhile fun c => decide (c ≠ 64)) = s := by
    rw [List.rtakeWhile_eq_self_iff]
    exact fun c member => decide_eq_true (plain c member).2.2
  have port_ : defaultPorts.lookup (text "https") = some 443 := rfl
  rw [origin, whole, scheme]
  simp only [Option.bind_eq_bind, Option.bind_some, port_, slashes, all, user, parts_, known]
  rw [if_neg some_]
  cases parseHost toASCII name <;> rfl

def addressChar (c : UInt8) : Bool := nameChar c ∨ isxdigit c ∨ c = 58 ∨ c = 91 ∨ c = 93

theorem addressChar_plain : ∀ c, addressChar c = true →
    32 < c ∧ endsAuthority c = false ∧ c ≠ 64 := each_byte (by decide +kernel)

theorem splitPort_outside {name : Text} (colon : 58 ∉ name) (bracket : 91 ∉ name) (tail : Text) :
    splitPort false (name ++ tail) =
      (name ++ (splitPort false tail).1, (splitPort false tail).2) := by
  induction name with
  | nil => rfl
  | cons c name ih =>
    rw [List.mem_cons, not_or] at colon bracket
    have other : ¬ (c = 58 ∧ false = false) := fun both => colon.1 both.1.symm
    have outside : (if c = 91 then true else if c = 93 then false else false) = false := by
      rw [if_neg fun same => bracket.1 same.symm, ite_self]
    rw [List.cons_append, splitPort, if_neg other, outside, ih colon.2 bracket.2]
    rfl

theorem splitPort_inside {inner : Text} (bracket : 93 ∉ inner) (tail : Text) :
    splitPort true (inner ++ 93 :: tail) =
      (inner ++ 93 :: (splitPort false tail).1, (splitPort false tail).2) := by
  induction inner with
  | nil => rfl
  | cons c inner ih =>
    rw [List.mem_cons, not_or] at bracket
    have still : (if c = 91 then true else if c = 93 then false else true) = true := by
      split
      · rfl
      · exact if_neg fun same => bracket.1 same.symm
    rw [List.cons_append, splitPort, if_neg fun both => Bool.false_ne_true both.2.symm, still,
      ih bracket.2]
    rfl

theorem splitPort_portText (port : Option Nat) :
    splitPort false (portText port) = ([], port.map (numeral 10)) := by
  cases port <;> rfl

theorem portTail_portText {port : Option Nat} (canonical : ∀ n ∈ port, n ≤ 65535 ∧ n ≠ 443) :
    portTail 443 (port.map (numeral 10)) = some (portText port) := by
  cases port with
  | none => rfl
  | some n =>
    obtain ⟨low, other⟩ := canonical n rfl
    have value_ := value_numeral (by decide : 1 < 10) (by decide) n
    have row : (numeral 10 n).all isdigit = true := List.all_eq_true.mpr (numeral_isdigit n)
    have inside : ¬ ((numeral 10 n).all isdigit = false ∨ 65535 < value 10 (numeral 10 n)) := by
      rw [row, value_]
      rintro (wrong | high)
      · exact Bool.false_ne_true wrong.symm
      · omega
    have shown : ¬ (numeral 10 n = [] ∨ value 10 (numeral 10 n) = 443) := by
      rw [value_]
      exact not_or.mpr ⟨numeral_ne_nil 10 n, other⟩
    rw [Option.map_some, portTail, if_neg inside, if_neg shown, value_]
    rfl

/-- A host as it stands in an address: a name, or an address of eight parts in brackets. -/
def HostText (s : Text) : Prop :=
  (s ≠ [] ∧ ∀ c ∈ s, nameChar c = true) ∨ ∃ a, s = 91 :: (serialize6 a ++ [93])

theorem origin_host (toASCII : Text → Option Text) {name : Text} (host : HostText name)
    {port : Option Nat} (canonical : ∀ n ∈ port, n ≤ 65535 ∧ n ≠ 443) :
    origin toASCII (text "https://" ++ (name ++ portText port)) =
      (parseHost toASCII name).map fun host =>
        text "https://" ++ host.serialize ++ portText port := by
  have some_ : name ≠ [] := by
    rcases host with plain | ⟨a, rfl⟩
    · exact plain.1
    · exact List.cons_ne_nil _ _
  have tail : splitPort false (portText port) = ([], port.map (numeral 10)) :=
    splitPort_portText port
  have parts_ : splitPort false (name ++ portText port) = (name, port.map (numeral 10)) := by
    rcases host with plain | ⟨a, rfl⟩
    · rw [splitPort_outside, tail, List.append_nil]
      · exact fun colon => absurd (plain.2 58 colon) (by decide)
      · exact fun bracket => absurd (plain.2 91 bracket) (by decide)
    · have close : 93 ∉ serialize6 a := by
        intro member
        rcases mem_serialize6 member with hex | colon
        · exact absurd hex (by decide)
        · exact absurd colon (by decide)
      rw [List.cons_append, List.append_assoc, splitPort, if_neg (by decide)]
      simp only [List.singleton_append, splitPort_inside close, tail, if_true]
  refine origin_https toASCII (fun c member => addressChar_plain c ?_) some_ parts_
    (portTail_portText canonical)
  rcases List.mem_append.mp member with within | port_
  · rcases host with plain | ⟨a, rfl⟩
    · simp [addressChar, plain.2 c within]
    · rw [List.mem_cons, List.mem_append, List.mem_singleton] at within
      rcases within with rfl | inner | rfl
      · decide
      · rcases mem_serialize6 inner with hex | rfl
        · simp [addressChar, hex]
        · decide
      · decide
  · cases port with
    | none => exact absurd port_ List.not_mem_nil
    | some n =>
      rcases List.mem_cons.mp port_ with rfl | digit_
      · decide
      · simp [addressChar, isxdigit, numeral_isdigit n c digit_]

/-- The addresses of plain names that are their own origins. -/
theorem origin_name {toASCII : Text → Option Text} (lowers : LowersPlain toASCII) {name : Text}
    (some_ : name ≠ []) (plain : ∀ c ∈ name, nameChar c = true) {port : Option Nat}
    (canonical : ∀ n ∈ port, n ≤ 65535 ∧ n ≠ 443) :
    origin toASCII (text "https://" ++ (name ++ portText port)) =
      some (text "https://" ++ (name ++ portText port)) ↔ Kept toASCII name := by
  rw [origin_host toASCII (.inl ⟨some_, plain⟩) canonical, ← parseHost_same lowers some_ plain,
    Option.map_eq_some_iff]
  refine exists_congr fun host => and_congr_right fun _ => ?_
  rw [List.append_assoc, List.append_cancel_left_eq, List.append_cancel_right_eq]

theorem origin_address (toASCII : Text → Option Text) (a : IPv6) {port : Option Nat}
    (canonical : ∀ n ∈ port, n ≤ 65535 ∧ n ≠ 443) :
    origin toASCII (text "https://" ++ (91 :: (serialize6 a ++ [93]) ++ portText port)) =
      some (text "https://" ++ (91 :: (serialize6 a ++ [93]) ++ portText port)) := by
  have read : parseHost toASCII (91 :: (serialize6 a ++ [93])) = some (.ipv6 a) := by
    rw [parseHost, if_pos (by simp), List.dropLast_concat, parse6_serialize6]
    rfl
  rw [origin_host toASCII (.inr ⟨a, rfl⟩) canonical, read, Option.map_some, List.append_assoc]
  rfl

end WebOrigin
