import GameSecurity.RelayConfig
import GameSecurity.WebOrigin

/- The public origin of an accepted configuration, and what a browser sends in the Origin header
   of a page from there. The server compares the two byte for byte. -/
namespace RelayOrigin
open RelayRoom RelayConfig AsciiText WebHost WebOrigin

/-- `request.Header.Values("Origin")` against the configured origin. -/
def validOrigin (publicOrigin : Bytes) (origins : List Bytes) : Bool :=
  origins.length = 1 ∧ origins.head? = some publicOrigin

def bracketed (host : Bytes) : Bytes := if 58 ∈ host then 91 :: (host ++ [93]) else host

/-- What the validator relies on: `Hostname` and `Port` are the two parts of the host that was
   parsed, and `IP.String` writes an address of four parts or of eight. -/
structure Documented (std : Stdlib) : Prop where
  host {value : Bytes} {u : URL} (parsed : std.parseURL value = .ok u) :
    (u.host = bracketed (std.urlHostname u) ∧ std.urlPort u = []) ∨
      u.host = bracketed (std.urlHostname u) ++ 58 :: std.urlPort u
  itoa (n : Nat) : std.itoa n = numeral 10 n
  parseIP {host canonical : Bytes} (known : std.parseIP host = some canonical) :
    (∃ a, canonical = dotted a) ∨ ∃ a, canonical = serialize6 a

/-- The host behind "https://", up to a colon. -/
def hostName (value : Bytes) : Bytes := (value.drop 8).takeWhile fun c => decide (c ≠ 58)

theorem mem_splitOn (separator : UInt8) {c : UInt8} {s : Bytes} (member : c ∈ s) :
    c = separator ∨ ∃ label ∈ RelayConfig.splitOn separator s, c ∈ label := by
  induction s with
  | nil => exact absurd member List.not_mem_nil
  | cons d s ih =>
    rw [RelayConfig.splitOn]
    split
    · rename_i same
      rcases List.mem_cons.mp member with rfl | behind
      · exact .inl same
      · rcases ih behind with same | ⟨label, found, within⟩
        · exact .inl same
        · exact .inr ⟨label, List.mem_cons_of_mem _ found, within⟩
    · cases pieces : RelayConfig.splitOn separator s with
      | nil =>
        rw [pieces] at ih
        rcases List.mem_cons.mp member with rfl | behind
        · exact .inr ⟨[c], List.mem_singleton_self _, List.mem_singleton_self _⟩
        · rcases ih behind with same | ⟨label, found, -⟩
          · exact .inl same
          · exact absurd found List.not_mem_nil
      | cons label labels =>
        rw [pieces] at ih
        rcases List.mem_cons.mp member with rfl | behind
        · exact .inr ⟨c :: label, List.mem_cons_self, List.mem_cons_self⟩
        · rcases ih behind with same | ⟨other, found, within⟩
          · exact .inl same
          · rcases List.mem_cons.mp found with rfl | later
            · exact .inr ⟨d :: other, List.mem_cons_self, List.mem_cons_of_mem d within⟩
            · exact .inr ⟨other, List.mem_cons_of_mem _ later, within⟩

theorem validateLabels_chars {labels : List Bytes} (accepted : validateLabels labels = .ok ()) :
    ∀ label ∈ labels, ∀ c ∈ label, dnsCharacter c = true := by
  induction labels with
  | nil => exact fun label member => absurd member List.not_mem_nil
  | cons first rest ih =>
    simp only [validateLabels, bind_ok_iff, refuse_ok_iff, Bool.not_eq_false] at accepted
    obtain ⟨-, -, -, chars, others⟩ := accepted
    intro label member
    rcases List.mem_cons.mp member with rfl | behind
    · exact List.all_eq_true.mp chars
    · exact ih others label behind

theorem dnsCharacter_nameChar {c : UInt8} (dns : dnsCharacter c = true) : nameChar c = true := by
  simp only [dnsCharacter, Bool.or_eq_true, Bool.and_eq_true, decide_eq_true_eq] at dns
  simp only [nameChar, islower, isdigit, decide_eq_true_eq]
  rcases dns with (letter | digit) | hyphen
  · exact .inl letter
  · exact .inr (.inl digit)
  · exact .inr (.inr (.inl hyphen))

section Accepting

variable {std : Stdlib} (documented : Documented std)
include documented

theorem validateBrowserHost_form {host : Bytes} (accepted : validateBrowserHost std host = .ok ()) :
    (host ≠ [] ∧ ∀ c ∈ host, nameChar c = true) ∨ ∃ a, host = serialize6 a := by
  simp only [validateBrowserHost, bind_ok_iff, refuse_ok_iff, not_or] at accepted
  obtain ⟨-, ⟨some_, -⟩, -, -, -, -, checked⟩ := accepted
  split at checked
  · rename_i canonical known
    have same : host = canonical := not_not.mp (refuse_ok_iff.mp checked)
    subst same
    rcases documented.parseIP known with ⟨a, rfl⟩ | eight
    · exact .inl ⟨some_, dotted_nameChar a⟩
    · exact .inr eight
  · obtain ⟨-, -, labels⟩ := bind_ok_iff.mp checked
    refine .inl ⟨some_, fun c member => ?_⟩
    rcases mem_splitOn 46 member with rfl | ⟨label, found, within⟩
    · decide
    · exact dnsCharacter_nameChar (validateLabels_chars labels label found c within)

theorem validatePort_form {port : Bytes} (accepted : validatePort std port = .ok ())
    (some_ : port ≠ []) : ∃ n, n ≤ 65535 ∧ port = numeral 10 n := by
  rw [validatePort] at accepted
  simp only [if_neg some_] at accepted
  split at accepted
  · cases accepted
  · rename_i number _
    simp only [refuse_ok_iff, not_or, not_not] at accepted
    obtain ⟨low, high, written⟩ := accepted
    refine ⟨number.toNat, by omega, ?_⟩
    rw [← documented.itoa, ← written]
    congr 1
    omega

/-- What is accepted is "https://", a host and perhaps a port that is not the scheme's own. -/
theorem validateOrigin_form {value : Bytes} (accepted : validateOrigin std value false = .ok ()) :
    ∃ (host : Bytes) (port : Option Nat), value = text "https://" ++ (bracketed host ++ portText port) ∧
      (∀ n ∈ port, n ≤ 65535 ∧ n ≠ 443) ∧
      ((host ≠ [] ∧ ∀ c ∈ host, nameChar c = true) ∨ ∃ a, host = serialize6 a) := by
  simp only [validateOrigin, bind_ok_iff, refuse_ok_iff, not_or, not_not] at accepted
  obtain ⟨u, parsed, -, -, -, whole, -, https, -, open_, ⟨⟩, checked, -, own, named⟩ := accepted
  have scheme : u.scheme = bytes "https" := by
    by_contra other
    exact https ⟨other, fun both => Bool.false_ne_true both.1⟩
  have other : std.urlPort u ≠ bytes "443" := fun same => own.1 ⟨scheme, same⟩
  have form := validateBrowserHost_form documented named
  rw [scheme] at whole
  by_cases bare : std.urlPort u = []
  · have all : u.host = bracketed (std.urlHostname u) := by
      rcases documented.host parsed with ⟨all, -⟩ | colon
      · exact all
      · rw [bare] at colon
        rw [colon] at open_
        exact absurd List.getLast?_concat open_
    refine ⟨std.urlHostname u, none, ?_, ?_, form⟩
    rotate_left
    · exact fun n member => absurd member (Option.not_mem_none n)
    rw [whole, all, portText, List.append_nil]
    rfl
  · obtain ⟨n, low, written⟩ := validatePort_form documented checked bare
    have all : u.host = bracketed (std.urlHostname u) ++ 58 :: std.urlPort u := by
      rcases documented.host parsed with ⟨-, none_⟩ | all
      · exact absurd none_ bare
      · exact all
    refine ⟨std.urlHostname u, some n, ?_, ?_, form⟩
    · rw [whole, all, written]
      rfl
    · rintro _ ⟨⟩
      refine ⟨low, fun same => other ?_⟩
      rw [written, same]
      rfl

end Accepting

theorem hostName_plain {name : Bytes} (colon : 58 ∉ name) (port : Option Nat) :
    hostName (text "https://" ++ (name ++ portText port)) = name := by
  have plain : ∀ c ∈ name, decide (c ≠ 58) = true := by
    intro c member
    rw [decide_eq_true_eq]
    rintro rfl
    exact colon member
  have stop : (portText port).takeWhile (fun c => decide (c ≠ 58)) = [] := by
    cases port <;> rfl
  change (name ++ portText port).takeWhile (fun c => decide (c ≠ 58)) = name
  rw [List.takeWhile_append_of_pos plain, stop, List.append_nil]

theorem kept_bracket (toASCII : Bytes → Option Bytes) {s : Bytes} (dots : 46 ∉ s) :
    Kept toASCII (91 :: s) := by
  have one : (91 :: s).splitOn 46 = [91 :: s] := by
    refine List.splitOn_eq_singleton ?_
    rw [List.mem_cons, not_or]
    exact ⟨by decide, dots⟩
  have last : parts (91 :: s) = [91 :: s] := by
    rw [parts, one]
    exact if_neg fun both => absurd both.2 (Nat.lt_irrefl 1)
  have number_ : number (91 :: s) = none := by
    rw [number, digits, if_neg (List.cons_ne_nil 91 s), if_neg]
    · rw [List.all_cons]
      exact Bool.false_ne_true
    · exact List.cons_ne_nil 91 s
    · exact fun same => absurd (List.cons.inj same).1 (by decide)
    · exact fun x rest same => absurd (List.cons.inj same).1 (by decide)
  have plain : endsInNumber (91 :: s) = false := by
    rw [endsInNumber, last]
    change ((decide (91 :: s ≠ []) && (isdigit 91 && s.all isdigit)) ||
      (number (91 :: s)).isSome) = false
    rw [number_]
    rfl
  have uncoded : coded (91 :: s) = false := by
    rw [coded, one]
    rfl
  rw [Kept, plain, uncoded]
  exact ⟨fun wrong => absurd wrong Bool.false_ne_true, fun wrong => absurd wrong Bool.false_ne_true⟩

theorem origin_bracketed {toASCII : Bytes → Option Bytes} (lowers : LowersPlain toASCII)
    {host : Bytes} (form : (host ≠ [] ∧ ∀ c ∈ host, nameChar c = true) ∨ ∃ a, host = serialize6 a)
    {port : Option Nat} (canonical : ∀ n ∈ port, n ≤ 65535 ∧ n ≠ 443) :
    origin toASCII (text "https://" ++ (bracketed host ++ portText port)) =
        some (text "https://" ++ (bracketed host ++ portText port)) ↔
      Kept toASCII (hostName (text "https://" ++ (bracketed host ++ portText port))) := by
  rcases form with ⟨some_, plain⟩ | ⟨a, rfl⟩
  · have colon : 58 ∉ host := fun member => absurd (plain 58 member) (by decide)
    rw [bracketed, if_neg colon, hostName_plain colon]
    exact origin_name lowers some_ plain canonical
  · rw [bracketed, if_pos (colon_serialize6 a)]
    refine iff_of_true (origin_address toASCII a canonical) (kept_bracket toASCII ?_)
    intro dot
    have member : 46 ∈ serialize6 a ++ [93] ++ portText port := (List.takeWhile_prefix _).subset dot
    rcases List.mem_append.mp member with within | behind
    · rcases List.mem_append.mp within with inner | close
      · rcases mem_serialize6 inner with hex | colon
        · exact absurd hex (by decide)
        · exact absurd colon (by decide)
      · exact absurd close (by decide)
    · cases port with
      | none => exact List.not_mem_nil behind
      | some n =>
        rcases List.mem_cons.mp behind with colon | digit_
        · exact absurd colon (by decide)
        · exact absurd (numeral_isdigit n 46 digit_) (by decide)

/-- Where the validator accepts an origin, a browser sends that origin exactly if the host is no
    name that browsers read as a number or map to another name. -/
theorem origin_sent_iff {std : Stdlib} (documented : Documented std)
    {toASCII : Bytes → Option Bytes} (lowers : LowersPlain toASCII) {value : Bytes}
    (accepted : validateOrigin std value false = .ok ()) :
    origin toASCII value = some value ↔ Kept toASCII (hostName value) := by
  obtain ⟨host, port, rfl, canonical, form⟩ := validateOrigin_form documented accepted
  exact origin_bracketed lowers form canonical

/-- The library on an origin whose host is a name without a port, and the tables on names without
    labels in the ASCII coding. -/
def nameStdlib (name : Bytes) : Stdlib :=
  { exampleStdlib with
    toLower := fun s => s.map tolower
    itoa := fun n => numeral 10 n.toNat
    parseURL := fun value =>
      if value = bytes "https://" ++ name then .ok ⟨bytes "https", name, false, [], [], []⟩
      else .error "parse"
    urlHostname := fun u => u.host }

theorem nameStdlib_documented {name : Bytes} (colon : 58 ∉ name) : Documented (nameStdlib name) where
  host := by
    intro value u parsed
    obtain rfl : ⟨bytes "https", name, false, [], [], []⟩ = u := by
      by_cases same : value = bytes "https://" ++ name
      · exact Except.ok.inj ((if_pos same).symm.trans parsed)
      · exact nomatch (if_neg same).symm.trans parsed
    exact .inl ⟨(if_neg colon).symm, rfl⟩
  itoa _ := rfl
  parseIP known := nomatch known

theorem some_lowers : LowersPlain fun name => some (name.map tolower) := fun _ _ _ => rfl

theorem origin_sent_sample :
    origin (fun name => some (name.map tolower)) (bytes "https://radar.example") =
      some (bytes "https://radar.example") :=
  (origin_sent_iff (@nameStdlib_documented (bytes "radar.example") (by decide)) some_lowers rfl).mpr
    ⟨fun ends => absurd ends (by decide +kernel), fun known => absurd known (by decide +kernel)⟩

theorem origin_not_sent : ¬ ∀ (std : Stdlib) (toASCII : Bytes → Option Bytes) (value : Bytes),
    Documented std → LowersPlain toASCII → validateOrigin std value false = .ok () →
    origin toASCII value = some value := by
  intro all
  have sent := all (nameStdlib (bytes "radar.1")) (fun name => some (name.map tolower))
    (bytes "https://radar.1") (nameStdlib_documented (by decide)) some_lowers rfl
  exact absurd sent (by decide +kernel)

theorem validOrigin_sent_iff {std : Stdlib} (documented : Documented std)
    {toASCII : Bytes → Option Bytes} (lowers : LowersPlain toASCII) {value sent : Bytes}
    (accepted : validateOrigin std value false = .ok ()) (known : origin toASCII value = some sent) :
    validOrigin value [sent] = true ↔ Kept toASCII (hostName value) := by
  obtain ⟨host, port, rfl, canonical, form⟩ := validateOrigin_form documented accepted
  rw [← origin_bracketed lowers form canonical, known, validOrigin, decide_eq_true_eq]
  exact and_iff_right rfl

end RelayOrigin
