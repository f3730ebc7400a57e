import GameSecurity.WebHost

/- URLSearchParams: the query of an address as a list of names and values. -/
namespace UrlParams
open AsciiText WebHost

/-- A text is given by its UTF-8 bytes. The decoder replaces what is no UTF-8, and leaves alone
    what it has decoded. -/
structure Utf8 where
  decode : Text → Text
  decoded : ∀ s, decode (decode s) = decode s

def plusToSpace (s : Text) : Text := s.map fun c => if c = 43 then 32 else c

def decodePart (utf8 : Utf8) (s : Text) : Text := utf8.decode (percentDecode (plusToSpace s))

/-- A name up to the first '=', and the value behind it. -/
def readPair (utf8 : Utf8) (s : Text) : Text × Text :=
  (decodePart utf8 (s.takeWhile (· ≠ 61)), decodePart utf8 ((s.dropWhile (· ≠ 61)).drop 1))

/-- A question mark in front does not count. -/
def query (search : Text) : Text := if search.head? = some 63 then search.tail else search

def parse (utf8 : Utf8) (search : Text) : List (Text × Text) :=
  (((query search).splitOn 38).filter fun s => s ≠ []).map (readPair utf8)

/-- Written as it is. -/
def plain (c : UInt8) : Bool := isalnum c ∨ c ∈ text "*-._"

def upperDigit (n : Nat) : UInt8 := if n < 10 then (48 + n).toUInt8 else (55 + n).toUInt8

def encodeByte (c : UInt8) : Text :=
  if plain c then [c]
  else if c = 32 then [43]
  else [37, upperDigit (c.toNat / 16), upperDigit (c.toNat % 16)]

def encode (s : Text) : Text := s.flatMap encodeByte

def writePair (param : Text × Text) : Text := encode param.1 ++ 61 :: encode param.2

def serialize (params : List (Text × Text)) : Text := [38].intercalate (params.map writePair)

section RoundTrip

variable {utf8 : Utf8}

/-- No separator is among the characters that a byte is written with. -/
theorem mem_encodeByte {c d : UInt8} (member : d ∈ encodeByte c) :
    d ≠ 35 ∧ d ≠ 38 ∧ d ≠ 61 := by
  have each : ∀ c : UInt8, (encodeByte c).all (fun d => d != 35 && d != 38 && d != 61) = true :=
    each_byte (by decide +kernel)
  have here := List.all_eq_true.mp (each c) d member
  simpa [and_assoc] using here

theorem mem_encode {s : Text} {d : UInt8} (member : d ∈ encode s) : d ≠ 35 ∧ d ≠ 38 ∧ d ≠ 61 := by
  obtain ⟨c, -, written⟩ := List.mem_flatMap.mp member
  exact mem_encodeByte written

theorem percentDecode_cons {c : UInt8} {rest : Text} (literal : c ≠ 37) :
    percentDecode (c :: rest) = c :: percentDecode rest := by
  rw [percentDecode]
  intro a b more is
  exact absurd is literal

theorem percentDecode_byte {a b : UInt8} {rest : Text} (high : isxdigit a = true)
    (low : isxdigit b = true) :
    percentDecode (37 :: a :: b :: rest) = (value 16 [a, b]).toUInt8 :: percentDecode rest := by
  rw [percentDecode, if_pos ⟨high, low⟩]

/-- The digits of a byte are read back, and are no plus signs. -/
theorem upperDigit_byte : ∀ c : UInt8,
    isxdigit (upperDigit (c.toNat / 16)) = true ∧ isxdigit (upperDigit (c.toNat % 16)) = true ∧
      upperDigit (c.toNat / 16) ≠ 43 ∧ upperDigit (c.toNat % 16) ≠ 43 ∧
      (value 16 [upperDigit (c.toNat / 16), upperDigit (c.toNat % 16)]).toUInt8 = c :=
  each_byte (by decide +kernel)

theorem plain_literal {c : UInt8} (is : plain c = true) : c ≠ 37 ∧ c ≠ 43 := by
  have each : ∀ c : UInt8, plain c = true → c ≠ 37 ∧ c ≠ 43 := each_byte (by decide +kernel)
  exact each c is

theorem decode_encodeByte (c : UInt8) (rest : Text) :
    percentDecode (plusToSpace (encodeByte c) ++ rest) = c :: percentDecode rest := by
  unfold encodeByte plusToSpace
  split
  · obtain ⟨literal, plus⟩ := plain_literal ‹_›
    rw [List.map_singleton, if_neg plus]
    exact percentDecode_cons literal
  · split
    · rw [List.map_singleton, if_pos rfl, ‹c = 32›]
      exact percentDecode_cons (by decide)
    · obtain ⟨high, low, first, second, same⟩ := upperDigit_byte c
      simp only [List.map_cons, List.map_nil, if_neg first, if_neg second,
        if_neg (show (37 : UInt8) ≠ 43 by decide), List.cons_append, List.nil_append]
      rw [percentDecode_byte high low, same]

theorem decode_encode (s : Text) : percentDecode (plusToSpace (encode s)) = s := by
  induction s with
  | nil => rfl
  | cons c rest ih =>
    have cut : plusToSpace (encode (c :: rest)) =
        plusToSpace (encodeByte c) ++ plusToSpace (encode rest) := List.map_append
    rw [cut, decode_encodeByte, ih]

theorem readPair_writePair {param : Text × Text} (name : utf8.decode param.1 = param.1)
    (value : utf8.decode param.2 = param.2) : readPair utf8 (writePair param) = param := by
  have each : ∀ d ∈ encode param.1, decide (d ≠ 61) = true :=
    fun d member => decide_eq_true (mem_encode member).2.2
  unfold readPair writePair
  rw [List.takeWhile_append_of_pos each, List.dropWhile_append_of_pos each,
    List.takeWhile_cons_of_neg (by decide), List.append_nil,
    List.dropWhile_cons_of_neg (by decide), List.drop_one, List.tail_cons]
  simp only [decodePart, decode_encode, name, value]

/-- Texts that come out of the decoder are read back as they were. -/
theorem parse_serialize {params : List (Text × Text)}
    (texts : ∀ param ∈ params, utf8.decode param.1 = param.1 ∧ utf8.decode param.2 = param.2)
    (some_ : params ≠ []) : parse utf8 (63 :: serialize params) = params := by
  have whole : query (63 :: serialize params) = serialize params := rfl
  have pieces : (serialize params).splitOn 38 = params.map writePair := by
    apply List.splitOn_intercalate
    · intro piece member amp
      obtain ⟨param, -, same⟩ := List.mem_map.mp member
      rw [← same, writePair] at amp
      rcases List.mem_append.mp amp with first | rest
      · exact (mem_encode first).2.1 rfl
      · rcases List.mem_cons.mp rest with equals | second
        · cases equals
        · exact (mem_encode second).2.1 rfl
    · rw [ne_eq, List.map_eq_nil_iff]
      exact some_
  have filled : ∀ piece ∈ params.map writePair, decide (piece ≠ []) = true := by
    intro piece member
    obtain ⟨param, -, same⟩ := List.mem_map.mp member
    rw [← same, decide_eq_true_eq]
    exact List.append_ne_nil_of_right_ne_nil _ (List.cons_ne_nil _ _)
  rw [parse, whole, pieces, List.filter_eq_self.mpr filled, List.map_map]
  have back : ∀ param ∈ params, (readPair utf8 ∘ writePair) param = id param :=
    fun param member => readPair_writePair (texts param member).1 (texts param member).2
  rw [List.map_congr_left back, List.map_id]

theorem mem_intercalate {d : UInt8} {pieces : List Text} (member : d ∈ [38].intercalate pieces) :
    d = 38 ∨ ∃ piece ∈ pieces, d ∈ piece := by
  induction pieces with
  | nil => cases member
  | cons first rest ih =>
    cases rest with
    | nil =>
      rw [List.intercalate_singleton] at member
      exact .inr ⟨first, List.mem_cons_self, member⟩
    | cons second more =>
      rw [List.intercalate_cons_cons, List.append_assoc] at member
      rcases List.mem_append.mp member with here | later
      · exact .inr ⟨first, List.mem_cons_self, here⟩
      · rcases List.mem_append.mp later with amp | further
        · exact .inl (List.mem_singleton.mp amp)
        · rcases ih further with amp | ⟨piece, among, here⟩
          · exact .inl amp
          · exact .inr ⟨piece, List.mem_cons_of_mem _ among, here⟩

/-- A written query goes on to its end. -/
theorem serialize_no_hash {params : List (Text × Text)} : 35 ∉ serialize params := by
  intro hash
  rcases mem_intercalate hash with amp | ⟨piece, among, here⟩
  · cases amp
  · obtain ⟨param, -, same⟩ := List.mem_map.mp among
    rw [← same, writePair] at here
    rcases List.mem_append.mp here with first | rest
    · exact (mem_encode first).1 rfl
    · rcases List.mem_cons.mp rest with equals | second
      · cases equals
      · exact (mem_encode second).1 rfl

theorem serialize_ne_nil {params : List (Text × Text)} (some_ : params ≠ []) :
    serialize params ≠ [] := by
  intro empty
  have read := @parse_serialize ⟨id, fun _ => rfl⟩ params (fun _ _ => ⟨rfl, rfl⟩) some_
  rw [empty] at read
  exact some_ read.symm

theorem parse_texts {search : Text} {param : Text × Text} (member : param ∈ parse utf8 search) :
    utf8.decode param.1 = param.1 ∧ utf8.decode param.2 = param.2 := by
  obtain ⟨piece, -, same⟩ := List.mem_map.mp member
  rw [← same]
  exact ⟨utf8.decoded _, utf8.decoded _⟩

end RoundTrip

end UrlParams
