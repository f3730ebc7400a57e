import GameSecurity.CppLiterals

/- cpp_string of generate_fixed_map_catalog.py. -/
namespace CatalogStrings
open AsciiText (Text digitValue isxdigit)
open CppLiterals

/-- The literals that are complete and the pieces of the one that is open. -/
structure Writer where
  segments : List Text
  current : List Text
  deriving DecidableEq, Repr

def flush (writer : Writer) : Writer :=
  if writer.current ≠ [] then
    ⟨writer.segments ++ [34 :: (writer.current.flatten ++ [34])], []⟩
  else writer

def Writer.append (writer : Writer) (piece : Text) : Writer :=
  { writer with current := writer.current ++ [piece] }

def upperDigit (n : Nat) : UInt8 := (if n < 10 then 48 + n else 55 + n).toUInt8

def hexSegment (byte : UInt8) : Text :=
  [34, 92, 120, upperDigit (byte.toNat / 16), upperDigit (byte.toNat % 16), 34]

def writeByte (writer : Writer) (byte : UInt8) : Writer :=
  if byte = 0x22 then writer.append [92, 34]
  else if byte = 0x5C then writer.append [92, 92]
  else if byte = 0x0A then writer.append [92, 110]
  else if byte = 0x0D then writer.append [92, 114]
  else if byte = 0x09 then writer.append [92, 116]
  else if 0x20 ≤ byte ∧ byte ≤ 0x7E then writer.append [byte]
  else
    let writer := flush writer
    { writer with segments := writer.segments ++ [hexSegment byte] }

def literalOf (bytes : Text) : Text :=
  let writer := flush (bytes.foldl writeByte ⟨[], []⟩)
  if writer.segments ≠ [] then writer.segments.flatten else [34, 34]

def cppString (value : String) : Text := literalOf value.toUTF8.data.toList

theorem upperDigit_digit {n : Nat} (low : n < 16) :
    isxdigit (upperDigit n) = true ∧ digitValue (upperDigit n) = n := by
  have each : ∀ n < 16, isxdigit (upperDigit n) = true ∧ digitValue (upperDigit n) = n := by decide
  exact each n low

theorem hexSegment_closed (byte : UInt8) : Closed (hexSegment byte) [byte] := by
  have small := byte.toNat_lt
  obtain ⟨first, high⟩ := @upperDigit_digit (byte.toNat / 16) (by omega)
  obtain ⟨second, low⟩ := @upperDigit_digit (byte.toNat % 16) (by omega)
  apply Closed.hex first second
  rw [high, low]
  omega

/-- What the writer holds reads back as the bytes written: those in whole literals, of which there
    may be none, and those in the open one. -/
def Written (writer : Writer) (bytes : Text) : Prop :=
  ∃ done pending, bytes = done ++ pending ∧
    ((writer.segments = [] ∧ done = []) ∨
      writer.segments ≠ [] ∧ Closed writer.segments.flatten done) ∧
    (writer.current = [] → pending = []) ∧ Open writer.current.flatten pending

theorem Written.append {writer : Writer} {bytes piece : Text} {byte : UInt8}
    (written : Written writer bytes) (reads : Open piece [byte]) :
    Written (writer.append piece) (bytes ++ [byte]) := by
  obtain ⟨done, pending, whole, segments, -, current⟩ := written
  refine ⟨done, pending ++ [byte], ?_, segments, ?_, ?_⟩
  · rw [whole, List.append_assoc]
  · intro none_
    exact absurd none_ (List.append_ne_nil_of_right_ne_nil _ (List.cons_ne_nil _ _))
  · rw [Writer.append, List.flatten_append, List.flatten_singleton]
    exact current.append reads

theorem segments_append {segments : List Text} {done segment bytes : Text}
    (before : (segments = [] ∧ done = []) ∨ segments ≠ [] ∧ Closed segments.flatten done)
    (next : Closed segment bytes) : Closed (segments ++ [segment]).flatten (done ++ bytes) := by
  rw [List.flatten_append, List.flatten_singleton]
  rcases before with ⟨none_, nothing⟩ | ⟨-, closed⟩
  · subst none_ nothing
    exact next
  · exact closed.append next

theorem Written.flush {writer : Writer} {bytes : Text} (written : Written writer bytes) :
    (flush writer).current = [] ∧
      (((flush writer).segments = [] ∧ bytes = []) ∨
        (flush writer).segments ≠ [] ∧ Closed (flush writer).segments.flatten bytes) := by
  obtain ⟨done, pending, whole, segments, empty, current⟩ := written
  unfold CatalogStrings.flush
  by_cases none_ : writer.current = []
  · rw [if_neg (not_not.mpr none_)]
    rw [empty none_, List.append_nil] at whole
    subst whole
    exact ⟨none_, segments⟩
  · rw [if_pos none_]
    subst whole
    refine ⟨rfl, Or.inr ⟨?_, ?_⟩⟩
    · exact List.append_ne_nil_of_right_ne_nil _ (List.cons_ne_nil _ _)
    · exact segments_append segments current.quoted

theorem Written.byte {writer : Writer} {bytes : Text} (written : Written writer bytes)
    (byte : UInt8) : Written (writeByte writer byte) (bytes ++ [byte]) := by
  unfold writeByte
  by_cases quote : byte = 0x22
  · rw [if_pos quote, quote]
    exact written.append (.simple (by decide) rfl rfl)
  rw [if_neg quote]
  by_cases backslash : byte = 0x5C
  · rw [if_pos backslash, backslash]
    exact written.append (.simple (by decide) rfl rfl)
  rw [if_neg backslash]
  by_cases newline : byte = 0x0A
  · rw [if_pos newline, newline]
    exact written.append (.simple (by decide) rfl rfl)
  rw [if_neg newline]
  by_cases carriage : byte = 0x0D
  · rw [if_pos carriage, carriage]
    exact written.append (.simple (by decide) rfl rfl)
  rw [if_neg carriage]
  by_cases tab : byte = 0x09
  · rw [if_pos tab, tab]
    exact written.append (.simple (by decide) rfl rfl)
  rw [if_neg tab]
  by_cases printable : 0x20 ≤ byte ∧ byte ≤ 0x7E
  · rw [if_pos printable]
    exact written.append (.self quote backslash newline)
  · rw [if_neg printable]
    obtain ⟨current, segments⟩ := written.flush
    refine ⟨bytes ++ [byte], [], (List.append_nil _).symm, Or.inr ⟨?_, ?_⟩, fun _ => rfl, ?_⟩
    · exact List.append_ne_nil_of_right_ne_nil _ (List.cons_ne_nil _ _)
    · exact segments_append segments (hexSegment_closed byte)
    · change Open (CatalogStrings.flush writer).current.flatten []
      rw [current]
      exact Open.nil

theorem written_fold (bytes : Text) : Written (bytes.foldl writeByte ⟨[], []⟩) bytes := by
  induction bytes using List.reverseRecOn with
  | nil => exact ⟨[], [], rfl, Or.inl ⟨rfl, rfl⟩, fun _ => rfl, Open.nil⟩
  | append_singleton bytes byte ih =>
    rw [List.foldl_append]
    exact ih.byte byte

theorem lex_literalOf (bytes : Text) : lex (literalOf bytes) = some bytes := by
  obtain ⟨-, ⟨none_, nothing⟩ | ⟨some_, closed⟩⟩ := (written_fold bytes).flush
  · rw [literalOf, if_neg (not_not.mpr none_), nothing]
    rfl
  · rw [literalOf, if_pos some_]
    exact closed.lex

/-- The literals of a string stand for its UTF-8 bytes, whatever characters stand side by side. -/
theorem cppString_lossless (value : String) :
    lex (cppString value) = some value.toUTF8.data.toList := lex_literalOf _

end CatalogStrings
