import Mathlib.Data.List.Chain
import GameSecurity.Runs
import GameSecurity.FiniteTable
import GameSecurity.Binary64
import GameSecurity.RadarProtocol

/- Recordings of snapshots, one JSON text a line, and the hook that plays them back. A recording
   comes decoded, as `file.text()` gives it. -/
namespace SnapshotReplay
open Runs FiniteTable JsonText RelayProtocol RadarProtocol

def maxRecordingBytes : Nat := 256 * 1024 * 1024
def maxRecordingFrames : Nat := 100000

/- `text.split(/\r?\n/)`. -/
def splitLines : Text → List Text
  | [] => [[]]
  | '\r' :: '\n' :: rest => [] :: splitLines rest
  | '\n' :: rest => [] :: splitLines rest
  | c :: rest =>
    match splitLines rest with
    | line :: lines => (c :: line) :: lines
    | [] => [[c]]

/-- What `trim` takes away. -/
def isWhiteSpace (c : Char) : Bool :=
  let n := c.toNat
  (decide (9 ≤ n) && decide (n ≤ 13)) || (decide (0x2000 ≤ n) && decide (n ≤ 0x200A)) ||
    [0x20, 0xA0, 0x1680, 0x2028, 0x2029, 0x202F, 0x205F, 0x3000, 0xFEFF].contains n

def isVisible (line : Text) : Bool := !line.all isWhiteSpace

def quotient (n : Number) : ℚ := numerator n / denominator n

/-- The double that a number of a message is read as. -/
def asNumber : Value → ℚ
  | some (.number n) => Binary64.double (quotient n)
  | _ => 0

def seq (message : Value) : ℚ := asNumber (property message (codes "seq"))
def capturedAtMs (message : Value) : ℚ := asNumber (property message (codes "capturedAtMs"))

def notASnapshot (n : Nat) : String := "第 " ++ toString n ++ " 个快照不是有效的 v1 JSON"
def notAscending : String := "快照序号必须严格递增"
def tooManyFrames (maximumFrames : Nat) : String :=
  "录制文件超过 " ++ toString maximumFrames ++ " 帧上限"
def noFrames : String := "录制文件中没有有效快照"

/-- The loop over the lines. -/
def parseLines (maximumFrames : Nat) :
    List Text → List Value → ℚ → Except String (List Value)
  | [], frames, _ => if frames = [] then .error noFrames else .ok frames
  | line :: rest, frames, previousSequence =>
    if isVisible line = false then parseLines maximumFrames rest frames previousSequence
    else
      match parseServerMessage line with
      | some (.snapshot message) =>
        if seq message ≤ previousSequence then .error notAscending
        else
          let frames := frames ++ [message]
          if maximumFrames < frames.length then .error (tooManyFrames maximumFrames)
          else parseLines maximumFrames rest frames (seq message)
      | _ => .error (notASnapshot (frames.length + 1))

def parseSnapshotRecording (text : Text) (maximumFrames : Nat) : Except String (List Value) :=
  parseLines maximumFrames (splitLines text) [] (-1)

/- The difference of two doubles is rounded, and past the largest one it is infinite. -/
def replayDelayMs (current next : Value) : ℚ :=
  let recordedDelay := capturedAtMs next - capturedAtMs current
  if |recordedDelay| < 2 ^ 1024 - 2 ^ 970 then min 1000 (max 10 (Binary64.double recordedDelay))
  else 50

/-- The lines of a recording that say anything. -/
def recorded (text : Text) : List Text := (splitLines text).filter isVisible

/-- Lines that are snapshots, in ascending order and not too many. -/
structure Good (maximumFrames : Nat) (lines : List Text) (frames : List Value) : Prop where
  snapshots : lines.map parseServerMessage = frames.map fun message => some (.snapshot message)
  ascending : (-1 :: frames.map seq).IsChain (· < ·)
  few : frames.length ≤ maximumFrames

def lastSequence (frames : List Value) : ℚ := ((frames.getLast?).map seq).getD (-1)

/-- Why a line is refused after some good ones. -/
inductive Refused (maximumFrames : Nat) (frames : List Value) (line : Text) : String → Prop
  | kind (other : ∀ message, parseServerMessage line ≠ some (.snapshot message)) :
      Refused maximumFrames frames line (notASnapshot (frames.length + 1))
  | order (message : Value) (snapshot : parseServerMessage line = some (.snapshot message))
      (back : seq message ≤ lastSequence frames) :
      Refused maximumFrames frames line notAscending
  | number (message : Value) (snapshot : parseServerMessage line = some (.snapshot message))
      (forward : lastSequence frames < seq message) (full : maximumFrames ≤ frames.length) :
      Refused maximumFrames frames line (tooManyFrames maximumFrames)

/-- What becomes of a recording with these lines. -/
def Outcome (maximumFrames : Nat) (lines : List Text) : Except String (List Value) → Prop
  | .ok frames => Good maximumFrames lines frames ∧ frames ≠ []
  | .error what => (lines = [] ∧ what = noFrames) ∨
      ∃ before line after frames, lines = before ++ line :: after ∧
        Good maximumFrames before frames ∧ Refused maximumFrames frames line what

theorem good_nil (maximumFrames : Nat) : Good maximumFrames [] [] :=
  ⟨rfl, List.isChain_singleton _, Nat.zero_le _⟩

theorem lastSequence_append (frames : List Value) (message : Value) :
    lastSequence (frames ++ [message]) = seq message := by
  simp [lastSequence]

theorem chain_append {frames : List Value} {message : Value} :
    (-1 :: (frames ++ [message]).map seq).IsChain (· < ·) ↔
      (-1 :: frames.map seq).IsChain (· < ·) ∧ lastSequence frames < seq message := by
  have last : (-1 :: frames.map seq).getLast? = some (lastSequence frames) := by
    rw [lastSequence, List.getLast?_cons, List.getLast?_map]
  rw [List.map_append, List.map_singleton, ← List.cons_append, List.isChain_append, last]
  simp

theorem good_append {maximumFrames : Nat} {lines : List Text} {line : Text} {frames : List Value}
    {message : Value} (good : Good maximumFrames lines frames)
    (snapshot : parseServerMessage line = some (.snapshot message))
    (forward : lastSequence frames < seq message) (few : frames.length < maximumFrames) :
    Good maximumFrames (lines ++ [line]) (frames ++ [message]) where
  snapshots := by
    rw [List.map_append, List.map_append, good.snapshots, List.map_singleton, List.map_singleton,
      snapshot]
  ascending := chain_append.mpr ⟨good.ascending, forward⟩
  few := by
    rw [List.length_append, List.length_singleton]
    exact few

theorem parseLines_visible (maximumFrames : Nat) (lines : List Text) (frames : List Value)
    (previous : ℚ) : parseLines maximumFrames lines frames previous =
      parseLines maximumFrames (lines.filter isVisible) frames previous := by
  induction lines generalizing frames previous with
  | nil => rfl
  | cons line rest ih =>
    cases visible : isVisible line with
    | false =>
      rw [List.filter_cons_of_neg (by simp [visible]), parseLines, if_pos visible]
      exact ih frames previous
    | true =>
      rw [List.filter_cons_of_pos visible, parseLines, parseLines]
      simp only [visible, Bool.true_eq_false, if_false]
      split
      · split
        · rfl
        · split
          · rfl
          · exact ih _ _
      · rfl

/-- The loop on what is left, after the good lines before. -/
theorem parseLines_outcome {maximumFrames : Nat} {before rest : List Text} {frames : List Value}
    (visible : ∀ line ∈ rest, isVisible line = true) (good : Good maximumFrames before frames) :
    Outcome maximumFrames (before ++ rest)
      (parseLines maximumFrames rest frames (lastSequence frames)) := by
  induction rest generalizing before frames with
  | nil =>
    rw [List.append_nil, parseLines]
    split
    · next none_ =>
      subst none_
      have nothing : before = [] := by
        have same := good.snapshots
        rw [List.map_nil, List.map_eq_nil_iff] at same
        exact same
      exact Or.inl ⟨nothing, rfl⟩
    · next some_ => exact ⟨good, some_⟩
  | cons line rest ih =>
    have here := visible line List.mem_cons_self
    rw [parseLines]
    simp only [here, Bool.true_eq_false, if_false]
    split
    · next message snapshot =>
      split
      · next back => exact Or.inr ⟨before, line, rest, frames, rfl, good, .order message snapshot back⟩
      · next forward =>
        have forward := not_le.mp forward
        split
        · next many =>
          rw [List.length_append, List.length_singleton] at many
          exact Or.inr ⟨before, line, rest, frames, rfl, good,
            .number message snapshot forward (Nat.lt_succ_iff.mp many)⟩
        · next few =>
          rw [List.length_append, List.length_singleton] at few
          have further := good_append good snapshot forward (by omega)
          have later := ih (fun line member => visible line (List.mem_cons_of_mem _ member)) further
          rw [lastSequence_append, List.append_assoc, List.singleton_append] at later
          exact later
    · next other =>
      exact Or.inr ⟨before, line, rest, frames, rfl, good, .kind other⟩

theorem good_last {maximumFrames : Nat} {lines : List Text} {line : Text} {frames : List Value}
    (good : Good maximumFrames (lines ++ [line]) frames) :
    ∃ before message, frames = before ++ [message] ∧ Good maximumFrames lines before ∧
      parseServerMessage line = some (.snapshot message) ∧ lastSequence before < seq message ∧
      before.length < maximumFrames := by
  have same := good.snapshots
  rw [List.map_append, List.map_singleton] at same
  obtain ⟨before, last, split_, left, right⟩ := List.map_eq_append_iff.mp same.symm
  obtain ⟨message, single, snapshot⟩ := List.map_eq_singleton_iff.mp right
  subst single
  have ascending := good.ascending
  have few := good.few
  rw [split_] at ascending few
  obtain ⟨earlier, forward⟩ := chain_append.mp ascending
  rw [List.length_append, List.length_singleton] at few
  exact ⟨before, message, split_, ⟨left.symm, earlier, by omega⟩, snapshot.symm, forward, few⟩

theorem parseLines_snapshot {maximumFrames : Nat} {line : Text} {rest : List Text}
    {frames : List Value} {message : Value} (visible : isVisible line = true)
    (snapshot : parseServerMessage line = some (.snapshot message))
    (forward : lastSequence frames < seq message) (few : frames.length < maximumFrames) :
    parseLines maximumFrames (line :: rest) frames (lastSequence frames) =
      parseLines maximumFrames rest (frames ++ [message]) (lastSequence (frames ++ [message])) := by
  have room : ¬ maximumFrames < (frames ++ [message]).length := by
    rw [List.length_append, List.length_singleton]
    omega
  rw [parseLines, lastSequence_append]
  simp only [visible, Bool.true_eq_false, if_false, snapshot, if_neg (not_le.mpr forward), if_neg room]

theorem parseLines_good {maximumFrames : Nat} {before rest : List Text} {frames : List Value}
    (visible : ∀ line ∈ before, isVisible line = true) (good : Good maximumFrames before frames) :
    parseLines maximumFrames (before ++ rest) [] (-1) =
      parseLines maximumFrames rest frames (lastSequence frames) := by
  induction before using List.reverseRecOn generalizing frames rest with
  | nil =>
    have nothing := good.snapshots.symm
    rw [List.map_nil, List.map_eq_nil_iff] at nothing
    rw [nothing]
    rfl
  | append_singleton before line ih =>
    obtain ⟨earlier, message, rfl, first, snapshot, forward, few⟩ := good_last good
    have here : isVisible line = true := visible line (by simp)
    rw [List.append_assoc, List.singleton_append]
    rw [ih (fun line member => visible line (List.mem_append_left _ member)) first]
    exact parseLines_snapshot here snapshot forward few

theorem parseLines_refused {maximumFrames : Nat} {line : Text} {after : List Text}
    {frames : List Value} {what : String} (visible : isVisible line = true)
    (refused : Refused maximumFrames frames line what) :
    parseLines maximumFrames (line :: after) frames (lastSequence frames) = .error what := by
  rw [parseLines]
  simp only [visible, Bool.true_eq_false, if_false]
  cases refused with
  | kind other =>
    split
    · next message snapshot => exact absurd snapshot (other message)
    · rfl
  | order message snapshot back => simp only [snapshot, if_pos back]
  | number message snapshot forward full =>
    have many : maximumFrames < (frames ++ [message]).length := by
      rw [List.length_append, List.length_singleton]
      omega
    simp only [snapshot, if_neg (not_le.mpr forward), if_pos many]

theorem recorded_visible (text : Text) : ∀ line ∈ recorded text, isVisible line = true :=
  fun _ member => (List.mem_filter.mp member).2

theorem recording_outcome (text : Text) (maximumFrames : Nat) :
    Outcome maximumFrames (recorded text) (parseSnapshotRecording text maximumFrames) := by
  rw [parseSnapshotRecording, parseLines_visible]
  exact parseLines_outcome (recorded_visible text) (good_nil maximumFrames)

theorem parse_of_outcome {text : Text} {maximumFrames : Nat} {result : Except String (List Value)}
    (outcome : Outcome maximumFrames (recorded text) result) :
    parseSnapshotRecording text maximumFrames = result := by
  have visible := recorded_visible text
  have reads : parseSnapshotRecording text maximumFrames =
      parseLines maximumFrames (recorded text) [] (-1) := parseLines_visible maximumFrames _ _ _
  rw [reads]
  cases result with
  | ok frames =>
    obtain ⟨good, some_⟩ := outcome
    have all := @parseLines_good maximumFrames _ [] frames visible good
    rw [List.append_nil] at all
    rw [all, parseLines, if_neg some_]
  | error what =>
    rcases outcome with ⟨nothing, rfl⟩ | ⟨before, line, after, frames, split_, good, refused⟩
    · rw [nothing]
      rfl
    · rw [split_] at visible ⊢
      rw [parseLines_good (fun line member => visible line (by simp [member])) good]
      exact parseLines_refused (visible line (by simp)) refused

/-- A recording is read to the end if its lines are snapshots in ascending order and not too many,
    and refused for the first line that is not as it should be. -/
theorem recording_exact (text : Text) (maximumFrames : Nat) (result : Except String (List Value)) :
    parseSnapshotRecording text maximumFrames = result ↔
      Outcome maximumFrames (recorded text) result := by
  constructor
  · intro same
    subst same
    exact recording_outcome text maximumFrames
  · intro outcome
    exact parse_of_outcome outcome

section Writing

/-- One text a line, ended as Windows ends it or not. -/
def record (lines : List (Text × Bool)) : Text :=
  lines.flatMap fun line => line.1 ++ if line.2 then ['\r', '\n'] else ['\n']

def OneLine (text : Text) : Prop := '\n' ∉ text ∧ '\r' ∉ text

instance (text : Text) : Decidable (OneLine text) := inferInstanceAs (Decidable (_ ∧ _))

theorem splitLines_cons {c : Char} {rest : Text} (feed : c ≠ '\n') (back : c ≠ '\r') :
    splitLines (c :: rest) =
      match splitLines rest with
      | line :: lines => (c :: line) :: lines
      | [] => [[c]] := by
  rw [splitLines]
  · intro tail same
    exact absurd same back
  · intro same
    exact absurd same feed

theorem splitLines_line {text : Text} (plain : OneLine text) {first : Text} {more : List Text}
    {rest : Text} (split_ : splitLines rest = first :: more) :
    splitLines (text ++ rest) = (text ++ first) :: more := by
  induction text with
  | nil => exact split_
  | cons c text ih =>
    obtain ⟨feed, back⟩ := plain
    rw [List.mem_cons, not_or] at feed back
    rw [List.cons_append, splitLines_cons (Ne.symm feed.1) (Ne.symm back.1), ih ⟨feed.2, back.2⟩]
    rfl

theorem splitLines_record {lines : List (Text × Bool)} (plain : ∀ line ∈ lines, OneLine line.1) :
    splitLines (record lines) = lines.map Prod.fst ++ [[]] := by
  induction lines with
  | nil => rfl
  | cons line lines ih =>
    have rest := ih fun line member => plain line (List.mem_cons_of_mem _ member)
    obtain ⟨text, windows⟩ := line
    have here : OneLine text := plain _ List.mem_cons_self
    have ended : splitLines ((if windows then ['\r', '\n'] else ['\n']) ++ record lines) =
        [] :: (lines.map Prod.fst ++ [[]]) := by
      cases windows with
      | false =>
        simp only [Bool.false_eq_true, if_false, List.singleton_append]
        rw [splitLines, rest]
      | true =>
        simp only [if_true, List.cons_append, List.nil_append]
        rw [splitLines, rest]
    have whole : record ((text, windows) :: lines) =
        text ++ ((if windows then ['\r', '\n'] else ['\n']) ++ record lines) := by
      rw [record, List.flatMap_cons, List.append_assoc]
      rfl
    rw [whole, splitLines_line here ended, List.append_nil]
    rfl

/-- A snapshot's text is not blank. -/
theorem snapshot_visible {text : Text} {message : Value}
    (snapshot : parseServerMessage text = some (.snapshot message)) : isVisible text = true := by
  obtain ⟨same, isObject, -⟩ := parseServerMessage_snapshot snapshot
  have brace : '\x7b' ∈ text := by
    unfold jsonParse at same
    split at same
    · next value rest scanned =>
      split at same
      · subst same
        obtain ⟨raw, start, spells, -⟩ := scan_value_reads _ _ _ _ scanned
        cases value with
        | object members =>
          obtain ⟨inside, rfl⟩ := spells
          have first : '\x7b' ∈ skip text := by
            rw [start]
            simp
          exact (skip_suffix text).subset first
        | _ => cases isObject
      · subst same
        cases isObject
    · subst same
      cases isObject
  rw [isVisible, Bool.not_eq_true', List.all_eq_false]
  exact ⟨_, brace, by decide⟩

theorem recorded_record {lines : List (Text × Bool)} (plain : ∀ line ∈ lines, OneLine line.1)
    {frames : List Value}
    (snapshots : (lines.map Prod.fst).map parseServerMessage =
      frames.map fun message => some (.snapshot message)) :
    recorded (record lines) = lines.map Prod.fst := by
  have visible : ∀ text ∈ lines.map Prod.fst, isVisible text = true := by
    intro text member
    have listed : parseServerMessage text ∈ (lines.map Prod.fst).map parseServerMessage :=
      List.mem_map_of_mem member
    rw [snapshots] at listed
    obtain ⟨message, -, same⟩ := List.mem_map.mp listed
    exact snapshot_visible same.symm
  have blank : isVisible [] = false := rfl
  rw [recorded, splitLines_record plain, List.filter_append, List.filter_eq_self.mpr visible,
    List.filter_cons_of_neg (by simp [blank]), List.filter_nil, List.append_nil]

end Writing

structure State where
  frames : List Value
  fileName : Option Text
  index : Nat
  playing : Bool
  error : Option String
  timer : Option ℚ
  loads : Table Nat Text
  nextLoad : Nat

/- `frames[index]`. -/
def State.frameAt (s : State) (index : Nat) : Value := s.frames[index]?.join

/- The effect on `frames`, `index` and `playing`, after the cleanup of its last run. Where none of
   them has changed it is not run, and the timer is the one that it would set. -/
def State.effect (s : State) : State :=
  if s.playing = false ∨ s.frames.length ≤ 1 then { s with timer := none }
  else if s.frames.length - 1 ≤ s.index then { s with playing := false, timer := none }
  else
    { s with timer := some (replayDelayMs (s.frameAt s.index) (s.frameAt (s.index + 1))) }

def State.load (s : State) (name : Text) (size : Nat) : State :=
  let s := { s with playing := false, error := none }
  if maxRecordingBytes < size then
    { s with error := some "录制文件超过 256 MB 安全上限" }.effect
  else { s with loads := s.loads.insert s.nextLoad name, nextLoad := s.nextLoad + 1 }.effect

def State.unload (s : State) (what : String) : State :=
  { s with frames := [], fileName := none, error := some what }.effect

/- The rest of `load` once the file is read. A failure has a message if it is an `Error`. -/
def State.onText (s : State) (name : Text) : Except (Option String) Text → State
  | .ok text =>
    match parseSnapshotRecording text maxRecordingFrames with
    | .ok parsed => { s with frames := parsed, fileName := some name, index := 0 }.effect
    | .error what => s.unload what
  | .error reason => s.unload (reason.getD "无法读取录制文件")

def State.stop (s : State) : State :=
  { s with frames := [], fileName := none, index := 0, playing := false, error := none }.effect

def trunc (x : ℚ) : Int := if x < 0 then ⌈x⌉ else ⌊x⌋

def State.seek (s : State) (next : ℚ) : State :=
  { s with index := (max 0 (min ((s.frames.length : Int) - 1) (trunc next))).toNat }.effect

def State.togglePlaying (s : State) : State :=
  if s.frames.length ≤ 1 then s else { s with playing := !s.playing }.effect

def State.onTimer (s : State) : State :=
  { s with timer := none, index := min (s.index + 1) (s.frames.length - 1) }.effect

inductive Event
  | load (name : Text) (size : Nat)
  | text (id : Nat) (result : Except (Option String) Text)
  | stop
  | seek (next : ℚ)
  | togglePlaying
  | timer

def step (s : State) : Event → Option State
  | .load name size => some (s.load name size)
  | .text id result =>
    (s.loads.lookup id).map fun name => { s with loads := s.loads.erase id }.onText name result
  | .stop => some s.stop
  | .seek next => some (s.seek next)
  | .togglePlaying => some s.togglePlaying
  | .timer => s.timer.map fun _ => s.onTimer

def firstRender : State := ⟨[], none, 0, false, none, none, empty, 0⟩

def replay : Machine State Event where
  init s := s = firstRender
  step := step

def State.active (s : State) : Bool := decide (0 < s.frames.length)
def State.frame (s : State) : Option Value := s.frames[s.index]?
def State.current (s : State) : Nat := if 0 < s.frames.length then s.index + 1 else 0
def State.total (s : State) : Nat := s.frames.length

/-- What holds before the effect runs and after. -/
structure Sound (s : State) : Prop where
  loaded : s.frames ≠ [] → ∃ text, parseSnapshotRecording text maxRecordingFrames = .ok s.frames
  inRange : s.frames ≠ [] → s.index < s.frames.length
  named : s.fileName.isSome = true ↔ s.frames ≠ []

/-- A next frame is to come. -/
def State.goesOn (s : State) : Prop := s.playing = true ∧ s.index + 1 < s.frames.length

structure Settled (s : State) : Prop extends Sound s where
  stops : s.playing = true → s.frames.length ≤ 1 ∨ s.index + 1 < s.frames.length
  waiting : s.goesOn →
    s.timer = some (replayDelayMs (s.frameAt s.index) (s.frameAt (s.index + 1)))
  idle : ¬ s.goesOn → s.timer = none

theorem effect_settled {s : State} (sound : Sound s) : Settled s.effect := by
  unfold State.effect
  split
  · next rests =>
    have stays : ¬ s.goesOn := by
      intro goes
      obtain ⟨playing, next⟩ := goes
      rcases rests with paused | short
      · rw [paused] at playing
        cases playing
      · omega
    refine ⟨⟨sound.loaded, sound.inRange, sound.named⟩, ?_, fun goes => absurd goes stays, fun _ => rfl⟩
    intro playing
    rcases rests with paused | short
    · rw [paused] at playing
      cases playing
    · exact Or.inl short
  · next several =>
    split
    · next last =>
      have paused : ¬ ({ s with playing := false, timer := none } : State).goesOn :=
        fun goes => Bool.false_ne_true goes.1
      exact ⟨⟨sound.loaded, sound.inRange, sound.named⟩, fun playing => (by cases playing),
        fun goes => absurd goes paused, fun _ => rfl⟩
    · next more =>
      obtain ⟨playing, long⟩ := not_or.mp several
      have playing : s.playing = true := by simpa using playing
      have next : s.index + 1 < s.frames.length := by omega
      refine ⟨⟨sound.loaded, sound.inRange, sound.named⟩, fun _ => Or.inr next, fun _ => rfl, ?_⟩
      intro rests
      exact absurd ⟨playing, next⟩ rests

theorem settled_unload (s : State) (what : String) : Settled (s.unload what) := by
  apply effect_settled
  exact ⟨fun some_ => absurd rfl some_, fun some_ => absurd rfl some_, by simp⟩

theorem settled_step {s t : State} {e : Event} (h : Settled s) (taken : step s e = some t) :
    Settled t := by
  cases e with
  | load name size =>
    cases taken
    unfold State.load
    split
    · apply effect_settled
      exact ⟨h.loaded, h.inRange, h.named⟩
    · apply effect_settled
      exact ⟨h.loaded, h.inRange, h.named⟩
  | text id result =>
    obtain ⟨name, -, rfl⟩ := Option.map_eq_some_iff.mp taken
    unfold State.onText
    split
    · next text =>
      split
      · next parsed read =>
        have outcome := recording_outcome text maxRecordingFrames
        rw [read] at outcome
        have some_ : parsed ≠ [] := outcome.2
        apply effect_settled
        exact ⟨fun _ => ⟨text, read⟩, fun _ => List.length_pos_iff.mpr some_, by simp [some_]⟩
      · exact settled_unload _ _
    · exact settled_unload _ _
  | stop =>
    cases taken
    apply effect_settled
    exact ⟨fun some_ => absurd rfl some_, fun some_ => absurd rfl some_, by simp⟩
  | seek next =>
    cases taken
    apply effect_settled
    refine ⟨h.loaded, fun some_ => ?_, h.named⟩
    have long : 0 < s.frames.length := List.length_pos_iff.mpr some_
    simp only
    omega
  | togglePlaying =>
    cases taken
    unfold State.togglePlaying
    split
    · exact h
    · apply effect_settled
      exact ⟨h.loaded, h.inRange, h.named⟩
  | timer =>
    obtain ⟨delay, -, rfl⟩ := Option.map_eq_some_iff.mp taken
    apply effect_settled
    refine ⟨h.loaded, fun some_ => ?_, h.named⟩
    have long : 0 < s.frames.length := List.length_pos_iff.mpr some_
    simp only
    omega

theorem settled_invariant {s : State} (reach : replay.Reachable s) : Settled s := by
  have invariant : Invariant replay Settled := by
    constructor
    · intro s begun
      subst begun
      exact ⟨⟨fun some_ => absurd rfl some_, fun some_ => absurd rfl some_, by simp [firstRender]⟩,
        fun playing => (by cases playing), fun goes => absurd goes.1 Bool.false_ne_true, fun _ => rfl⟩
    · intro s e t settled taken
      exact settled_step settled taken
  exact reachable_invariant replay invariant reach

theorem effect_paused {s : State} (paused : s.playing = false) : s.effect = { s with timer := none } :=
  if_pos (Or.inl paused)

theorem effect_frames (s : State) : s.effect.frames = s.frames ∧ s.effect.index = s.index ∧
    s.effect.fileName = s.fileName := by
  unfold State.effect
  split
  · exact ⟨rfl, rfl, rfl⟩
  · split
    · exact ⟨rfl, rfl, rfl⟩
    · exact ⟨rfl, rfl, rfl⟩

/-- An effect lets the playback go on if there is a next frame. -/
theorem effect_goesOn {s : State} (long : 1 < s.frames.length) :
    s.effect.goesOn ↔ s.goesOn := by
  obtain ⟨frames, index, -⟩ := effect_frames s
  unfold State.goesOn
  rw [frames, index]
  constructor
  · intro goes
    refine ⟨?_, goes.2⟩
    have playing := goes.1
    unfold State.effect at playing
    split at playing
    · exact playing
    · split at playing
      · cases playing
      · exact playing
  · intro goes
    refine ⟨?_, goes.2⟩
    have several : ¬ (s.playing = false ∨ s.frames.length ≤ 1) := by
      rw [goes.1]
      intro rests
      rcases rests with paused | short
      · cases paused
      · omega
    have more : ¬ s.frames.length - 1 ≤ s.index := by
      have next := goes.2
      omega
    rw [State.effect, if_neg several, if_neg more]
    exact goes.1

/-- A playing state after some ticks of its timer. -/
structure Ticked (s : State) (k : Nat) (t : State) : Prop where
  frames : t.frames = s.frames
  fileName : t.fileName = s.fileName
  index : t.index = s.index + k
  goesOn : t.goesOn ↔ t.index + 1 < s.frames.length
  stops : t.playing = true → t.goesOn

theorem ticked_timer {s t : State} {k : Nat} (settled : Settled t) (h : Ticked s k t)
    (next : s.index + (k + 1) < s.frames.length) :
    ∃ u, step t .timer = some u ∧ Ticked s (k + 1) u := by
  have here : t.index + 1 < s.frames.length := by
    rw [h.index]
    omega
  have goes := h.goesOn.mpr here
  have pending := settled.waiting goes
  obtain ⟨u, made⟩ : ∃ u, u = { t with
      timer := none, index := min (t.index + 1) (t.frames.length - 1) } := ⟨_, rfl⟩
  have after : t.onTimer = u.effect := by
    rw [made]
    rfl
  have place : u.index = s.index + (k + 1) := by
    rw [made]
    simp only [h.frames, h.index]
    omega
  have kept : u.frames = s.frames := by
    rw [made]
    exact h.frames
  have file : u.fileName = s.fileName := by
    rw [made]
    exact h.fileName
  have playing : u.playing = true := by
    rw [made]
    exact goes.1
  obtain ⟨frames, index, fileName⟩ := effect_frames u
  have long : 1 < u.frames.length := by
    rw [kept]
    omega
  have taken : step t .timer = some u.effect := by
    rw [step, pending, ← after]
    rfl
  refine ⟨u.effect, taken, frames.trans kept, fileName.trans file, index.trans place, ?_, ?_⟩
  · rw [effect_goesOn long, State.goesOn, index, kept]
    exact and_iff_right playing
  · intro plays
    rcases (settled_step settled taken).stops plays with short | further
    · rw [frames] at short
      omega
    · exact ⟨plays, further⟩

/-- The timers of a playback, one after the other. -/
theorem ticked_run {s : State} (reach : replay.Reachable s)
    (goes : s.goesOn ↔ s.index + 1 < s.frames.length) (stops : s.playing = true → s.goesOn) (k : Nat)
    (inside : s.index + k < s.frames.length) :
    ∃ t, replay.exec s (List.replicate k .timer) = some t ∧ Ticked s k t := by
  induction k with
  | zero => exact ⟨s, rfl, rfl, rfl, rfl, goes, stops⟩
  | succ k ih =>
    obtain ⟨t, run, ticked⟩ := ih (by omega)
    have settled := settled_invariant (reachable_exec replay reach run)
    obtain ⟨u, taken, further⟩ := ticked_timer settled ticked inside
    have last : replay.exec t [.timer] = some u := (exec_cons_iff replay).mpr ⟨u, taken, rfl⟩
    refine ⟨u, ?_, further⟩
    rw [List.replicate_succ']
    exact exec_append replay run last

theorem togglePlaying_paused {s : State} (paused : s.playing = false) :
    s.togglePlaying.frames = s.frames ∧ s.togglePlaying.index = s.index ∧
      s.togglePlaying.fileName = s.fileName ∧
      (s.togglePlaying.goesOn ↔ s.index + 1 < s.frames.length) ∧
      (s.togglePlaying.playing = true → s.togglePlaying.goesOn) := by
  unfold State.togglePlaying
  split
  · next short =>
    have last : ¬ s.index + 1 < s.frames.length := by omega
    refine ⟨rfl, rfl, rfl, iff_of_false (fun goes => last goes.2) last, ?_⟩
    intro playing
    rw [paused] at playing
    cases playing
  · next long =>
    obtain ⟨u, made⟩ : ∃ u, u = { s with playing := !s.playing } := ⟨_, rfl⟩
    rw [← made]
    obtain ⟨frames, index, fileName⟩ := effect_frames u
    have playing : u.playing = true := by
      rw [made]
      simp [paused]
    have kept : u.frames = s.frames ∧ u.index = s.index ∧ u.fileName = s.fileName := by
      rw [made]
      exact ⟨rfl, rfl, rfl⟩
    have several : 1 < u.frames.length := by
      rw [kept.1]
      exact Nat.not_le.mp long
    refine ⟨frames.trans kept.1, index.trans kept.2.1, fileName.trans kept.2.2, ?_, ?_⟩
    · rw [effect_goesOn several, State.goesOn, kept.1, kept.2.1]
      exact and_iff_right playing
    · rw [effect_goesOn several]
      intro plays
      refine ⟨playing, ?_⟩
      unfold State.effect at plays
      split at plays
      · next rests =>
        rcases rests with paused | short
        · rw [playing] at paused
          cases paused
        · omega
      · split at plays
        · cases plays
        · next more => omega

/-- The recording of a file that is small enough, once it has been read. -/
theorem load_text (s : State) {name text : Text} {size : Nat} {messages : List Value}
    (small : size ≤ maxRecordingBytes)
    (read : parseSnapshotRecording text maxRecordingFrames = .ok messages) :
    ∃ loaded, replay.exec s [.load name size, .text s.nextLoad (.ok text)] = some loaded ∧
      loaded.frames = messages ∧ loaded.fileName = some name ∧ loaded.index = 0 ∧
      loaded.playing = false := by
  have first : s.load name size = ({ s with
      playing := false, error := none, timer := none
      loads := s.loads.insert s.nextLoad name, nextLoad := s.nextLoad + 1 } : State) := by
    rw [State.load]
    simp only [if_neg (Nat.not_lt.mpr small)]
    exact effect_paused rfl
  obtain ⟨u, made⟩ : ∃ u : State, u = { s.load name size with
      loads := (s.load name size).loads.erase s.nextLoad
      frames := messages, fileName := some name, index := 0 } := ⟨_, rfl⟩
  have paused : u.playing = false := by rw [made, first]
  have second : step (s.load name size) (.text s.nextLoad (.ok text)) = some u.effect := by
    rw [made, first, step]
    simp only [lookup_insert_self, Option.map_some, State.onText, read]
  refine ⟨u.effect, ?_, ?_⟩
  · exact (exec_cons_iff replay).mpr ⟨_, rfl, (exec_cons_iff replay).mpr ⟨_, second, rfl⟩⟩
  · rw [effect_paused paused, made]
    exact ⟨rfl, rfl, rfl, by rw [first]⟩

/-- What was written down line by line, in ascending order, is what is played back after it has
    been loaded, whatever was loaded before. -/
theorem recording_replayed {s : State} (reach : replay.Reachable s) {lines : List (Text × Bool)}
    {messages : List Value} {name : Text} {size : Nat}
    (plain : ∀ line ∈ lines, OneLine line.1) (small : size ≤ maxRecordingBytes)
    (good : Good maxRecordingFrames (lines.map Prod.fst) messages) {k : Nat}
    (inside : k < messages.length) :
    ∃ t, replay.exec s ([.load name size, .text s.nextLoad (.ok (record lines)), .togglePlaying] ++
        List.replicate k .timer) = some t ∧
      t.frame = messages[k]? ∧ t.total = messages.length ∧ t.fileName = some name ∧
      (t.playing = true ↔ k + 1 < messages.length) := by
  have read : parseSnapshotRecording (record lines) maxRecordingFrames = .ok messages := by
    apply parse_of_outcome
    rw [recorded_record plain good.snapshots]
    exact ⟨good, List.ne_nil_of_length_pos (by omega)⟩
  obtain ⟨loaded, run, rfl, fileName, start, paused⟩ :=
    @load_text s name (record lines) size messages small read
  obtain ⟨frames, index, file, goes, stops⟩ := togglePlaying_paused paused
  have last : replay.exec loaded [.togglePlaying] = some loaded.togglePlaying := rfl
  have reached := reachable_exec replay (reachable_exec replay reach run) last
  have place : loaded.togglePlaying.index = 0 := index.trans start
  have begins : loaded.togglePlaying.goesOn ↔
      loaded.togglePlaying.index + 1 < loaded.togglePlaying.frames.length := by
    rw [goes, frames, index]
  obtain ⟨t, ticks, ticked⟩ := ticked_run reached begins stops k (by rw [place, frames]; omega)
  have here : t.index = k := by rw [ticked.index, place, Nat.zero_add]
  have all : t.frames = loaded.frames := ticked.frames.trans frames
  refine ⟨t, ?_, ?_, ?_, ticked.fileName.trans (file.trans fileName), ?_⟩
  · exact exec_append replay (exec_append replay run last) ticks
  · rw [State.frame, all, here]
  · rw [State.total, all]
  · have onward := ticked.goesOn
    rw [here, frames] at onward
    rw [← onward]
    exact ⟨ticked.stops, fun goes => goes.1⟩

def sampleLine (number : String) : Text :=
  ("\x7b\"v\":1,\"type\":\"snapshot\",\"seq\":" ++ number ++ ",\"capturedAtMs\":9," ++
    "\"map\":\x7b\"id\":\"de_nuke\"\x7d,\"players\":[],\"bomb\":\x7b\"state\":\"unknown\"\x7d\x7d").toList

/-- The checks of a snapshot, each type tried once. -/
def isSnapshotMessage (value : Value) : Bool :=
  let type := property value (codes "type")
  isRecord value && isOne (property value (codes "v")) && isString type &&
    !isOneOf ["hello"] type && !isOneOf ["error"] type && isOneOf ["snapshot"] type &&
    isSnapshot value

theorem snapshot_of_checks {text : Text} (checks : isSnapshotMessage (jsonParse text) = true) :
    parseServerMessage text = some (.snapshot (jsonParse text)) := by
  simp only [isSnapshotMessage, Bool.and_eq_true, Bool.not_eq_true'] at checks
  obtain ⟨⟨⟨⟨⟨⟨record, version⟩, type⟩, hello⟩, error⟩, snapshot⟩, rest⟩ := checks
  simp [parseServerMessage, record, version, type, hello, error, snapshot, rest]

def sampleLines : List (Text × Bool) := [(sampleLine "1", true), (sampleLine "2", false)]

theorem samples_plain : ∀ line ∈ sampleLines, OneLine line.1 := by decide +kernel

theorem samples_good : Good maxRecordingFrames (sampleLines.map Prod.fst)
    [jsonParse (sampleLine "1"), jsonParse (sampleLine "2")] where
  snapshots := by
    have first := @snapshot_of_checks (sampleLine "1") (by decide +kernel)
    have second := @snapshot_of_checks (sampleLine "2") (by decide +kernel)
    simp [sampleLines, first, second]
  ascending := by decide +kernel
  few := by decide

theorem recording_replayed_sample :
    ∃ t, replay.exec firstRender ([.load [] 1, .text 0 (.ok (record sampleLines)), .togglePlaying] ++
        List.replicate 1 .timer) = some t ∧
      t.frame = [jsonParse (sampleLine "1"), jsonParse (sampleLine "2")][1]? ∧ t.total = 2 ∧
      t.fileName = some [] ∧ (t.playing = true ↔ 1 + 1 < 2) :=
  @recording_replayed firstRender (reachable_start replay rfl) sampleLines _ [] 1
    samples_plain (by decide) samples_good 1 (by decide)

/-- What a page sees of the hook, whatever was loaded, sought, played and stopped before. -/
structure Playback (s : State) : Prop where
  shown : s.active = true ↔ ∃ message, s.frame = some message
  counted : s.active = true → 1 ≤ s.current ∧ s.current ≤ s.total
  recording : s.active = true → s.fileName.isSome = true ∧ s.total ≤ maxRecordingFrames ∧
    (-1 :: s.frames.map seq).IsChain (· < ·)
  paced : ∀ delay, s.timer = some delay → s.playing = true ∧ 10 ≤ delay ∧ delay ≤ 1000
  runs : s.timer.isSome = true → ∀ k, s.index + k < s.total →
    ∃ t, replay.exec s (List.replicate k .timer) = some t ∧ t.frames = s.frames ∧
      t.frame = s.frames[s.index + k]? ∧
      (t.timer.isSome = true ↔ s.index + k + 1 < s.total) ∧
      (t.playing = true ↔ s.index + k + 1 < s.total)

theorem replayDelayMs_bounds (current next : Value) :
    10 ≤ replayDelayMs current next ∧ replayDelayMs current next ≤ 1000 := by
  unfold replayDelayMs
  simp only
  split
  · exact ⟨le_min (by norm_num) (le_max_left _ _), min_le_left _ _⟩
  · norm_num

theorem timer_iff {s : State} (settled : Settled s) : s.timer.isSome = true ↔ s.goesOn := by
  by_cases goes : s.goesOn
  · rw [settled.waiting goes]
    exact iff_of_true rfl goes
  · rw [settled.idle goes]
    exact iff_of_false Bool.false_ne_true goes

/-- While a recording is loaded one of its frames is shown; a playback shows each frame that
    follows once, in order, and stops at the last one. -/
theorem playback {s : State} (reach : replay.Reachable s) : Playback s := by
  have settled := settled_invariant reach
  have loaded : s.active = true ↔ s.frames ≠ [] := by
    rw [State.active, decide_eq_true_iff, List.length_pos_iff]
  constructor
  case shown =>
    rw [loaded]
    constructor
    · intro some_
      exact ⟨_, List.getElem?_eq_getElem (settled.inRange some_)⟩
    · intro frame nothing
      obtain ⟨message, found⟩ := frame
      rw [State.frame, nothing] at found
      cases found
  case counted =>
    intro active
    have inside := settled.inRange (loaded.mp active)
    have long := of_decide_eq_true active
    rw [State.current, if_pos long, State.total]
    omega
  case recording =>
    intro active
    have some_ := loaded.mp active
    obtain ⟨text, read⟩ := settled.loaded some_
    have outcome := recording_outcome text maxRecordingFrames
    rw [read] at outcome
    obtain ⟨good, -⟩ := outcome
    exact ⟨settled.named.mpr some_, good.few, good.ascending⟩
  case paced =>
    intro delay pending
    have goes := (timer_iff settled).mp (by rw [pending]; rfl)
    have same := (settled.waiting goes).symm.trans pending
    cases same
    exact ⟨goes.1, replayDelayMs_bounds _ _⟩
  case runs =>
    intro pending k inside
    have goes := (timer_iff settled).mp pending
    obtain ⟨t, run, ticked⟩ := ticked_run reach (iff_of_true goes goes.2) (fun _ => goes) k inside
    have later := settled_invariant (reachable_exec replay reach run)
    have onward : t.goesOn ↔ s.index + k + 1 < s.total := by
      rw [ticked.goesOn, ticked.index]
      rfl
    refine ⟨t, run, ticked.frames, ?_, ?_, ?_⟩
    · rw [State.frame, ticked.frames, ticked.index]
    · exact (timer_iff later).trans onward
    · rw [← onward]
      exact ⟨ticked.stops, fun goes => goes.1⟩

theorem playback_sample : ∃ s, Playback s ∧ s.timer.isSome = true ∧ s.total = 2 := by
  have read : parseSnapshotRecording (record sampleLines) maxRecordingFrames =
      .ok [jsonParse (sampleLine "1"), jsonParse (sampleLine "2")] := by
    apply parse_of_outcome
    rw [recorded_record samples_plain samples_good.snapshots]
    exact ⟨samples_good, by simp⟩
  obtain ⟨loaded, run, frames, -, start, paused⟩ :=
    @load_text firstRender [] (record sampleLines) 0 _ (by decide) read
  obtain ⟨frames', -, -, goes, -⟩ := togglePlaying_paused paused
  have last : replay.exec loaded [.togglePlaying] = some loaded.togglePlaying := rfl
  have reach := reachable_exec replay (reachable_exec replay (reachable_start replay rfl) run) last
  have next : loaded.togglePlaying.goesOn := by
    rw [goes, start, frames]
    decide
  refine ⟨_, playback reach, (timer_iff (settled_invariant reach)).mpr next, ?_⟩
  rw [State.total, frames', frames]
  rfl

end SnapshotReplay
