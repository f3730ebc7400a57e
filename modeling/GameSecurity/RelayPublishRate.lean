import Mathlib.Data.List.Induction
import GameSecurity.RelayLimiter
import GameSecurity.RelayProtocol

/- The publish limiter and the loop of handleProducer that asks it. The float64 arithmetic of
   the limiter is taken as exact. -/
namespace RelayPublishRate
open RelayRoom RelayConfig RelayLimiter RelayProtocol TokenBucket

structure FrameLimiter where
  rate : ℚ
  burst : ℚ
  tokens : ℚ
  last : Time

def newFrameLimiter (hz : ℚ) (burst : Int) (now : Time) : FrameLimiter := ⟨hz, burst, burst, now⟩

def FrameLimiter.allow (l : FrameLimiter) (now : Time) : FrameLimiter × Bool :=
  let entry := refill l.rate l.burst ⟨l.tokens, l.last⟩ now
  let l := { l with tokens := entry.tokens, last := entry.last }
  if l.tokens < 1 then (l, false) else ({ l with tokens := l.tokens - 1 }, true)

/-- The limiter accepts a frame at each of the times. -/
def FrameLimiter.acceptsAll (l : FrameLimiter) : List Time → Bool
  | [] => true
  | now :: later => (l.allow now).2 && (l.allow now).1.acceptsAll later

def FrameLimiter.after (l : FrameLimiter) (times : List Time) : FrameLimiter :=
  times.foldl (fun l now => (l.allow now).1) l

inductive Message where
  | failed (readLimit : Bool)
  | text (payload : Bytes)
  | other

/-- What one turn of the loop finds: the message, both clocks after it, and what the room's
   publish returns should it be called. -/
structure Read where
  message : Message
  now : Time
  wall : Time
  publish : Except String Nat

/-- How the loop ends. -/
inductive Exit where
  | readFailed
  | close (code : Nat) (reason : String)
  deriving DecidableEq

def unsupportedData : Nat := 1003
def invalidFramePayloadData : Nat := 1007
def policyViolation : Nat := 1008
def internalServerErr : Nat := 1011

def rateExceeded : Exit := .close policyViolation "publish rate exceeded"

structure Loop where
  limiter : FrameLimiter
  readDeadline : Time
  snapshotsRejected : Nat := 0
  snapshotsPublished : Nat := 0
  snapshotBytes : Nat := 0
  viewerFramesDropped : Nat := 0

def Loop.start (c : Config) (opened now : Time) : Loop where
  limiter := newFrameLimiter c.maxPublishHz c.publishBurst now
  readDeadline := opened + c.producerIdleTimeout

def Loop.reject (st : Loop) (code : Nat) (reason : String) : Loop × Option Exit :=
  ({ st with snapshotsRejected := st.snapshotsRejected + 1 }, some (.close code reason))

def Loop.published (st : Loop) (payload : Bytes) (dropped : Nat) : Loop :=
  { st with
    snapshotsPublished := st.snapshotsPublished + 1
    snapshotBytes := st.snapshotBytes + payload.length
    viewerFramesDropped := st.viewerFramesDropped + dropped }

/-- A frame that the limiter let pass. -/
def Loop.accept (c : Config) (st : Loop) (read : Read) (payload : Bytes) : Loop × Option Exit :=
  match validateSnapshot payload with
  | .error _ => st.reject invalidFramePayloadData "invalid snapshot"
  | .ok capturedAtMs =>
    let capturedAt := capturedAtMs * nanosPerMillisecond
    if capturedAt < read.wall - c.maxSnapshotAge ∨ read.wall + c.maxFutureSkew < capturedAt then
      st.reject policyViolation "snapshot capture time outside allowed window"
    else
      let st := { st with readDeadline := read.now + c.producerIdleTimeout }
      match read.publish with
      | .error _ => st.reject internalServerErr "snapshot preparation failed"
      | .ok dropped => (st.published payload dropped, none)

def Loop.turn (c : Config) (st : Loop) (read : Read) : Loop × Option Exit :=
  match read.message with
  | .failed readLimit =>
    ({ st with snapshotsRejected := st.snapshotsRejected + if readLimit then 1 else 0 },
      some .readFailed)
  | .other => st.reject unsupportedData "text snapshots only"
  | .text payload =>
    let result := st.limiter.allow read.now
    let st := { st with limiter := result.1 }
    if result.2 = false then st.reject policyViolation "publish rate exceeded"
    else st.accept c read payload

/-- The loop over what is read; no exit: it waits for the next message. -/
def Loop.run (c : Config) (st : Loop) : List Read → Loop × Option Exit
  | [] => (st, none)
  | read :: later =>
    match st.turn c read with
    | (st, some exit) => (st, some exit)
    | (st, none) => st.run c later

/-- No two frames enclose more of them than the burst and the rate between them allow. -/
def WithinRate (hz : ℚ) (burst : Int) (times : List Time) : Prop :=
  ∀ i j (_ : i ≤ j) (h : j < times.length),
    ((j - i + 1 : ℕ) : ℚ) ≤ burst + hz * seconds (times[j] - times[i])

/-- A text frame that would be published, were it not for the limiter. -/
def Proper (c : Config) (read : Read) : Prop :=
  ∃ payload capturedAtMs dropped, read.message = .text payload ∧
    validateSnapshot payload = .ok capturedAtMs ∧
    ¬ (capturedAtMs * nanosPerMillisecond < read.wall - c.maxSnapshotAge ∨
      read.wall + c.maxFutureSkew < capturedAtMs * nanosPerMillisecond) ∧
    read.publish = .ok dropped

/-- The bucket after a frame was accepted at each of the times. -/
structure Counted (hz : ℚ) (burst : Int) (start : Time) (times : List Time)
    (l : FrameLimiter) : Prop where
  paced : l.rate = hz
  cap : l.burst = burst
  recent : l.last ∈ start :: times
  bucket : BucketOk l.burst l.last ⟨l.tokens, l.last⟩
  closed : ∀ (now : Time) x, l.last ≤ now →
    (x ≤ level (hz / nanosPerSecond) (burst : ℚ) l.tokens l.last now ↔
      HasRoom (hz / nanosPerSecond) (burst : ℚ) (times.map fun t : Time => (t : ℚ)) now x)

section Frames

variable {hz : ℚ} {burst : Int} {start now : Time} {times : List Time} {l : FrameLimiter}

theorem counted_start (rate : 1 ≤ hz) (full : 1 ≤ burst) (start : Time) :
    Counted hz burst start [] (newFrameLimiter hz burst start) where
  paced := rfl
  cap := rfl
  recent := List.mem_cons_self
  bucket := by
    have held : (0 : ℚ) ≤ burst := by exact_mod_cast Int.le_trans (by decide) full
    exact ⟨held, le_refl _, Int.le_refl _⟩
  closed now x later := by
    have unit : (0 : ℚ) ≤ nanosPerSecond := by decide
    have gain : 0 ≤ hz / nanosPerSecond := div_nonneg (by linarith) unit
    have held : level (hz / nanosPerSecond) (burst : ℚ) burst start now = burst :=
      level_of_full gain (by exact_mod_cast later)
    change x ≤ level _ (burst : ℚ) (burst : ℚ) start now ↔ _
    rw [held]
    exact ⟨fun below => ⟨below, fun i h => absurd h (Nat.not_lt_zero i)⟩, fun room => room.1⟩

theorem Counted.refilled (counted : Counted hz burst start times l) (later : l.last ≤ now) :
    refill l.rate l.burst ⟨l.tokens, l.last⟩ now =
      ⟨level (hz / nanosPerSecond) burst l.tokens l.last now, now⟩ := by
  rw [refill_level counted.bucket later, counted.paced, counted.cap]

/-- The verdict on one frame more. -/
theorem Counted.allow_iff (counted : Counted hz burst start times l) (later : l.last ≤ now) :
    (l.allow now).2 = true ↔
      HasRoom (hz / nanosPerSecond) (burst : ℚ) (times.map fun t : Time => (t : ℚ)) now 1 := by
  rw [← counted.closed now 1 later, FrameLimiter.allow, counted.refilled later]
  simp only
  split
  · next low => exact iff_of_false Bool.false_ne_true (not_le.mpr low)
  · next high => exact iff_of_true rfl (not_lt.mp high)

theorem Counted.allow (counted : Counted hz burst start times l) (later : l.last ≤ now)
    (allowed : (l.allow now).2 = true) :
    Counted hz burst start (times ++ [now]) (l.allow now).1 := by
  have enough := (counted.closed now 1 later).mpr ((counted.allow_iff later).mp allowed)
  have spent : (l.allow now).1 =
      ⟨hz, burst, level (hz / nanosPerSecond) burst l.tokens l.last now - 1, now⟩ := by
    rw [FrameLimiter.allow, counted.refilled later]
    simp only [if_neg (not_lt.mpr enough), counted.paced, counted.cap]
  have closed := fun x => counted.closed now x later
  rw [spent]
  refine ⟨rfl, rfl, by simp, ⟨?_, ?_, Int.le_refl _⟩, fun t x _ => ?_⟩
  · exact sub_nonneg.mpr enough
  · have most : level (hz / nanosPerSecond) (burst : ℚ) l.tokens l.last now ≤ burst :=
      level_le_burst
    change level (hz / nanosPerSecond) (burst : ℚ) l.tokens l.last now - 1 ≤ burst
    linarith
  · rw [List.map_append]
    exact le_level_take closed x

theorem room_one_iff :
    HasRoom (hz / nanosPerSecond) (burst : ℚ) (times.map fun t : Time => (t : ℚ)) now 1 ↔
      (1 : ℚ) ≤ burst ∧ ∀ i (h : i < times.length),
        ((times.length - i + 1 : ℕ) : ℚ) ≤ burst + hz * seconds (now - times[i]) := by
  have gain : ∀ t : Time, hz / nanosPerSecond * ((now : ℚ) - t) = hz * seconds (now - t) := by
    intro t
    rw [mul_comm hz, seconds_mul]
    push_cast
    rfl
  unfold HasRoom
  simp only [List.length_map, List.getElem_map, gain, Nat.cast_succ, add_comm (1 : ℚ)]

theorem withinRate_append :
    WithinRate hz burst (times ++ [now]) ↔
      WithinRate hz burst times ∧ (1 : ℚ) ≤ burst ∧ ∀ i (h : i < times.length),
        ((times.length - i + 1 : ℕ) : ℚ) ≤ burst + hz * seconds (now - times[i]) := by
  have none_ : seconds (now - now) = 0 := by rw [sub_self, seconds, Int.cast_zero, zero_div]
  constructor
  · intro within
    refine ⟨fun i j le h => ?_, ?_, fun i h => ?_⟩
    · have both := within i j le (by rw [List.length_append]; exact Nat.lt_add_right 1 h)
      rwa [List.getElem_append_left h, List.getElem_append_left (Nat.lt_of_le_of_lt le h)] at both
    · have last := within times.length times.length (Nat.le_refl _) (by simp)
      rw [List.getElem_concat_length rfl, none_] at last
      simpa using last
    · have last := within i times.length h.le (by simp)
      rwa [List.getElem_concat_length rfl, List.getElem_append_left h] at last
  · rintro ⟨within, one, last⟩ i j le h
    rw [List.length_append, List.length_singleton] at h
    rcases Nat.lt_succ_iff_lt_or_eq.mp h with earlier | rfl
    · rw [List.getElem_append_left earlier,
        List.getElem_append_left (Nat.lt_of_le_of_lt le earlier)]
      exact within i j le earlier
    · rw [List.getElem_concat_length rfl]
      rcases Nat.lt_or_eq_of_le le with before | rfl
      · rw [List.getElem_append_left before]
        exact last i before
      · rw [List.getElem_concat_length rfl, none_]
        simpa using one

theorem acceptsAll_append (l : FrameLimiter) (times : List Time) (now : Time) :
    l.acceptsAll (times ++ [now]) = (l.acceptsAll times && ((l.after times).allow now).2) := by
  induction times generalizing l with
  | nil => simp [FrameLimiter.acceptsAll, FrameLimiter.after]
  | cons t times ih =>
    rw [List.cons_append, FrameLimiter.acceptsAll, ih, FrameLimiter.acceptsAll, Bool.and_assoc]
    rfl

theorem after_append (l : FrameLimiter) (times : List Time) (now : Time) :
    l.after (times ++ [now]) = ((l.after times).allow now).1 := List.foldl_concat ..

/-- The limiter accepts the frames exactly if they keep the rate, and then it has counted them. -/
theorem frames_counted (rate : 1 ≤ hz) (full : 1 ≤ burst)
    (ordered : (start :: times).Pairwise (· ≤ ·)) :
    ((newFrameLimiter hz burst start).acceptsAll times = true ↔ WithinRate hz burst times) ∧
      (WithinRate hz burst times →
        Counted hz burst start times ((newFrameLimiter hz burst start).after times)) := by
  induction times using List.reverseRecOn with
  | nil =>
    refine ⟨iff_of_true rfl fun i j _ h => absurd h (Nat.not_lt_zero j), fun _ => ?_⟩
    exact counted_start rate full start
  | append_singleton times now ih =>
    rw [← List.cons_append, List.pairwise_append] at ordered
    obtain ⟨before, -, later⟩ := ordered
    obtain ⟨accepts, counts⟩ := ih before
    have next : ∀ t ∈ start :: times, t ≤ now := fun t member => later t member now (by simp)
    rw [acceptsAll_append, Bool.and_eq_true, accepts, after_append, withinRate_append,
      ← room_one_iff]
    constructor
    · refine and_congr_right fun within => ?_
      exact (counts within).allow_iff (next _ (counts within).recent)
    · rintro ⟨within, room⟩
      have reached := next _ (counts within).recent
      exact (counts within).allow reached (((counts within).allow_iff reached).mpr room)

end Frames

section Reads

variable {c : Config} {st : Loop} {read : Read}

def IsText (read : Read) : Prop := ∃ payload, read.message = .text payload

/-- What becomes of a frame that the limiter let pass. -/
theorem accept_spec {payload : Bytes} (text : read.message = .text payload) :
    (st.accept c read payload).1.limiter = st.limiter ∧
      ((st.accept c read payload).2 = none ∧ Proper c read ∨
        ∃ exit, (st.accept c read payload).2 = some exit ∧ exit ≠ rateExceeded ∧
          ¬ Proper c read) := by
  unfold Loop.accept
  cases valid : validateSnapshot payload with
  | error what =>
    refine ⟨rfl, Or.inr ⟨_, rfl, by decide, ?_⟩⟩
    rintro ⟨_, _, _, same, accepted, -⟩
    cases text.symm.trans same
    cases valid.symm.trans accepted
  | ok capturedAtMs =>
    simp only
    by_cases outside : capturedAtMs * nanosPerMillisecond < read.wall - c.maxSnapshotAge ∨
        read.wall + c.maxFutureSkew < capturedAtMs * nanosPerMillisecond
    · rw [if_pos outside]
      refine ⟨rfl, Or.inr ⟨_, rfl, by decide, ?_⟩⟩
      rintro ⟨_, _, _, same, accepted, inside, -⟩
      cases text.symm.trans same
      cases valid.symm.trans accepted
      exact inside outside
    · rw [if_neg outside]
      cases publish : read.publish with
      | error what =>
        refine ⟨rfl, Or.inr ⟨_, rfl, by decide, ?_⟩⟩
        rintro ⟨_, _, _, -, -, -, accepted⟩
        cases publish.symm.trans accepted
      | ok dropped =>
        exact ⟨rfl, Or.inl ⟨rfl, payload, capturedAtMs, dropped, text, valid, outside, publish⟩⟩

theorem accept_open_iff {payload : Bytes} (text : read.message = .text payload) :
    (st.accept c read payload).2 = none ↔ Proper c read := by
  rcases (accept_spec text).2 with ⟨open_, proper⟩ | ⟨exit, closed, -, improper⟩
  · exact iff_of_true open_ proper
  · rw [closed]
    exact iff_of_false nofun improper

theorem accept_never_rate {payload : Bytes} (text : read.message = .text payload) :
    (st.accept c read payload).2 ≠ some rateExceeded := by
  intro rate
  rcases (accept_spec text).2 with ⟨open_, -⟩ | ⟨exit, closed, other, -⟩
  · cases open_.symm.trans rate
  · cases closed.symm.trans rate
    exact other rfl

theorem turn_text {payload : Bytes} (text : read.message = .text payload) :
    (st.turn c read).1.limiter = (st.limiter.allow read.now).1 := by
  rw [Loop.turn, text]
  simp only
  split
  · rfl
  · exact (accept_spec text).1

theorem turn_open_iff :
    (st.turn c read).2 = none ↔ Proper c read ∧ (st.limiter.allow read.now).2 = true := by
  have text_of : Proper c read → IsText read := fun ⟨payload, _, _, text, _⟩ => ⟨payload, text⟩
  rw [Loop.turn]
  cases text : read.message with
  | failed readLimit | other =>
    refine iff_of_false nofun ?_
    rintro ⟨proper, -⟩
    obtain ⟨payload, is⟩ := text_of proper
    rw [text] at is
    cases is
  | text payload =>
    simp only
    cases allowed : (st.limiter.allow read.now).2 with
    | false => exact iff_of_false nofun fun both => Bool.false_ne_true both.2
    | true =>
      rw [if_neg (by decide), accept_open_iff text]
      exact (and_iff_left rfl).symm

theorem turn_rate_iff :
    (st.turn c read).2 = some rateExceeded ↔
      IsText read ∧ (st.limiter.allow read.now).2 = false := by
  rw [Loop.turn, IsText]
  cases text : read.message with
  | failed readLimit => exact iff_of_false nofun fun ⟨⟨_, is⟩, _⟩ => nomatch is
  | other =>
    refine iff_of_false ?_ fun ⟨⟨_, is⟩, _⟩ => nomatch is
    simp [Loop.reject, rateExceeded]
  | text payload =>
    simp only
    cases allowed : (st.limiter.allow read.now).2 with
    | false => exact iff_of_true rfl ⟨⟨payload, rfl⟩, rfl⟩
    | true =>
      rw [if_neg (by decide)]
      exact iff_of_false (accept_never_rate text) fun both => nomatch both.2

/-- The loop goes on as long as all frames are proper and the limiter accepts them. -/
theorem run_open (c : Config) (st : Loop) (reads : List Read) :
    ((st.run c reads).2 = none ↔
      (∀ read ∈ reads, Proper c read) ∧
        st.limiter.acceptsAll (reads.map fun read => read.now) = true) ∧
    ((st.run c reads).2 = none →
      (st.run c reads).1.limiter = st.limiter.after (reads.map fun read => read.now)) := by
  induction reads generalizing st with
  | nil => exact ⟨iff_of_true rfl ⟨by simp, rfl⟩, fun _ => rfl⟩
  | cons read later ih =>
    have turn : (st.turn c read).2 = none ↔ Proper c read ∧ (st.limiter.allow read.now).2 = true :=
      turn_open_iff
    rw [Loop.run, List.map_cons, FrameLimiter.acceptsAll, Bool.and_eq_true, List.forall_mem_cons]
    cases made : st.turn c read with
    | mk next exit =>
      rw [made] at turn
      cases exit with
      | some exit =>
        have ends : ¬ (Proper c read ∧ (st.limiter.allow read.now).2 = true) :=
          fun both => nomatch turn.mpr both
        exact ⟨iff_of_false nofun fun both => ends ⟨both.1.1, both.2.1⟩, nofun⟩
      | none =>
        obtain ⟨proper, allowed⟩ := turn.mp rfl
        have limiter : next.limiter = (st.limiter.allow read.now).1 := by
          obtain ⟨payload, _, _, text, -⟩ := proper
          rw [← turn_text text, made]
        obtain ⟨open_, after⟩ := ih next
        rw [limiter] at open_ after
        refine ⟨open_.trans ?_, after⟩
        exact ⟨fun both => ⟨⟨proper, both.1⟩, allowed, both.2⟩,
          fun both => ⟨both.1.2, both.2.2⟩⟩

theorem run_append (c : Config) (st : Loop) (before : List Read) (read : Read)
    (open_ : (st.run c before).2 = none) :
    st.run c (before ++ [read]) = (st.run c before).1.turn c read := by
  induction before generalizing st with
  | nil =>
    change st.run c [read] = st.turn c read
    rw [Loop.run]
    cases st.turn c read with
    | mk next exit =>
      cases exit with
      | some exit => rfl
      | none => rfl
  | cons first before ih =>
    rw [Loop.run] at open_
    rw [List.cons_append, Loop.run, Loop.run]
    cases made : st.turn c first with
    | mk next exit =>
      rw [made] at open_
      cases exit with
      | some exit => cases open_
      | none => exact ih next open_

end Reads

/-- The limiter accepts all frames exactly if no window holds more of them than the burst and
   the rate allow, and the handler closes the connection for it at the first frame that
   completes one which does. -/
theorem publish_limiter_exact (hz : ℚ) (burst : Int) (rate : 1 ≤ hz) (full : 1 ≤ burst)
    (start : Time) :
    (∀ times : List Time, (start :: times).Pairwise (· ≤ ·) →
      ((newFrameLimiter hz burst start).acceptsAll times = true ↔ WithinRate hz burst times)) ∧
    ∀ (c : Config) (opened : Time) (before : List Read) (read : Read),
      c.maxPublishHz = hz → c.publishBurst = burst →
      (start :: (before ++ [read]).map fun read => read.now).Pairwise (· ≤ ·) →
      (((Loop.start c opened start).run c before).2 = none ∧
          ((Loop.start c opened start).run c (before ++ [read])).2 = some rateExceeded ↔
        (∀ earlier ∈ before, Proper c earlier) ∧ IsText read ∧
          WithinRate hz burst (before.map fun read => read.now) ∧
          ¬ WithinRate hz burst ((before ++ [read]).map fun read => read.now)) := by
  refine ⟨fun times ordered => (frames_counted rate full ordered).1, ?_⟩
  rintro c opened before read rfl rfl ordered
  have all := (frames_counted rate full ordered).1
  rw [List.map_append, List.map_singleton] at ordered all ⊢
  have earlier := (frames_counted rate full (ordered.sublist
    (List.cons_sublist_cons.mpr (List.sublist_append_left _ _)))).1
  obtain ⟨goesOn, limiter⟩ := run_open c (Loop.start c opened start) before
  change _ ↔ _ ∧ (newFrameLimiter c.maxPublishHz c.publishBurst start).acceptsAll _ = true at goesOn
  rw [acceptsAll_append, Bool.and_eq_true] at all
  constructor
  · rintro ⟨open_, closed⟩
    obtain ⟨proper, accepted⟩ := goesOn.mp open_
    rw [run_append c _ before read open_, turn_rate_iff, limiter open_] at closed
    refine ⟨proper, closed.1, earlier.mp accepted, fun within => ?_⟩
    exact Bool.false_ne_true (closed.2.symm.trans (all.mpr within).2)
  · rintro ⟨proper, text, within, exceeds⟩
    have accepted := earlier.mpr within
    have open_ := goesOn.mpr ⟨proper, accepted⟩
    refine ⟨open_, ?_⟩
    rw [run_append c _ before read open_, turn_rate_iff, limiter open_]
    refine ⟨text, Bool.eq_false_iff.mpr fun allowed => ?_⟩
    exact exceeds (all.mp ⟨accepted, allowed⟩)

def onePerSecond : Config := { exampleConfig with maxPublishHz := 1, publishBurst := 1 }

def snapshot : Bytes :=
  bytes ("\x7b\"v\":1,\"type\":\"snapshot\",\"protocolVersion\":1,\"seq\":7," ++
    "\"capturedAtMs\":9,\"map\":\x7b\x7d,\"players\":[],\"bomb\":\x7b\x7d\x7d")

def snapshotAt (now : Time) : Read := ⟨.text snapshot, now, 9 * nanosPerMillisecond, .ok 0⟩

/-- Of two frames half a second apart the second is too many. -/
theorem publish_limiter_exact_two :
    ((Loop.start onePerSecond 0 0).run onePerSecond [snapshotAt 0]).2 = none ∧
      ((Loop.start onePerSecond 0 0).run onePerSecond
        [snapshotAt 0, snapshotAt (500 * nanosPerMillisecond)]).2 = some rateExceeded := by
  obtain ⟨frames, handler⟩ := publish_limiter_exact 1 1 (by decide) (by decide) 0
  have first : (newFrameLimiter 1 1 0).acceptsAll [0] = true := by decide +kernel
  have both : (newFrameLimiter 1 1 0).acceptsAll [0, 500 * nanosPerMillisecond] = false := by
    decide +kernel
  have valid : validateSnapshot snapshot = .ok 9 := by decide +kernel
  have proper : Proper onePerSecond (snapshotAt 0) := ⟨snapshot, 9, 0, rfl, valid, by decide, rfl⟩
  refine (handler onePerSecond 0 [snapshotAt 0] (snapshotAt (500 * nanosPerMillisecond)) rfl rfl
    (by decide)).mpr ⟨by simpa using proper, ⟨snapshot, rfl⟩, ?_, fun within => ?_⟩
  · exact (frames [0] (by decide)).mp first
  · exact Bool.false_ne_true (both.symm.trans ((frames _ (by decide)).mpr within))

end RelayPublishRate
