import GameSecurity.Binary64
import GameSecurity.NearestRank
import Mathlib.Data.Fin.Basic
import Mathlib.Order.Bounds.Basic

/- DurationHistogram of performance_metrics.hpp, used by one thread. -/
namespace PerformanceMetrics
open Binary64 (nearest nearest_mono)
open NearestRank (countP_lt_add_countP_eq percentile percentile_le_iff percentile_mono rank rank_eq)

structure DurationSnapshot where
  samples : UInt64 := 0
  averageMilliseconds : ℚ := 0
  p50Milliseconds : ℚ := 0
  p95Milliseconds : ℚ := 0
  p99Milliseconds : ℚ := 0
  maximumMilliseconds : ℚ := 0
  deriving DecidableEq, Repr

/-- numeric_limits<uint64_t>::max(). -/
def unbounded : UInt64 := 0xFFFFFFFFFFFFFFFF

def upperBoundsMicroseconds : List UInt64 :=
  [50, 100, 250, 500, 1000, 2000, 4000, 8000, 12000, 16000, 24000, 33000, 50000, 100000, unbounded]

abbrev Bucket := Fin upperBoundsMicroseconds.length

def lastBucket : Bucket := ⟨upperBoundsMicroseconds.length - 1, by decide⟩

def bucketIndex (microseconds : UInt64) : Bucket :=
  (Fin.find? fun index : Bucket => microseconds ≤ upperBoundsMicroseconds[index]).getD lastBucket

structure DurationHistogram where
  samples : UInt64
  totalMicroseconds : UInt64
  maximumMicroseconds : UInt64
  buckets : Bucket → UInt64

def initial : DurationHistogram := ⟨0, 0, 0, fun _ => 0⟩

/-- What is counted of a duration, given as duration_cast counts its microseconds. -/
def microsecondsOf (measured : Int64) : UInt64 := if measured ≤ 0 then 0 else measured.toUInt64

/-- The exchange of the maximum fails at most without a cause and is then tried again. -/
def DurationHistogram.record (histogram : DurationHistogram) (measured : Int64) :
    DurationHistogram :=
  let microseconds := microsecondsOf measured
  let maximum := histogram.maximumMicroseconds
  let index := bucketIndex microseconds
  { samples := histogram.samples + 1
    totalMicroseconds := histogram.totalMicroseconds + microseconds
    maximumMicroseconds := if microseconds > maximum then microseconds else maximum
    buckets := fun i => if i = index then histogram.buckets i + 1 else histogram.buckets i }

def milliseconds (microseconds : UInt64) : ℚ := nearest (nearest microseconds.toNat / 1000)

/-- The loop of percentileMilliseconds; none: it falls through. -/
def percentileFrom (histogram : DurationHistogram) (target : UInt64) (accumulated : UInt64) :
    List Bucket → Option ℚ
  | [] => none
  | index :: rest =>
    let accumulated := accumulated + histogram.buckets index
    if accumulated ≥ target then
      let upper := upperBoundsMicroseconds[index]
      if upper = unbounded then some (milliseconds histogram.maximumMicroseconds)
      else some (milliseconds upper)
    else percentileFrom histogram target accumulated rest

def percentileLoop (histogram : DurationHistogram) (samples percentile : UInt64) : Option ℚ :=
  percentileFrom histogram ((samples * percentile + 99) / 100) 0 (List.finRange _)

def percentileMilliseconds (histogram : DurationHistogram) (samples percentile : UInt64) : ℚ :=
  (percentileLoop histogram samples percentile).getD 0

def DurationHistogram.snapshot (histogram : DurationHistogram) : DurationSnapshot :=
  let samples := histogram.samples
  if samples = 0 then {}
  else
    { samples
      averageMilliseconds :=
        nearest (nearest (nearest histogram.totalMicroseconds.toNat / nearest samples.toNat) / 1000)
      p50Milliseconds := percentileMilliseconds histogram samples 50
      p95Milliseconds := percentileMilliseconds histogram samples 95
      p99Milliseconds := percentileMilliseconds histogram samples 99
      maximumMilliseconds := milliseconds histogram.maximumMicroseconds }

inductive Action where
  | record (measured : Int64)
  | reset
  deriving DecidableEq, Repr

def step (histogram : DurationHistogram) : Action → DurationHistogram
  | .record measured => histogram.record measured
  | .reset => initial

def after (actions : List Action) : DurationHistogram := actions.foldl step initial

def recorded (actions : List Action) : List UInt64 :=
  actions.foldl (fun values action => match action with
    | .record measured => values ++ [microsecondsOf measured]
    | .reset => []) []

theorem bounds_increasing : upperBoundsMicroseconds.Pairwise (· < ·) := by decide

theorem bounds_mono {i j : Bucket} (le : i ≤ j) :
    upperBoundsMicroseconds[i] ≤ upperBoundsMicroseconds[j] := by
  rcases le.eq_or_lt with same | before
  · rw [same]
    exact UInt64.le_refl _
  · exact UInt64.le_of_lt
      (List.pairwise_iff_getElem.mp bounds_increasing i j i.isLt j.isLt before)

theorem le_unbounded (microseconds : UInt64) : microseconds ≤ unbounded := by
  rw [UInt64.le_iff_toNat_le]
  exact Nat.le_of_lt_succ microseconds.toNat_lt

/-- The bucket of a value is the first whose bound is not below it. -/
theorem bucketIndex_le_iff (microseconds : UInt64) (i : Bucket) :
    bucketIndex microseconds ≤ i ↔ microseconds ≤ upperBoundsMicroseconds[i] := by
  have last : microseconds ≤ upperBoundsMicroseconds[lastBucket] :=
    le_unbounded microseconds
  unfold bucketIndex
  cases found : Fin.find? fun index : Bucket => microseconds ≤ upperBoundsMicroseconds[index] with
  | none =>
    have nowhere := Fin.eq_false_of_find?_eq_none found lastBucket
    exact absurd last (of_decide_eq_false nowhere)
  | some first =>
    obtain ⟨here, before⟩ := Fin.find?_eq_some_iff.mp found
    rw [Option.getD_some]
    constructor
    · intro le
      exact UInt64.le_trans (of_decide_eq_true here) (bounds_mono le)
    · intro small
      by_contra later
      exact of_decide_eq_false (before i (not_le.mp later)) small

/-- What the counters hold of the values recorded; each counts modulo its width. -/
structure Counts (histogram : DurationHistogram) (values : List UInt64) : Prop where
  samples : histogram.samples.toNat = values.length % 2 ^ 64
  maximum : (values = [] ∧ histogram.maximumMicroseconds = 0) ∨
    IsGreatest {value | value ∈ values.map UInt64.toNat} histogram.maximumMicroseconds.toNat
  buckets : ∀ i, (histogram.buckets i).toNat =
    values.countP (fun value => bucketIndex value = i) % 2 ^ 64

theorem Counts.initial : Counts initial [] := ⟨rfl, Or.inl ⟨rfl, rfl⟩, fun _ => rfl⟩

theorem maximum_record {values : List UInt64} {maximum value : UInt64}
    (before : (values = [] ∧ maximum = 0) ∨
      IsGreatest {v | v ∈ values.map UInt64.toNat} maximum.toNat) :
    IsGreatest {v | v ∈ (values ++ [value]).map UInt64.toNat}
      (if value > maximum then value else maximum).toNat := by
  have next : (if value > maximum then value else maximum).toNat =
      max maximum.toNat value.toNat := by
    split
    · rename_i above
      exact (max_eq_right (UInt64.lt_iff_toNat_lt.mp above).le).symm
    · rename_i below
      exact (max_eq_left (not_lt.mp fun above => below (UInt64.lt_iff_toNat_lt.mpr above))).symm
  have members : {v | v ∈ (values ++ [value]).map UInt64.toNat} =
      insert value.toNat {v | v ∈ values.map UInt64.toNat} := by
    ext v
    simp [or_comm, eq_comm]
  rw [next, members]
  rcases before with ⟨none_, zero⟩ | greatest
  · subst none_ zero
    simp
  · rw [max_comm]
    exact greatest.insert value.toNat

theorem Counts.record {histogram : DurationHistogram} {values : List UInt64}
    (counts : Counts histogram values) (measured : Int64) :
    Counts (histogram.record measured) (values ++ [microsecondsOf measured]) where
  samples := by
    have next : (histogram.samples + 1).toNat = (histogram.samples.toNat + 1) % 2 ^ 64 :=
      UInt64.toNat_add histogram.samples 1
    rw [DurationHistogram.record, next, counts.samples, List.length_append, List.length_singleton,
      Nat.mod_add_mod]
  maximum := Or.inr (maximum_record counts.maximum)
  buckets i := by
    rw [List.countP_append, List.countP_singleton]
    simp only [DurationHistogram.record]
    by_cases here : bucketIndex (microsecondsOf measured) = i
    · have next : (histogram.buckets i + 1).toNat = ((histogram.buckets i).toNat + 1) % 2 ^ 64 :=
        UInt64.toNat_add (histogram.buckets i) 1
      rw [if_pos here.symm, if_pos (decide_eq_true here), next, counts.buckets, Nat.mod_add_mod]
    · rw [if_neg (Ne.symm here), if_neg (by simpa using here), Nat.add_zero]
      exact counts.buckets i

theorem after_append (actions : List Action) (action : Action) :
    after (actions ++ [action]) = step (after actions) action :=
  List.foldl_concat step initial action actions

theorem counts_after (actions : List Action) : Counts (after actions) (recorded actions) := by
  induction actions using List.reverseRecOn with
  | nil => exact Counts.initial
  | append_singleton actions action ih =>
    rw [after_append]
    unfold recorded
    rw [List.foldl_append]
    cases action with
    | record measured => exact ih.record measured
    | reset => exact Counts.initial

def stopsAt (histogram : DurationHistogram) (index : Bucket) : ℚ :=
  if upperBoundsMicroseconds[index] = unbounded then milliseconds histogram.maximumMicroseconds
  else milliseconds upperBoundsMicroseconds[index]

theorem percentileFrom_cons {histogram : DurationHistogram} {target accumulated : UInt64}
    {index : Bucket} {rest : List Bucket} :
    percentileFrom histogram target accumulated (index :: rest) =
      if accumulated + histogram.buckets index ≥ target then some (stopsAt histogram index)
      else percentileFrom histogram target (accumulated + histogram.buckets index) rest := by
  rw [percentileFrom]
  simp only [stopsAt]
  split
  · exact (apply_ite some _ _ _).symm
  · rfl

section Few

variable {histogram : DurationHistogram} {values : List UInt64}

theorem accumulated_next (counts : Counts histogram values) (few : values.length < 2 ^ 57)
    {accumulated : UInt64} {index : Bucket}
    (before : accumulated.toNat = values.countP fun value => bucketIndex value < index) :
    (accumulated + histogram.buckets index).toNat =
      values.countP fun value => bucketIndex value ≤ index := by
  have here := counts.buckets index
  have most := values.countP_le_length (p := fun value => bucketIndex value = index)
  rw [Nat.mod_eq_of_lt (by omega)] at here
  have whole := values.countP_le_length (p := fun value => bucketIndex value ≤ index)
  rw [UInt64.toNat_add, before, here, countP_lt_add_countP_eq bucketIndex index values]
  exact Nat.mod_eq_of_lt (by omega)

/-- The loop stops at the first bucket where the values up to its bound reach the target. -/
theorem percentileFrom_stops (counts : Counts histogram values) (few : values.length < 2 ^ 57)
    {target : UInt64} {stop : Bucket}
    (reached : ∀ index, stop ≤ index ↔
      target.toNat ≤ values.countP fun value => bucketIndex value ≤ index) (rest : List Bucket) :
    ∀ (k : Nat) (accumulated : UInt64), rest = (List.finRange _).drop k → k ≤ stop.val →
      (accumulated.toNat = values.countP fun value => (bucketIndex value).val < k) →
      percentileFrom histogram target accumulated rest = some (stopsAt histogram stop) := by
  induction rest with
  | nil =>
    intro k accumulated whole before
    have short := congrArg List.length whole
    rw [List.length_drop, List.length_finRange, List.length_nil] at short
    have inside := stop.isLt
    omega
  | cons index rest ih =>
    intro k accumulated whole before total
    have inside : k < (List.finRange upperBoundsMicroseconds.length).length := by
      rw [List.length_finRange]
      exact before.trans_lt stop.isLt
    rw [List.drop_eq_getElem_cons inside] at whole
    obtain ⟨here, later⟩ := List.cons.inj whole
    have place : index.val = k := by
      rw [here]
      simp
    subst place
    have total' := accumulated_next counts few total
    rw [percentileFrom_cons]
    by_cases done : stop ≤ index
    · have same : index = stop := le_antisymm before done
      have enough := (reached index).mp done
      rw [← total', ← UInt64.le_iff_toNat_le] at enough
      rw [if_pos enough, same]
    · have more : ¬ target ≤ accumulated + histogram.buckets index := by
        rw [UInt64.le_iff_toNat_le, total']
        exact fun enough => done ((reached index).mpr enough)
      rw [if_neg more]
      refine ih (index.val + 1) _ later (not_le.mp done) ?_
      rw [total']
      refine List.countP_congr fun value _ => ?_
      simp only [decide_eq_true_eq, Fin.le_def, Nat.lt_succ_iff]

theorem countP_bucket (values : List UInt64) (index : Bucket) :
    values.countP (fun value => bucketIndex value ≤ index) =
      (values.map UInt64.toNat).countP
        fun value => value ≤ upperBoundsMicroseconds[index].toNat := by
  rw [List.countP_map]
  apply List.countP_congr
  intro value _
  simp only [Function.comp_apply, decide_eq_true_eq]
  exact (bucketIndex_le_iff value index).trans UInt64.le_iff_toNat_le

theorem target_rank (counts : Counts histogram values) (few : values.length < 2 ^ 57)
    {p : UInt64} (most : p.toNat ≤ 100) :
    ((histogram.samples * p + 99) / 100).toNat = rank values.length p.toNat := by
  have samples := counts.samples
  rw [Nat.mod_eq_of_lt (by omega)] at samples
  have product : values.length * p.toNat ≤ values.length * 100 := Nat.mul_le_mul_left _ most
  have scaled : (histogram.samples * p).toNat = values.length * p.toNat := by
    rw [UInt64.toNat_mul, samples]
    exact Nat.mod_eq_of_lt (by omega)
  have sum : (histogram.samples * p + 99).toNat = values.length * p.toNat + 99 := by
    rw [UInt64.toNat_add, scaled]
    exact Nat.mod_eq_of_lt (by change _ + 99 < _; omega)
  rw [UInt64.toNat_div, sum, rank_eq]
  rfl

theorem percentileLoop_exact (counts : Counts histogram values) (few : values.length < 2 ^ 57)
    (some_ : values ≠ []) {p : UInt64} (positive : 0 < p.toNat) (most : p.toNat ≤ 100) :
    ∃ exact_ ∈ values, percentile (values.map UInt64.toNat) p.toNat = some exact_.toNat ∧
      percentileLoop histogram histogram.samples p =
        some (stopsAt histogram (bucketIndex exact_)) := by
  have some' : values.map UInt64.toNat ≠ [] := List.map_eq_nil_iff.not.mpr some_
  obtain ⟨_, member, found, ranked⟩ := percentile_le_iff some' positive most
  obtain ⟨exact_, here, rfl⟩ := List.mem_map.mp member
  refine ⟨exact_, here, found, ?_⟩
  refine percentileFrom_stops counts few ?_ _ 0 0 (List.drop_zero).symm (Nat.zero_le _) ?_
  · intro index
    rw [bucketIndex_le_iff, UInt64.le_iff_toNat_le, ranked, countP_bucket, List.length_map,
      target_rank counts few most]
  · simp

end Few

/-- The least bound that is not below a value, or the greatest of the values where all but the
    last bound are. -/
def OneBucket (values : List UInt64) (exact_ reported : UInt64) : Prop :=
  (reported ∈ upperBoundsMicroseconds ∧ reported ≠ unbounded ∧ exact_ ≤ reported ∧
    ∀ upper ∈ upperBoundsMicroseconds, exact_ ≤ upper → reported ≤ upper) ∨
  (∀ upper ∈ upperBoundsMicroseconds, upper ≠ unbounded → upper < exact_) ∧
    reported ∈ values ∧ ∀ value ∈ values, value ≤ reported

theorem stopsAt_oneBucket {histogram : DurationHistogram} {values : List UInt64}
    (counts : Counts histogram values) {exact_ : UInt64} (member : exact_ ∈ values) :
    ∃ reported, stopsAt histogram (bucketIndex exact_) = milliseconds reported ∧
      OneBucket values exact_ reported := by
  have bound := (bucketIndex_le_iff exact_ _).mp (le_refl (bucketIndex exact_))
  have behind (upper : UInt64) (listed : upper ∈ upperBoundsMicroseconds)
      (le : exact_ ≤ upper) : upperBoundsMicroseconds[bucketIndex exact_] ≤ upper := by
    obtain ⟨i, inside, rfl⟩ := List.mem_iff_getElem.mp listed
    exact bounds_mono ((bucketIndex_le_iff exact_ ⟨i, inside⟩).mpr le)
  by_cases last : upperBoundsMicroseconds[bucketIndex exact_] = unbounded
  · refine ⟨histogram.maximumMicroseconds, if_pos last, Or.inr ⟨?_, ?_⟩⟩
    · intro upper listed finite
      rw [UInt64.lt_iff_toNat_lt]
      by_contra below
      have reached := behind upper listed (UInt64.le_iff_toNat_le.mpr (not_lt.mp below))
      rw [last] at reached
      exact finite (UInt64.le_antisymm (le_unbounded upper) reached)
    · rcases counts.maximum with ⟨none_, -⟩ | ⟨greatest, upper⟩
      · rw [none_] at member
        exact absurd member List.not_mem_nil
      · obtain ⟨value, here, same⟩ := List.mem_map.mp greatest
        rw [← UInt64.toNat_inj.mp same]
        refine ⟨here, ?_⟩
        intro other there
        rw [UInt64.le_iff_toNat_le, same]
        exact upper (List.mem_map_of_mem there)
  · exact ⟨_, if_neg last, Or.inl ⟨List.getElem_mem _, last, bound, behind⟩⟩

theorem OneBucket.mono {values : List UInt64} {v w reported reported' : UInt64}
    (member : w ∈ values) (le : v ≤ w) (first : OneBucket values v reported)
    (second : OneBucket values w reported') : reported ≤ reported' := by
  rcases first with ⟨listed, finite, above, least⟩ | ⟨past, here, greatest⟩
  · rcases second with ⟨listed', -, above', -⟩ | ⟨past', -, greatest'⟩
    · exact least reported' listed' (UInt64.le_trans le above')
    · have below := past' reported listed finite
      exact UInt64.le_trans (UInt64.le_of_lt below) (greatest' w member)
  · rcases second with ⟨listed', finite', above', -⟩ | ⟨-, here', greatest'⟩
    · have below := past reported' listed' finite'
      exact absurd (UInt64.le_trans le above') (UInt64.not_le.mpr below)
    · exact greatest' reported here

theorem milliseconds_mono {v w : UInt64} (le : v ≤ w) : milliseconds v ≤ milliseconds w := by
  have wide : (v.toNat : ℚ) ≤ w.toNat := by exact_mod_cast UInt64.le_iff_toNat_le.mp le
  unfold milliseconds
  exact nearest_mono (div_le_div_of_nonneg_right (nearest_mono wide) (by norm_num))

theorem reported_exists {histogram : DurationHistogram} {values : List UInt64}
    (counts : Counts histogram values) (few : values.length < 2 ^ 57) (some_ : values ≠ [])
    {p : UInt64} (positive : 0 < p.toNat) (most : p.toNat ≤ 100) :
    ∃ exact_ reported, exact_ ∈ values ∧
      percentile (values.map UInt64.toNat) p.toNat = some exact_.toNat ∧
      OneBucket values exact_ reported ∧
      percentileLoop histogram histogram.samples p = some (milliseconds reported) := by
  obtain ⟨exact_, member, found, loop⟩ := percentileLoop_exact counts few some_ positive most
  obtain ⟨reported, stops, near⟩ := stopsAt_oneBucket counts member
  exact ⟨exact_, reported, member, found, near, loop.trans (congrArg some stops)⟩

/-- The percentiles of a snapshot are right to one bucket, whatever was recorded since the last
    reset, and the search of the buckets always ends within them. -/
theorem snapshot_percentiles (actions : List Action) (some_ : recorded actions ≠ [])
    (few : (recorded actions).length < 2 ^ 57) :
    let values := recorded actions
    let histogram := after actions
    let shown := histogram.snapshot
    (∀ row ∈ [((50 : UInt64), shown.p50Milliseconds), (95, shown.p95Milliseconds),
        (99, shown.p99Milliseconds)],
      ∃ exact_ reported, percentile (values.map UInt64.toNat) row.1.toNat = some exact_.toNat ∧
        OneBucket values exact_ reported ∧
        percentileLoop histogram histogram.samples row.1 = some (milliseconds reported) ∧
        row.2 = milliseconds reported) ∧
    shown.p50Milliseconds ≤ shown.p95Milliseconds ∧
      shown.p95Milliseconds ≤ shown.p99Milliseconds := by
  intro values histogram shown
  have counts : Counts histogram values := counts_after actions
  have few' : values.length < 2 ^ 57 := few
  have filled : histogram.samples ≠ 0 := by
    intro zero
    have none_ := counts.samples
    rw [zero, Nat.mod_eq_of_lt (by omega)] at none_
    exact some_ (List.length_eq_zero_iff.mp none_.symm)
  have rows : shown.p50Milliseconds = percentileMilliseconds histogram histogram.samples 50 ∧
      shown.p95Milliseconds = percentileMilliseconds histogram histogram.samples 95 ∧
      shown.p99Milliseconds = percentileMilliseconds histogram histogram.samples 99 := by
    simp only [shown, DurationHistogram.snapshot, if_neg filled, and_self]
  obtain ⟨p50, p95, p99⟩ := rows
  obtain ⟨low, low', lowIn, lowIs, lowNear, lowLoop⟩ :=
    @reported_exists _ _ counts few' some_ 50 (by decide) (by decide)
  obtain ⟨high, high', highIn, highIs, highNear, highLoop⟩ :=
    @reported_exists _ _ counts few' some_ 95 (by decide) (by decide)
  obtain ⟨top, top', topIn, topIs, topNear, topLoop⟩ :=
    @reported_exists _ _ counts few' some_ 99 (by decide) (by decide)
  rw [percentileMilliseconds, lowLoop, Option.getD_some] at p50
  rw [percentileMilliseconds, highLoop, Option.getD_some] at p95
  rw [percentileMilliseconds, topLoop, Option.getD_some] at p99
  refine ⟨?_, ?_, ?_⟩
  · intro row member
    rcases List.mem_cons.mp member with rfl | member
    · exact ⟨low, low', lowIs, lowNear, lowLoop, p50⟩
    rcases List.mem_cons.mp member with rfl | member
    · exact ⟨high, high', highIs, highNear, highLoop, p95⟩
    · rw [List.mem_singleton.mp member]
      exact ⟨top, top', topIs, topNear, topLoop, p99⟩
  · rw [p50, p95]
    have ranked := percentile_mono (by decide) (by decide) (by decide) lowIs highIs
    exact milliseconds_mono
      (lowNear.mono highIn (UInt64.le_iff_toNat_le.mpr ranked) highNear)
  · rw [p95, p99]
    have ranked := percentile_mono (by decide) (by decide) (by decide) highIs topIs
    exact milliseconds_mono
      (highNear.mono topIn (UInt64.le_iff_toNat_le.mpr ranked) topNear)

/-- A middle of 70 µs is in the bucket up to 100 µs; what came before the reset does not count. -/
theorem snapshot_percentiles_three :
    let actions : List Action :=
      [.record 20, .reset, .record 300000, .record (-3), .record 70]
    let shown := (after actions).snapshot
    recorded actions = [300000, 0, 70] ∧ shown.p50Milliseconds ≤ shown.p95Milliseconds ∧
      ∃ reported, percentileLoop (after actions) 3 50 = some (milliseconds reported) ∧
        shown.p50Milliseconds = milliseconds reported := by
  intro actions shown
  have values : recorded actions = [300000, 0, 70] := by decide
  obtain ⟨rows, order, -⟩ := snapshot_percentiles actions (by decide) (by decide)
  obtain ⟨exact_, reported, -, -, loop, here⟩ := rows _ List.mem_cons_self
  exact ⟨values, order, reported, loop, here⟩

end PerformanceMetrics
