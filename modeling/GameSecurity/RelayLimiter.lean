import GameSecurity.Runs
import GameSecurity.TokenBucket
import GameSecurity.RelayConfig

/- The login limiter: one token bucket for each address, in a table of bounded size. Its
   float64 arithmetic is taken as exact. -/
namespace RelayLimiter
open Runs RelayRoom RelayConfig FiniteTable TokenBucket

structure Bucket where
  tokens : ℚ
  last : Time

def minute : Int := 60 * nanosPerSecond

def seconds (duration : Int) : ℚ := duration / nanosPerSecond

/-- The refill that both limiters of the file share. -/
def refill (rate burst : ℚ) (entry : Bucket) (now : Time) : Bucket :=
  if entry.last < now then
    let tokens := entry.tokens + seconds (now - entry.last) * rate
    ⟨if burst < tokens then burst else tokens, now⟩
  else entry

structure IPLimiter where
  rate : ℚ
  burst : ℚ
  maxEntries : Int
  entries : Table Bytes Bucket
  calls : Nat

def newIPLimiter (perMinute : ℚ) (burst maxEntries : Int) : IPLimiter :=
  ⟨perMinute / 60, burst, maxEntries, empty, 0⟩

def IPLimiter.prune (l : IPLimiter) (before : Time) : IPLimiter :=
  { l with entries := l.entries.filter fun entry => !decide (entry.last < before) }

def IPLimiter.put (l : IPLimiter) (key : Bytes) (entry : Bucket) : IPLimiter :=
  { l with entries := l.entries.insert key entry }

/-- The tail of `allow`, once the key's bucket is at hand. -/
def IPLimiter.spend (l : IPLimiter) (key : Bytes) (entry : Bucket) (now : Time) :
    IPLimiter × Bool :=
  let entry := refill l.rate l.burst entry now
  if entry.tokens < 1 then (l.put key entry, false)
  else (l.put key { entry with tokens := entry.tokens - 1 }, true)

def IPLimiter.count (l : IPLimiter) (now : Time) : IPLimiter :=
  let counted := { l with calls := l.calls + 1 }
  if counted.calls % 256 = 0 then counted.prune (now - 10 * minute) else counted

def IPLimiter.isFull (l : IPLimiter) : Prop := l.maxEntries ≤ (l.entries.size : Int)

instance (l : IPLimiter) : Decidable l.isFull := inferInstanceAs (Decidable (_ ≤ _))

def IPLimiter.allow (limiter : IPLimiter) (key : Bytes) (now : Time) : IPLimiter × Bool :=
  let l := limiter.count now
  match l.entries.lookup key with
  | some entry => l.spend key entry now
  | none =>
    if l.isFull then
      let pruned := l.prune (now - minute)
      if pruned.isFull then (pruned, false) else pruned.spend key ⟨pruned.burst, now⟩ now
    else l.spend key ⟨l.burst, now⟩ now

structure Attempt where
  key : Bytes
  now : Time
  allowed : Bool
  deriving DecidableEq, Repr

structure History where
  limiter : IPLimiter
  clock : Time
  log : List Attempt

def History.call (w : History) (key : Bytes) (now : Time) : History :=
  let result := w.limiter.allow key now
  ⟨result.1, now, w.log ++ [⟨key, now, result.2⟩]⟩

/-- Calls at times that never decrease, as readings of one clock under the mutex. -/
def logins (c : Config) : Machine History (Bytes × Time) where
  init w := ∃ clock, w =
    ⟨newIPLimiter c.loginAttemptsPerMinute c.loginBurst c.maxTrackedIPs, clock, []⟩
  step w a := if w.clock ≤ a.2 then some (w.call a.1 a.2) else none

def inWindow (key : Bytes) (s t : Time) (a : Attempt) : Bool :=
  decide (a.key = key) && decide (s ≤ a.now) && decide (a.now ≤ t) && a.allowed

def allowedIn (log : List Attempt) (key : Bytes) (s t : Time) : Nat := log.countP (inWindow key s t)

/-- What the next call of the key would find in its bucket. -/
def balance (l : IPLimiter) (key : Bytes) (now : Time) : ℚ :=
  match l.entries.lookup key with
  | some entry => (refill l.rate l.burst entry now).tokens
  | none => l.burst

/-- The limit as documented, with what it rests on: the table stays bounded, and forgetting
   a bucket leaves its key no richer. -/
structure LoginLimited (c : Config) : Prop where
  bounded : ∀ w, (logins c).Reachable w → ∀ key s t, s ≤ t →
    (allowedIn w.log key s t : ℚ) ≤
      c.loginBurst + c.loginAttemptsPerMinute / 60 * seconds (t - s)
  tracked : ∀ w, (logins c).Reachable w → (w.limiter.entries.size : Int) ≤ c.maxTrackedIPs
  forgets : ∀ w, (logins c).Reachable w → ∀ now, w.clock ≤ now →
    ∀ before ∈ [now - minute, now - 10 * minute], ∀ key later, now ≤ later →
      balance (w.limiter.prune before) key later ≤ balance w.limiter key later

/-- The shortest idle time after which a full table drops a bucket refills it. -/
def RefillsWhenForgotten (c : Config) : Prop :=
  (c.loginBurst : ℚ) ≤ c.loginAttemptsPerMinute / 60 * seconds (minute + 1)

/-- A bucket as some call left it. -/
structure BucketOk (burst : ℚ) (clock : Time) (entry : Bucket) : Prop where
  held : 0 ≤ entry.tokens
  fits : entry.tokens ≤ burst
  past : entry.last ≤ clock

structure LimiterOk (c : Config) (clock : Time) (l : IPLimiter) : Prop where
  rate : l.rate = c.loginAttemptsPerMinute / 60
  burst : l.burst = c.loginBurst
  maxEntries : l.maxEntries = c.maxTrackedIPs
  size : (l.entries.size : Int) ≤ c.maxTrackedIPs
  buckets : ∀ key entry, l.entries.lookup key = some entry → BucketOk l.burst clock entry

theorem seconds_split (s now t : Time) :
    seconds (t - s) = seconds (now - s) + seconds (t - now) := by
  unfold seconds
  push_cast
  ring

theorem seconds_mul (rate : ℚ) (duration : Int) :
    seconds duration * rate = rate / nanosPerSecond * duration := by
  unfold seconds
  ring

/-- The refill of the source is the level of the library. -/
theorem refill_level {rate burst : ℚ} {clock now : Time} {entry : Bucket}
    (ok : BucketOk burst clock entry) (later : clock ≤ now) :
    refill rate burst entry now =
      ⟨level (rate / nanosPerSecond) burst entry.tokens entry.last now, now⟩ := by
  have past : entry.last ≤ now := Int.le_trans ok.past later
  by_cases new : entry.last < now
  · have gain : seconds (now - entry.last) * rate =
        rate / nanosPerSecond * ((now : ℚ) - entry.last) := by
      rw [seconds_mul]
      push_cast
      rfl
    simp only [refill, if_pos new, gain, level, min_def_lt]
  · have same : entry.last = now := Int.le_antisymm past (Int.not_lt.mp new)
    simp only [refill, if_neg new]
    rw [← same, level_now ok.fits]

theorem balance_some {l : IPLimiter} {key : Bytes} {entry : Bucket} {clock now : Time}
    (found : l.entries.lookup key = some entry) (ok : BucketOk l.burst clock entry)
    (later : clock ≤ now) :
    balance l key now = level (l.rate / nanosPerSecond) l.burst entry.tokens entry.last now := by
  simp only [balance, found, refill_level ok later]

theorem balance_none {l : IPLimiter} {key : Bytes} {now : Time}
    (absent : l.entries.lookup key = none) : balance l key now = l.burst := by
  simp only [balance, absent]

section Accepted

variable {c : Config} {clock now : Time} {l : IPLimiter}

theorem gain_nonneg (rate : 1 ≤ c.loginAttemptsPerMinute) (ok : LimiterOk c clock l) :
    0 ≤ l.rate / nanosPerSecond := by
  rw [ok.rate]
  have unit : (0 : ℚ) ≤ nanosPerSecond := by decide
  exact div_nonneg (div_nonneg (by linarith) (by decide)) unit

theorem balance_le_burst (ok : LimiterOk c clock l) (later : clock ≤ now) (key : Bytes) :
    balance l key now ≤ l.burst := by
  cases found : l.entries.lookup key with
  | none => exact le_of_eq (balance_none found)
  | some entry =>
    rw [balance_some found (ok.buckets key entry found) later]
    exact level_le_burst

theorem balance_nonneg (rate : 1 ≤ c.loginAttemptsPerMinute) (burst : 1 ≤ c.loginBurst)
    (ok : LimiterOk c clock l) (later : clock ≤ now) (key : Bytes) : 0 ≤ balance l key now := by
  have full : 0 ≤ l.burst := by
    rw [ok.burst]
    exact_mod_cast Int.le_trans (by decide) burst
  cases found : l.entries.lookup key with
  | none => rwa [balance_none found]
  | some entry =>
    have good := ok.buckets key entry found
    rw [balance_some found good later]
    exact level_nonneg full (gain_nonneg rate ok) good.held
      (by exact_mod_cast Int.le_trans good.past later)

/-- What a prune, or two, before a time may have done: buckets idle for more than a
   minute are gone, all others are as they were. -/
structure Pruned (now : Time) (l pruned : IPLimiter) : Prop where
  rate : pruned.rate = l.rate
  burst : pruned.burst = l.burst
  maxEntries : pruned.maxEntries = l.maxEntries
  size : pruned.entries.size ≤ l.entries.size
  kept : ∀ key, pruned.entries.lookup key = l.entries.lookup key ∨
    pruned.entries.lookup key = none ∧
      ∃ entry, l.entries.lookup key = some entry ∧ entry.last < now - minute

theorem pruned_prune {before : Time} (early : before ≤ now - minute) :
    Pruned now l (l.prune before) := by
  refine ⟨rfl, rfl, rfl, size_filter_le _ _, ?_⟩
  intro key
  cases kept : (l.prune before).entries.lookup key with
  | some entry =>
    have found := (lookup_filter_iff.mp kept).1
    exact Or.inl found.symm
  | none =>
    cases found : l.entries.lookup key with
    | none => exact Or.inl rfl
    | some entry =>
      have dropped := lookup_filter_none.mp kept entry found
      have idle : entry.last < before := by simpa using dropped
      exact Or.inr ⟨rfl, entry, rfl, Int.lt_of_lt_of_le idle early⟩

theorem pruned_trans {middle last : IPLimiter} (first : Pruned now l middle)
    (second : Pruned now middle last) : Pruned now l last := by
  refine ⟨second.rate.trans first.rate, second.burst.trans first.burst,
    second.maxEntries.trans first.maxEntries, le_trans second.size first.size, ?_⟩
  intro key
  rcases second.kept key with same | ⟨gone, entry, found, idle⟩
  · rw [same]
    exact first.kept key
  · rcases first.kept key with before | ⟨none_, -⟩
    · exact Or.inr ⟨gone, entry, before ▸ found, idle⟩
    · rw [none_] at found
      cases found

theorem ten_minutes : now - 10 * minute ≤ now - minute :=
  Int.sub_le_sub_left (by decide) now

theorem pruned_count : Pruned now l (l.count now) := by
  have counted : Pruned now l { l with calls := l.calls + 1 } :=
    ⟨rfl, rfl, rfl, le_rfl, fun _ => Or.inl rfl⟩
  simp only [IPLimiter.count]
  split
  · exact pruned_trans counted (pruned_prune ten_minutes)
  · exact counted

theorem limiterOk_pruned {pruned : IPLimiter} (ok : LimiterOk c clock l)
    (h : Pruned now l pruned) : LimiterOk c clock pruned := by
  have size : (pruned.entries.size : Int) ≤ l.entries.size := by exact_mod_cast h.size
  refine ⟨h.rate.trans ok.rate, h.burst.trans ok.burst, h.maxEntries.trans ok.maxEntries,
    le_trans size ok.size, ?_⟩
  intro key entry found
  rw [h.burst]
  rcases h.kept key with same | ⟨gone, -⟩
  · exact ok.buckets key entry (same ▸ found)
  · rw [gone] at found
    cases found

/-- The harmless case: an idle minute fills every bucket. -/
theorem balance_pruned {pruned : IPLimiter} {later : Time} (ok : LimiterOk c clock l)
    (rate : 1 ≤ c.loginAttemptsPerMinute) (refills : RefillsWhenForgotten c)
    (h : Pruned now l pruned) (past : clock ≤ now) (after : now ≤ later) (key : Bytes) :
    balance pruned key later = balance l key later := by
  rcases h.kept key with same | ⟨gone, entry, found, idle⟩
  · simp only [balance, same, h.rate, h.burst]
  · have good := ok.buckets key entry found
    have long : minute + 1 ≤ later - entry.last := by
      unfold Time at *
      omega
    rw [balance_none gone, balance_some found good (Int.le_trans past after), h.burst]
    refine (level_full ?_).symm
    have idled : ((minute + 1 : Int) : ℚ) ≤ (later : ℚ) - entry.last := by exact_mod_cast long
    calc
      l.burst = c.loginBurst := ok.burst
      _ ≤ c.loginAttemptsPerMinute / 60 * seconds (minute + 1) := refills
      _ = l.rate / nanosPerSecond * ((minute + 1 : Int) : ℚ) := by
        rw [mul_comm, seconds_mul, ok.rate]
      _ ≤ l.rate / nanosPerSecond * ((later : ℚ) - entry.last) :=
        mul_le_mul_of_nonneg_left idled (gain_nonneg rate ok)
      _ ≤ entry.tokens + l.rate / nanosPerSecond * ((later : ℚ) - entry.last) :=
        le_add_of_nonneg_left good.held

/-- The ways through `allow`: refused by a full table, or spent from the key's bucket,
   which a new key finds full. -/
inductive Allowing (l : IPLimiter) (key : Bytes) (now : Time) (pruned : IPLimiter) : Prop
  | full (absent : pruned.entries.lookup key = none) (taken : pruned.isFull)
      (result : l.allow key now = (pruned, false))
  | known (entry : Bucket) (found : pruned.entries.lookup key = some entry)
      (result : l.allow key now = pruned.spend key entry now)
  | new (absent : pruned.entries.lookup key = none) (room : ¬ pruned.isFull)
      (result : l.allow key now = pruned.spend key ⟨pruned.burst, now⟩ now)

theorem allow_cases (l : IPLimiter) (key : Bytes) (now : Time) :
    ∃ pruned, Pruned now l pruned ∧ Allowing l key now pruned := by
  cases found : (l.count now).entries.lookup key with
  | some entry =>
    exact ⟨_, pruned_count, .known entry found (by simp [IPLimiter.allow, found])⟩
  | none =>
    by_cases full : (l.count now).isFull
    · have forced : Pruned now l ((l.count now).prune (now - minute)) :=
        pruned_trans pruned_count (pruned_prune le_rfl)
      have absent : ((l.count now).prune (now - minute)).entries.lookup key = none :=
        lookup_filter_none.mpr fun entry present => by simp [found] at present
      by_cases still : ((l.count now).prune (now - minute)).isFull
      · exact ⟨_, forced, .full absent still (by simp [IPLimiter.allow, found, full, still])⟩
      · exact ⟨_, forced, .new absent still (by simp [IPLimiter.allow, found, full, still])⟩
    · exact ⟨_, pruned_count, .new found full (by simp [IPLimiter.allow, found, full])⟩

@[simp] theorem put_self (l : IPLimiter) (key : Bytes) (entry : Bucket) :
    (l.put key entry).entries.lookup key = some entry :=
  lookup_insert_self _ _ _

theorem put_other {key other : Bytes} {entry : Bucket} (different : other ≠ key) :
    (l.put key entry).entries.lookup other = l.entries.lookup other :=
  lookup_insert_of_ne different

theorem balance_put_other {key other : Bytes} {entry : Bucket} (different : other ≠ key)
    (time : Time) : balance (l.put key entry) other time = balance l other time := by
  have same : (l.put key entry).entries.lookup other = l.entries.lookup other := put_other different
  simp only [balance, same]
  rfl

theorem balance_put_self {key : Bytes} {tokens : ℚ} {time : Time}
    (good : BucketOk l.burst now ⟨tokens, now⟩) (after : now ≤ time) :
    balance (l.put key ⟨tokens, now⟩) key time =
      level (l.rate / nanosPerSecond) l.burst tokens now time :=
  balance_some (put_self l key _) good after

/-- A bucket is put back: the table keeps its bound when the key was in it or there is room. -/
theorem limiterOk_put {key : Bytes} {entry : Bucket} (ok : LimiterOk c clock l)
    (later : clock ≤ now) (good : BucketOk l.burst now entry)
    (room : (∃ old, l.entries.lookup key = some old) ∨ ¬ l.isFull) :
    LimiterOk c now (l.put key entry) := by
  refine ⟨ok.rate, ok.burst, ok.maxEntries, ?_, ?_⟩
  · change ((l.entries.insert key entry).size : Int) ≤ c.maxTrackedIPs
    rcases room with ⟨old, found⟩ | room
    · rw [size_insert_of_found entry found]
      exact ok.size
    · have grown := size_insert_le l.entries key entry
      rw [IPLimiter.isFull, ok.maxEntries] at room
      omega
  · intro other bucket found
    by_cases e : other = key
    · subst other
      rw [put_self] at found
      cases found
      exact good
    · rw [put_other e] at found
      have old := ok.buckets other bucket found
      exact ⟨old.held, old.fits, Int.le_trans old.past later⟩

/-- What one call does to the balances, whether or not its bucket was forgotten before. -/
structure Charged (l : IPLimiter) (key : Bytes) (now : Time) (next : IPLimiter)
    (allowed : Bool) : Prop where
  never_richer : ∀ other later, now ≤ later → balance next other later ≤ balance l other later
  charged : allowed = true → ∀ later : Time, now ≤ later →
    balance next key later + 1 ≤
      balance l key now + l.rate / nanosPerSecond * ((later : ℚ) - now)

theorem spend_charged {key : Bytes} {entry : Bucket} (ok : LimiterOk c clock l)
    (rate : 1 ≤ c.loginAttemptsPerMinute) (later : clock ≤ now)
    (good : BucketOk l.burst now entry)
    (room : (∃ old, l.entries.lookup key = some old) ∨ ¬ l.isFull)
    (holds : ∀ time, now ≤ time → balance l key time =
      level (l.rate / nanosPerSecond) l.burst entry.tokens entry.last time) :
    LimiterOk c now (l.spend key entry now).1 ∧
      Charged l key now (l.spend key entry now).1 (l.spend key entry now).2 := by
  have gain := gain_nonneg rate ok
  have current := holds now le_rfl
  have refilled : refill l.rate l.burst entry now = ⟨_, now⟩ := refill_level good le_rfl
  have full : 0 ≤ l.burst := le_trans good.held good.fits
  have start : 0 ≤ balance l key now := by
    rw [current]
    exact level_nonneg full gain good.held (by exact_mod_cast good.past)
  by_cases poor : balance l key now < 1
  · have result : l.spend key entry now =
        (l.put key ⟨balance l key now, now⟩, false) := by
      simp only [IPLimiter.spend, refilled, ← current, if_pos poor]
    have kept : BucketOk l.burst now ⟨balance l key now, now⟩ :=
      ⟨start, balance_le_burst ok later key, le_rfl⟩
    rw [result]
    refine ⟨limiterOk_put ok later kept room, ?_, fun refused => by cases refused⟩
    intro other time after
    by_cases e : other = key
    · subst other
      rw [balance_put_self kept after, holds time after, current]
      exact le_of_eq (level_refill gain (by exact_mod_cast after))
    · exact le_of_eq (balance_put_other e time)
  · have result : l.spend key entry now =
        (l.put key ⟨balance l key now - 1, now⟩, true) := by
      simp only [IPLimiter.spend, refilled, ← current, if_neg poor]
    have kept : BucketOk l.burst now ⟨balance l key now - 1, now⟩ :=
      ⟨by linarith, by linarith [balance_le_burst ok later key], le_rfl⟩
    rw [result]
    refine ⟨limiterOk_put ok later kept room, ?_, ?_⟩
    · intro other time after
      by_cases e : other = key
      · subst other
        have passed : (now : ℚ) ≤ time := by exact_mod_cast after
        calc
          balance (l.put key ⟨balance l key now - 1, now⟩) key time =
              level (l.rate / nanosPerSecond) l.burst (balance l key now - 1) now time :=
            balance_put_self kept after
          _ ≤ level (l.rate / nanosPerSecond) l.burst (balance l key now) now time :=
            level_mono (by linarith)
          _ = balance l key time := by rw [current, level_refill gain passed, holds time after]
      · exact le_of_eq (balance_put_other e time)
    · intro _ time after
      change balance (l.put key ⟨balance l key now - 1, now⟩) key time + 1 ≤ _
      rw [balance_put_self kept after]
      have least : level (l.rate / nanosPerSecond) l.burst (balance l key now - 1) now time ≤
          balance l key now - 1 + l.rate / nanosPerSecond * ((time : ℚ) - now) := level_le_gain
      linarith

theorem allow_charged (key : Bytes) (ok : LimiterOk c clock l)
    (rate : 1 ≤ c.loginAttemptsPerMinute) (burst : 1 ≤ c.loginBurst) (later : clock ≤ now) :
    LimiterOk c now (l.allow key now).1 ∧ ∃ pruned, Pruned now l pruned ∧
      Charged pruned key now (l.allow key now).1 (l.allow key now).2 := by
  obtain ⟨pruned, h, way⟩ := allow_cases l key now
  have kept := limiterOk_pruned ok h
  have full : 0 ≤ pruned.burst := by
    rw [kept.burst]
    exact_mod_cast Int.le_trans (by decide) burst
  have gain := gain_nonneg rate kept
  cases way with
  | full absent taken result =>
    rw [result]
    have aged : LimiterOk c now pruned :=
      ⟨kept.rate, kept.burst, kept.maxEntries, kept.size, fun other entry found =>
        have old := kept.buckets other entry found
        ⟨old.held, old.fits, Int.le_trans old.past later⟩⟩
    exact ⟨aged, pruned, h, fun _ _ _ => le_rfl, fun refused => by cases refused⟩
  | known entry found result =>
    rw [result]
    have old := kept.buckets key entry found
    have good : BucketOk pruned.burst now entry :=
      ⟨old.held, old.fits, Int.le_trans old.past later⟩
    obtain ⟨next, charged⟩ := spend_charged kept rate later good (Or.inl ⟨entry, found⟩)
      fun time after => balance_some found good after
    exact ⟨next, pruned, h, charged⟩
  | new absent room result =>
    rw [result]
    have good : BucketOk pruned.burst now ⟨pruned.burst, now⟩ := ⟨full, le_rfl, le_rfl⟩
    obtain ⟨next, charged⟩ := spend_charged kept rate later good (Or.inr room)
      fun time after => by
        rw [balance_none absent]
        exact (level_of_full gain (by exact_mod_cast after)).symm
    exact ⟨next, pruned, h, charged⟩

end Accepted

theorem call_of_step {c : Config} {w w' : History} {a : Bytes × Time}
    (step : (logins c).step w a = some w') : w.clock ≤ a.2 ∧ w' = w.call a.1 a.2 := by
  simp only [logins] at step
  split at step
  · rename_i later
    simp only [Option.some.injEq] at step
    exact ⟨later, step.symm⟩
  · cases step

/-- What the table is in every reachable state, whatever the ratio of burst to rate. -/
structure HistoryOk (c : Config) (w : History) : Prop where
  limiter : LimiterOk c w.clock w.limiter
  logged : ∀ a ∈ w.log, a.now ≤ w.clock

theorem historyOk_invariant {std : Stdlib} {c : Config} (h : Accepted std c) :
    Invariant (logins c) (HistoryOk c) := by
  have burst : (0 : ℚ) ≤ c.loginBurst := by exact_mod_cast Int.le_trans (by decide) h.loginBurst.1
  refine ⟨?_, ?_⟩
  · rintro w ⟨clock, rfl⟩
    refine ⟨⟨rfl, rfl, rfl, ?_, fun key entry found => ?_⟩, fun a member => by cases member⟩
    · exact Int.le_trans (by decide : ((0 : Nat) : Int) ≤ 100) h.trackedIPs.1
    · cases found
  · intro w a w' ok step
    obtain ⟨later, rfl⟩ := call_of_step step
    refine ⟨(allow_charged a.1 ok.limiter h.loginRate.1 h.loginBurst.1 later).1, ?_⟩
    intro attempt member
    rcases List.mem_append.mp member with old | new
    · exact Int.le_trans (ok.logged attempt old) later
    · rw [List.mem_singleton.mp new]
      exact le_rfl

/-- The window bound of one key; from the last call on, what is left in the bucket counts
   against it too. -/
structure Windowed (c : Config) (w : History) (key : Bytes) (s t : Time) : Prop where
  passed : (allowedIn w.log key s t : ℚ) ≤
    c.loginBurst + c.loginAttemptsPerMinute / 60 * seconds (t - s)
  open_ : w.clock ≤ t → (allowedIn w.log key s t : ℚ) + balance w.limiter key t ≤
    c.loginBurst + c.loginAttemptsPerMinute / 60 * seconds (t - s)

theorem allowedIn_append (log : List Attempt) (a : Attempt) (key : Bytes) (s t : Time) :
    allowedIn (log ++ [a]) key s t =
      allowedIn log key s t + if inWindow key s t a then 1 else 0 := by
  simp [allowedIn, List.countP_append, List.countP_singleton]

theorem inWindow_iff {key : Bytes} {s t : Time} {a : Attempt} :
    inWindow key s t a = true ↔ a.key = key ∧ s ≤ a.now ∧ a.now ≤ t ∧ a.allowed = true := by
  simp [inWindow, and_assoc]

/-- The window may be closed early once the log has nothing later. -/
theorem allowedIn_until {log : List Attempt} {key : Bytes} {s now t : Time}
    (logged : ∀ a ∈ log, a.now ≤ now) (after : now ≤ t) :
    allowedIn log key s t = allowedIn log key s now := by
  refine List.countP_congr fun a member => ?_
  have past := logged a member
  rw [inWindow_iff, inWindow_iff]
  constructor
  · rintro ⟨named, since, -, yes⟩
    exact ⟨named, since, past, yes⟩
  · rintro ⟨named, since, -, yes⟩
    exact ⟨named, since, Int.le_trans past after, yes⟩

theorem windowed_call {std : Stdlib} {c : Config} (h : Accepted std c)
    (refills : RefillsWhenForgotten c) {w : History} (ok : HistoryOk c w)
    (before : ∀ key s t, s ≤ t → Windowed c w key s t) {key : Bytes} {now : Time}
    (later : w.clock ≤ now) (other : Bytes) {s t : Time} (window : s ≤ t) :
    Windowed c (w.call key now) other s t := by
  have known := before other s t window
  obtain ⟨next, pruned, dropped, charged⟩ :=
    allow_charged key ok.limiter h.loginRate.1 h.loginBurst.1 later
  have poorer : ∀ k time, now ≤ time →
      balance (w.call key now).limiter k time ≤ balance w.limiter k time := by
    intro k time after
    rw [← balance_pruned ok.limiter h.loginRate.1 refills dropped later after k]
    exact charged.never_richer k time after
  have log : allowedIn (w.call key now).log other s t = allowedIn w.log other s t +
      if inWindow other s t ⟨key, now, (w.limiter.allow key now).2⟩ then 1 else 0 :=
    allowedIn_append _ _ _ _ _
  by_cases inside : inWindow other s t ⟨key, now, (w.limiter.allow key now).2⟩ = true
  · obtain ⟨rfl, since, until_, allowed⟩ := inWindow_iff.mp inside
    have atCall := (before key s now since).open_ later
    have spent := charged.charged allowed t until_
    have same := balance_pruned ok.limiter h.loginRate.1 refills dropped later le_rfl key
    have gained : pruned.rate / nanosPerSecond * ((t : ℚ) - now) =
        c.loginAttemptsPerMinute / 60 * seconds (t - now) := by
      rw [(limiterOk_pruned ok.limiter dropped).rate, mul_comm _ (seconds _), seconds_mul]
      push_cast
      rfl
    have left := balance_nonneg h.loginRate.1 h.loginBurst.1 next until_ key
    have count : allowedIn (w.call key now).log key s t = allowedIn w.log key s now + 1 := by
      rw [log, if_pos inside,
        allowedIn_until (fun a member => Int.le_trans (ok.logged a member) later) until_]
    have counted : (allowedIn (w.call key now).log key s t : ℚ) +
        balance (w.limiter.allow key now).1 key t ≤
          c.loginBurst + c.loginAttemptsPerMinute / 60 * seconds (t - s) := by
      rw [count, seconds_split s now t]
      push_cast
      linarith
    exact ⟨by linarith, fun _ => counted⟩
  · have count : allowedIn (w.call key now).log other s t = allowedIn w.log other s t := by
      rw [log, if_neg inside, Nat.add_zero]
    refine ⟨count ▸ known.passed, fun after => ?_⟩
    have now_later : now ≤ t := after
    have less := poorer other t now_later
    rw [count]
    linarith [known.open_ (Int.le_trans later now_later)]

theorem login_limited {std : Stdlib} {c : Config} (h : Accepted std c)
    (refills : RefillsWhenForgotten c) : LoginLimited c := by
  have good : ∀ w, (logins c).Reachable w → HistoryOk c w :=
    fun w reached => reachable_invariant _ (historyOk_invariant h) reached
  have burst : (0 : ℚ) ≤ c.loginBurst := by exact_mod_cast Int.le_trans (by decide) h.loginBurst.1
  have rate : (0 : ℚ) ≤ c.loginAttemptsPerMinute / 60 :=
    div_nonneg (by linarith [h.loginRate.1]) (by decide)
  refine ⟨?_, fun w reached => (good w reached).limiter.size, ?_⟩
  · intro w reached key s t window
    have all : ∀ key s t, s ≤ t → Windowed c w key s t := by
      refine reachable_invariant_using (logins c)
        (P := fun w => ∀ key s t, s ≤ t → Windowed c w key s t) good ?_ ?_ reached
      · rintro w ⟨clock, rfl⟩ key s t window
        have elapsed : 0 ≤ seconds (t - s) :=
          div_nonneg (by exact_mod_cast Int.sub_nonneg.mpr window) (by decide)
        have gained := mul_nonneg rate elapsed
        exact ⟨by simp [allowedIn]; linarith, fun _ => by
          simp [allowedIn, balance, newIPLimiter, empty]; linarith⟩
      · intro w a w' ok before step key s t window
        obtain ⟨later, rfl⟩ := call_of_step step
        exact windowed_call h refills ok before later key window
    exact (all key s t window).passed
  · intro w reached now later before choice key time after
    have early : before ≤ now - minute := by
      rcases List.mem_cons.mp choice with rfl | rest
      · exact le_rfl
      · rw [List.mem_singleton.mp rest]
        exact ten_minutes
    exact le_of_eq (balance_pruned (good w reached).limiter h.loginRate.1 refills
      (pruned_prune early) later after key)

/-- A limiter all of whose buckets were last used at `now`. -/
structure Serving (c : Config) (now : Time) (w : History) : Prop where
  clock : w.clock ≤ now
  burst : w.limiter.burst = c.loginBurst
  maxEntries : w.limiter.maxEntries = c.maxTrackedIPs
  recent : ∀ key entry, w.limiter.entries.lookup key = some entry → entry.last = now

/-- The key has tokens to spend at `now`: in its bucket, or as a new key in a table with room. -/
def CanSpend (l : IPLimiter) (key : Bytes) (now : Time) (tokens : ℚ) : Prop :=
  l.entries.lookup key = some ⟨tokens, now⟩ ∨
    l.entries.lookup key = none ∧ ¬ l.isFull ∧ tokens = l.burst

theorem count_recent {l : IPLimiter} {now : Time}
    (recent : ∀ key entry, l.entries.lookup key = some entry → now - 10 * minute ≤ entry.last) :
    l.count now = { l with calls := l.calls + 1 } := by
  have kept : ∀ key entry, l.entries.lookup key = some entry →
      (!decide (entry.last < now - 10 * minute)) = true := by
    intro key entry found
    have old := recent key entry found
    simpa using old
  simp only [IPLimiter.count, IPLimiter.prune, filter_of_keep kept]
  split <;> rfl

theorem spend_tokens {l : IPLimiter} {key : Bytes} {now : Time} {tokens : ℚ} (enough : 1 ≤ tokens) :
    l.spend key ⟨tokens, now⟩ now = (l.put key ⟨tokens - 1, now⟩, true) := by
  have same : refill l.rate l.burst ⟨tokens, now⟩ now = ⟨tokens, now⟩ :=
    if_neg (Int.lt_irrefl now)
  simp only [IPLimiter.spend, same, if_neg (not_lt.mpr enough)]

theorem allow_recent {l : IPLimiter} {key : Bytes} {now : Time} {tokens : ℚ}
    (recent : ∀ key entry, l.entries.lookup key = some entry → entry.last = now)
    (spends : CanSpend l key now tokens) (enough : 1 ≤ tokens) :
    l.allow key now =
      ({ l with calls := l.calls + 1 }.put key ⟨tokens - 1, now⟩, true) := by
  have counted : l.count now = { l with calls := l.calls + 1 } := by
    refine count_recent fun other entry found => ?_
    rw [recent other entry found]
    exact Int.sub_le_self now (by decide)
  rcases spends with found | ⟨absent, room, rfl⟩
  · simp only [IPLimiter.allow, counted, found]
    exact spend_tokens enough
  · have room_ : ¬ { l with calls := l.calls + 1 }.isFull := room
    simp only [IPLimiter.allow, counted, absent, if_neg room_]
    exact spend_tokens enough

/-- One call with tokens to spend. -/
structure Served (c : Config) (key : Bytes) (now : Time) (count : Nat) (w w' : History) : Prop where
  run : (logins c).exec w (List.replicate count (key, now)) = some w'
  serving : Serving c now w'
  keys : w'.limiter.entries.keys = insert key w.limiter.entries.keys
  others : ∀ other, other ≠ key →
    w'.limiter.entries.lookup other = w.limiter.entries.lookup other
  log : w'.log = w.log ++ List.replicate count ⟨key, now, true⟩

theorem served_call {c : Config} {key : Bytes} {now : Time} {tokens : ℚ} {w : History}
    (h : Serving c now w) (spends : CanSpend w.limiter key now tokens) (enough : 1 ≤ tokens) :
    Served c key now 1 w (w.call key now) ∧
      (w.call key now).limiter.entries.lookup key = some ⟨tokens - 1, now⟩ := by
  have result := allow_recent h.recent spends enough
  have limiter : (w.call key now).limiter =
      { w.limiter with calls := w.limiter.calls + 1 }.put key ⟨tokens - 1, now⟩ := by
    simp only [History.call, result]
  have step : (logins c).step w (key, now) = some (w.call key now) := if_pos h.clock
  refine ⟨⟨?_, ⟨le_rfl, ?_, ?_, ?_⟩, ?_, ?_, ?_⟩, ?_⟩
  · exact (exec_cons_iff _).mpr ⟨_, step, rfl⟩
  · rw [limiter]
    exact h.burst
  · rw [limiter]
    exact h.maxEntries
  · intro other entry found
    rw [limiter] at found
    by_cases e : other = key
    · subst other
      rw [put_self] at found
      cases found
      rfl
    · rw [put_other e] at found
      exact h.recent other entry found
  · rw [limiter]
    rfl
  · intro other different
    rw [limiter]
    exact put_other different
  · simp only [History.call, result]
    rfl
  · rw [limiter]
    exact put_self _ _ _

/-- A key spends all it has at one time. -/
theorem served_burst {c : Config} {key : Bytes} {now : Time} (count : Nat) {tokens : ℚ}
    {w : History} (h : Serving c now w) (spends : CanSpend w.limiter key now tokens)
    (enough : (count : ℚ) + 1 ≤ tokens) : ∃ w', Served c key now (count + 1) w w' := by
  induction count generalizing w tokens with
  | zero => exact ⟨_, (served_call h spends (by simpa using enough)).1⟩
  | succ count ih =>
    push_cast at enough
    have counted : (0 : ℚ) ≤ count := Nat.cast_nonneg count
    obtain ⟨first, found⟩ := served_call h spends (by linarith)
    obtain ⟨w', rest⟩ := ih first.serving (Or.inl found) (by linarith)
    refine ⟨w', exec_append _ first.run rest.run, rest.serving, ?_, ?_, ?_⟩
    · rw [rest.keys, first.keys, Finset.insert_idem]
    · intro other different
      rw [rest.others other different, first.others other different]
    · rw [rest.log, first.log, List.append_assoc]
      rfl

def address (i : Nat) : Bytes := List.replicate i 48

theorem address_injective : Function.Injective address := by
  intro i j same
  simpa [address] using congrArg List.length same

def addresses (count : Nat) : Finset Bytes := (Finset.range count).image address

theorem card_addresses (count : Nat) : (addresses count).card = count := by
  rw [addresses, Finset.card_image_of_injective _ address_injective, Finset.card_range]

theorem mem_addresses {i count : Nat} : address i ∈ addresses count ↔ i < count := by
  simp [addresses, address_injective.eq_iff]

theorem addresses_succ (count : Nat) :
    addresses (count + 1) = insert (address count) (addresses count) := by
  rw [addresses, Finset.range_add_one, Finset.image_insert]
  rfl

theorem lookup_none_of_keys {l : IPLimiter} {key : Bytes} (absent : key ∉ l.entries.keys) :
    l.entries.lookup key = none := by
  rw [l.entries.mem_keys] at absent
  simpa using absent

theorem new_can_spend {c : Config} {now : Time} {w : History} {count : Nat} (h : Serving c now w)
    (keys : w.limiter.entries.keys = addresses count) (room : (count : Int) < c.maxTrackedIPs) :
    CanSpend w.limiter (address count) now c.loginBurst := by
  refine Or.inr ⟨lookup_none_of_keys ?_, ?_, h.burst.symm⟩
  · rw [keys, mem_addresses]
    exact Nat.lt_irrefl count
  · rw [IPLimiter.isFull, h.maxEntries, Table.size, keys, card_addresses]
    exact Int.not_le.mpr room

/-- One call each from new addresses fills the table. -/
theorem filled {std : Stdlib} {c : Config} (h : Accepted std c) {now : Time} {w : History}
    (start : Serving c now w) (keys : w.limiter.entries.keys = addresses 1) (count : Nat)
    (room : (count : Int) + 1 ≤ c.maxTrackedIPs) :
    ∃ w' actions more, (logins c).exec w actions = some w' ∧ Serving c now w' ∧
      w'.limiter.entries.keys = addresses (count + 1) ∧ w'.log = w.log ++ more := by
  induction count with
  | zero => exact ⟨w, [], [], rfl, start, keys, (List.append_nil _).symm⟩
  | succ count ih =>
    push_cast at room
    obtain ⟨w', actions, more, run, serving, filled_, log⟩ := ih (by omega)
    have burst : (1 : ℚ) ≤ c.loginBurst := by exact_mod_cast h.loginBurst.1
    have spends := new_can_spend serving filled_ (by push_cast; omega)
    obtain ⟨next, -⟩ := served_call serving spends burst
    have keys_ : (w'.call (address (count + 1)) now).limiter.entries.keys =
        addresses (count + 2) := by
      rw [next.keys, filled_, ← addresses_succ]
    have log_ := next.log
    rw [log, List.append_assoc] at log_
    exact ⟨_, _, _, exec_append _ run next.run, next.serving, keys_, log_⟩

/-- A new address in a full table whose buckets all are a minute old empties it. -/
theorem forgotten {std : Stdlib} {c : Config} (h : Accepted std c) {w : History} {count : Nat}
    (start : Serving c 0 w) (keys : w.limiter.entries.keys = addresses count)
    (full : (count : Int) = c.maxTrackedIPs) :
    ∃ w' more, (logins c).step w (address count, minute + 1) = some w' ∧
      Serving c (minute + 1) w' ∧ w'.limiter.entries.keys = {address count} ∧
      w'.log = w.log ++ more := by
  have counted : w.limiter.count (minute + 1) =
      { w.limiter with calls := w.limiter.calls + 1 } := by
    refine count_recent fun other entry found => ?_
    rw [start.recent other entry found]
    decide
  have absent : w.limiter.entries.lookup (address count) = none := by
    refine lookup_none_of_keys ?_
    rw [keys, mem_addresses]
    exact Nat.lt_irrefl count
  have isFull : { w.limiter with calls := w.limiter.calls + 1 }.isFull := by
    rw [IPLimiter.isFull, Table.size, keys, card_addresses, start.maxEntries]
    exact Int.le_of_eq full.symm
  have dropped : w.limiter.entries.filter
      (fun entry => !decide (entry.last < minute + 1 - minute)) = empty := by
    refine filter_of_drop fun other entry found => ?_
    rw [start.recent other entry found]
    decide
  have room : ¬ { w.limiter with calls := w.limiter.calls + 1, entries := empty }.isFull := by
    rw [IPLimiter.isFull, start.maxEntries]
    exact Int.not_le.mpr (Int.lt_of_lt_of_le (by decide : ((0 : Nat) : Int) < 100) h.trackedIPs.1)
  have burst : 1 ≤ w.limiter.burst := by
    rw [start.burst]
    exact_mod_cast h.loginBurst.1
  have result : w.limiter.allow (address count) (minute + 1) =
      ({ w.limiter with calls := w.limiter.calls + 1, entries := empty }.put (address count)
        ⟨w.limiter.burst - 1, minute + 1⟩, true) := by
    simp only [IPLimiter.allow, counted, absent, if_pos isFull, IPLimiter.prune, dropped,
      if_neg room]
    exact spend_tokens burst
  have step : (logins c).step w (address count, minute + 1) =
      some (w.call (address count) (minute + 1)) :=
    if_pos (Int.le_trans start.clock (by decide : (0 : Int) ≤ minute + 1))
  refine ⟨_, [⟨address count, minute + 1, true⟩], step, ⟨le_rfl, ?_, ?_, ?_⟩, ?_, ?_⟩
  all_goals simp only [History.call, result]
  · exact start.burst
  · exact start.maxEntries
  · intro other entry found
    by_cases e : other = address count
    · subst other
      rw [put_self] at found
      cases found
      rfl
    · rw [put_other e] at found
      cases found
  · rfl

/-- The run that breaks the limit: one address spends its burst, the table fills up, a minute
   later it is emptied, and the address spends its burst again. -/
theorem two_bursts {std : Stdlib} {c : Config} (h : Accepted std c) :
    ∃ w, (logins c).Reachable w ∧
      2 * c.loginBurst ≤ (allowedIn w.log (address 0) 0 (minute + 1) : Int) := by
  have least := h.loginBurst.1
  have places := h.trackedIPs.1
  obtain ⟨n, burst⟩ : ∃ n : Nat, c.loginBurst = n + 1 := ⟨(c.loginBurst - 1).toNat, by omega⟩
  obtain ⟨m, tracked⟩ : ∃ m : Nat, c.maxTrackedIPs = m + 1 :=
    ⟨(c.maxTrackedIPs - 1).toNat, by omega⟩
  have enough : (n : ℚ) + 1 ≤ c.loginBurst := by
    rw [burst]
    push_cast
    exact le_rfl
  let start : History := ⟨newIPLimiter c.loginAttemptsPerMinute c.loginBurst c.maxTrackedIPs, 0, []⟩
  have begun : Serving c 0 start := ⟨le_rfl, rfl, rfl, fun _ _ found => by cases found⟩
  have fresh : CanSpend start.limiter (address 0) 0 c.loginBurst :=
    new_can_spend begun rfl (by push_cast; omega)
  obtain ⟨w₁, first⟩ := served_burst n begun fresh enough
  obtain ⟨w₂, others, more, fill, serving, keys, log⟩ :=
    filled h first.serving first.keys m (by omega)
  obtain ⟨w₃, rest, dropped, serving_, keys_, log_⟩ :=
    forgotten h serving keys (by push_cast; omega)
  have again : CanSpend w₃.limiter (address 0) (minute + 1) c.loginBurst := by
    refine Or.inr ⟨lookup_none_of_keys ?_, ?_, serving_.burst.symm⟩
    · rw [keys_, Finset.mem_singleton, address_injective.eq_iff]
      exact (Nat.succ_ne_zero m).symm
    · rw [IPLimiter.isFull, serving_.maxEntries, Table.size, keys_, Finset.card_singleton]
      omega
  obtain ⟨w₄, second⟩ := served_burst n serving_ again enough
  have run := exec_append _ (exec_append _ (exec_append _ first.run fill)
    ((exec_cons_iff _).mpr ⟨w₃, dropped, exec_nil _ w₃⟩)) second.run
  refine ⟨w₄, ⟨start, _, ⟨0, rfl⟩, run⟩, ?_⟩
  rw [second.log, log_, log, first.log]
  simp only [allowedIn, List.countP_append, List.countP_replicate, start]
  have early : inWindow (address 0) 0 (minute + 1) ⟨address 0, 0, true⟩ = true := by decide
  have late : inWindow (address 0) 0 (minute + 1) ⟨address 0, minute + 1, true⟩ = true := by decide
  rw [if_pos early, if_pos late]
  push_cast
  omega

theorem not_login_limited {std : Stdlib} {c : Config} (h : Accepted std c)
    (short : ¬ RefillsWhenForgotten c) : ¬ LoginLimited c := by
  intro limited
  obtain ⟨w, reached, twice⟩ := two_bursts h
  have bound := limited.bounded w reached (address 0) 0 (minute + 1) (by decide)
  have twice_ : 2 * (c.loginBurst : ℚ) ≤ allowedIn w.log (address 0) 0 (minute + 1) := by
    exact_mod_cast twice
  rw [RefillsWhenForgotten, not_le] at short
  rw [Int.sub_zero] at bound
  linarith

/-- The table is bounded whatever the configuration. The documented limit holds exactly of
   the configurations whose rate refills the burst in the least time after which a full
   table forgets a bucket. -/
theorem login_limit (std : Stdlib) (c : Config) (accepted : c.validate std = .ok ()) :
    (LoginLimited c ↔ RefillsWhenForgotten c) ∧
      ∀ w, (logins c).Reachable w → (w.limiter.entries.size : Int) ≤ c.maxTrackedIPs := by
  have h := validate_ok_iff.mp accepted
  refine ⟨⟨fun limited => ?_, login_limited h⟩, fun w reached =>
    (reachable_invariant _ (historyOk_invariant h) reached).limiter.size⟩
  by_contra short
  exact not_login_limited h short limited

theorem login_limit_example :
    exampleConfig.validate exampleStdlib = .ok () ∧ LoginLimited exampleConfig := by
  have refills : RefillsWhenForgotten exampleConfig := by
    norm_num [RefillsWhenForgotten, exampleConfig, seconds, minute, nanosPerSecond]
  exact ⟨exampleConfig_accepted,
    (login_limit exampleStdlib exampleConfig exampleConfig_accepted).1.mpr refills⟩

/-- The least rate with the largest burst. -/
def slowConfig : Config :=
  { exampleConfig with loginAttemptsPerMinute := 1, loginBurst := 100, maxTrackedIPs := 100 }

theorem slowConfig_accepted : slowConfig.validate exampleStdlib = .ok () := by
  have example_ := validate_ok_iff.mp exampleConfig_accepted
  exact validate_ok_iff.mpr { example_ with
    loginRate := by decide
    loginBurst := by decide
    trackedIPs := by decide }

/-- Two hundred logins of one address in a minute that allows 101. -/
theorem login_limit_exceeded :
    slowConfig.validate exampleStdlib = .ok () ∧ ∃ w, (logins slowConfig).Reachable w ∧
      (slowConfig.loginBurst : ℚ) + slowConfig.loginAttemptsPerMinute / 60 *
        seconds (minute + 1 - 0) < (allowedIn w.log (address 0) 0 (minute + 1) : ℚ) := by
  obtain ⟨w, reached, twice⟩ := two_bursts (validate_ok_iff.mp slowConfig_accepted)
  have many : (200 : Int) ≤ (allowedIn w.log (address 0) 0 (minute + 1) : Int) := twice
  have many_ : (200 : ℚ) ≤ allowedIn w.log (address 0) 0 (minute + 1) := by exact_mod_cast many
  have few : (slowConfig.loginBurst : ℚ) + slowConfig.loginAttemptsPerMinute / 60 *
      seconds (minute + 1 - 0) < 102 := by
    norm_num [slowConfig, seconds, minute, nanosPerSecond]
  exact ⟨slowConfig_accepted, w, reached, by linarith⟩

end RelayLimiter
