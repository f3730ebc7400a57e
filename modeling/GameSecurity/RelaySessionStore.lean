import GameSecurity.Runs
import GameSecurity.RelaySession
import GameSecurity.RelayAuth
import GameSecurity.FiniteTable

/- The session map behind `sessionsMu`. An operation is one section under the mutex, the
   revocations of what it took out of the map, and its return. -/
namespace RelaySessionStore
open Runs RelayRoom RelaySession RelayAuth FiniteTable

abbrev SessionId := Nat
abbrev CallId := Nat

/-- Keyed by the digests of the cookies' tokens. -/
abbrev Sessions := Table Digest SessionId

structure StoreConfig where
  maxSessions : Nat
  sessionTTL : Int

inductive Answer where
  | created (s : SessionId)
  | sessionCapacity
  | deleted
  | authenticated (s : SessionId)
  | unauthenticated
  | pruned
  deriving DecidableEq, Repr

/-- What a section leaves in the map, and the sessions it took out to be revoked. -/
structure Section where
  sessions : Sessions
  revokes : Finset SessionId
  answer : Answer

def pruneSessionsLocked (heap : SessionId → Session) (sessions : Sessions) (now : Time) :
    Sessions × Finset SessionId :=
  (sessions.filter fun s => (heap s).valid now,
    (sessions.filter fun s => !(heap s).valid now).values)

/-- The map without the session a cookie names, and that session. -/
def takeNamed (sum : Bytes → Digest) (sessions : Sessions) :
    Option Bytes → Sessions × Option SessionId
  | none => (sessions, none)
  | some value => (sessions.erase (sum value), sessions.lookup (sum value))

/-- The section of handleCreateSession; `next` is the session object it would insert. -/
def createSection (config : StoreConfig) (sum : Bytes → Digest) (heap : SessionId → Session)
    (sessions : Sessions) (next : SessionId) (now : Time) (cookie : Option Bytes)
    (token : Bytes) : Section :=
  let (pruned, expired) := pruneSessionsLocked heap sessions now
  let (kept, replaced) := takeNamed sum pruned cookie
  if config.maxSessions ≤ kept.size then ⟨kept, expired ∪ replaced.toFinset, .sessionCapacity⟩
  else ⟨kept.insert (sum token) next, expired ∪ replaced.toFinset, .created next⟩

def deleteSection (sum : Bytes → Digest) (sessions : Sessions) (cookie : Option Bytes) : Section :=
  let (kept, named) := takeNamed sum sessions cookie
  ⟨kept, named.toFinset, .deleted⟩

/-- A cookie that is absent or malformed never reaches the map. -/
def authenticateSection (sum : Bytes → Digest) (heap : SessionId → Session) (sessions : Sessions)
    (now : Time) (cookie : Option Bytes) : Section :=
  match cookie with
  | none => ⟨sessions, ∅, .unauthenticated⟩
  | some value =>
    if ¬ validPresentedToken value then ⟨sessions, ∅, .unauthenticated⟩
    else
      match sessions.lookup (sum value) with
      | none => ⟨sessions, ∅, .unauthenticated⟩
      | some current =>
        if (heap current).valid now then ⟨sessions, ∅, .authenticated current⟩
        else ⟨sessions.erase (sum value), {current}, .unauthenticated⟩

def pruneSection (heap : SessionId → Session) (sessions : Sessions) (now : Time) : Section :=
  let (pruned, expired) := pruneSessionsLocked heap sessions now
  ⟨pruned, expired, .pruned⟩

/-- The history of one operation: what it was given and the map before its section. -/
structure Record where
  now : Time
  cookie : Option Bytes
  token : Option Bytes
  before : Sessions
  done : Section

inductive Call where
  | idle
  | revoking (record : Record) (left : Finset SessionId)
  | returned (record : Record)

/- `clock` is the latest time any operation has read. -/
structure Store where
  sessions : Sessions
  heap : SessionId → Session
  next : SessionId
  clock : Time
  calls : CallId → Call

/-- The session's side of `revokeAt`; which connections it closes is not the store's. -/
def revoked (s : Session) : Session :=
  match s.revoke fun _ => ⟨none⟩ with
  | none => s
  | some (session, _) => session

def Store.enter (w : Store) (k : CallId) (now : Time) (cookie token : Option Bytes)
    (done : Section) : Store :=
  { w with
    sessions := done.sessions, clock := now
    calls := Function.update w.calls k
      (.revoking ⟨now, cookie, token, w.sessions, done⟩ done.revokes) }

inductive Act where
  | create (k : CallId) (now : Time) (cookie : Option Bytes) (token : Bytes) (room : RoomId)
  | delete (k : CallId) (cookie : Option Bytes)
  | authenticate (k : CallId) (now : Time) (cookie : Option Bytes)
  | prune (k : CallId) (now : Time)
  | revoke (k : CallId) (s : SessionId)
  | finish (k : CallId)
  | expire (s : SessionId) (now : Time)
  deriving DecidableEq, Repr

def Call.isIdle : Call → Bool
  | .idle => true
  | _ => false

def step (config : StoreConfig) (sum : Bytes → Digest) (w : Store) : Act → Option Store
  -- the generated token is fresh: no session of the map has its digest
  | .create k now cookie token room =>
    if (w.calls k).isIdle = true ∧ w.clock ≤ now ∧ w.sessions.lookup (sum token) = none then
      let done := createSection config sum w.heap w.sessions w.next now cookie token
      match done.answer with
      | .created _ =>
        some { w.enter k now cookie (some token) done with
          heap := Function.update w.heap w.next (newSession room (now + config.sessionTTL))
          next := w.next + 1 }
      | _ => some (w.enter k now cookie (some token) done)
    else none
  | .delete k cookie =>
    if (w.calls k).isIdle = true then
      some (w.enter k w.clock cookie none (deleteSection sum w.sessions cookie))
    else none
  | .authenticate k now cookie =>
    if (w.calls k).isIdle = true ∧ w.clock ≤ now then
      some (w.enter k now cookie none (authenticateSection sum w.heap w.sessions now cookie))
    else none
  | .prune k now =>
    if (w.calls k).isIdle = true ∧ w.clock ≤ now then
      some (w.enter k now none none (pruneSection w.heap w.sessions now))
    else none
  | .revoke k s =>
    match w.calls k with
    | .revoking record left =>
      if s ∈ left then
        some { w with
          heap := Function.update w.heap s (revoked (w.heap s))
          calls := Function.update w.calls k (.revoking record (left.erase s)) }
      else none
    | _ => none
  | .finish k =>
    match w.calls k with
    | .revoking record left =>
      if left = ∅ then some { w with calls := Function.update w.calls k (.returned record) }
      else none
    | _ => none
  -- the expiry timer of a viewer's writer
  | .expire s now =>
    if s < w.next ∧ w.clock ≤ now ∧ (w.heap s).expiresAt ≤ now then
      some { w with heap := Function.update w.heap s (revoked (w.heap s)), clock := now }
    else none

def emptyStore (clock : Time) : Store :=
  ⟨empty, fun _ => newSession [] 0, 0, clock, fun _ => .idle⟩

def store (config : StoreConfig) (sum : Bytes → Digest) : Machine Store Act where
  init w := ∃ clock, w = emptyStore clock
  step := step config sum

theorem revoked_fields (s : Session) :
    (revoked s).revoked = true ∧ (revoked s).expiresAt = s.expiresAt := by
  unfold revoked
  split
  · rename_i already
    unfold Session.revoke at already
    split at already
    · rename_i set
      exact ⟨set, rfl⟩
    · cases already
  · rename_i session conns ok
    obtain ⟨-, rfl, -⟩ := revoke_some_iff.mp ok
    exact ⟨rfl, rfl⟩

/-- A section without an insertion: what leaves the map is handed over for revocation. -/
structure Leaves (before after : Sessions) (revokes : Finset SessionId) : Prop where
  kept : ∀ d s, after.lookup d = some s → before.lookup d = some s
  removed : ∀ d s, before.lookup d = some s → after.lookup d = some s ∨ s ∈ revokes
  took : ∀ s ∈ revokes, ∃ d, before.lookup d = some s ∧ after.lookup d = none
  size : after.size ≤ before.size

theorem leaves_refl (sessions : Sessions) : Leaves sessions sessions ∅ :=
  ⟨fun _ _ => id, fun _ _ => Or.inl, by simp, Nat.le_refl _⟩

theorem leaves_trans {before mid after : Sessions} {first second : Finset SessionId}
    (left : Leaves before mid first) (right : Leaves mid after second) :
    Leaves before after (first ∪ second) where
  kept d s found := left.kept d s (right.kept d s found)
  removed d s found := by
    rcases left.removed d s found with stays | goes
    · exact (right.removed d s stays).imp_right (Finset.mem_union_right _)
    · exact Or.inr (Finset.mem_union_left _ goes)
  took s member := by
    rcases Finset.mem_union.mp member with early | late
    · obtain ⟨d, found, gone⟩ := left.took s early
      refine ⟨d, found, ?_⟩
      rw [Option.eq_none_iff_forall_ne_some]
      intro x again
      rw [right.kept d x again] at gone
      cases gone
    · obtain ⟨d, found, gone⟩ := right.took s late
      exact ⟨d, left.kept d s found, gone⟩
  size := right.size.trans left.size

theorem leaves_prune (heap : SessionId → Session) (sessions : Sessions) (now : Time) :
    Leaves sessions (pruneSessionsLocked heap sessions now).1
      (pruneSessionsLocked heap sessions now).2 where
  kept d s found := (lookup_filter_iff.mp found).1
  removed d s found := by
    cases valid : (heap s).valid now with
    | true => exact Or.inl (lookup_filter_iff.mpr ⟨found, valid⟩)
    | false => exact Or.inr (mem_values.mpr ⟨d, lookup_filter_iff.mpr ⟨found, by simp [valid]⟩⟩)
  took s member := by
    obtain ⟨d, found⟩ := mem_values.mp member
    obtain ⟨found, invalid⟩ := lookup_filter_iff.mp found
    refine ⟨d, found, ?_⟩
    rw [Option.eq_none_iff_forall_ne_some]
    intro x kept
    obtain ⟨again, valid⟩ := lookup_filter_iff.mp kept
    rw [found, Option.some.injEq] at again
    subst x
    simp [valid] at invalid
  size := size_filter_le _ _

theorem pruned_invalid {heap : SessionId → Session} {sessions : Sessions} {now : Time}
    {s : SessionId} (member : s ∈ (pruneSessionsLocked heap sessions now).2) :
    (∃ d, sessions.lookup d = some s) ∧ (heap s).valid now = false := by
  obtain ⟨d, found⟩ := mem_values.mp member
  obtain ⟨found, invalid⟩ := lookup_filter_iff.mp found
  exact ⟨⟨d, found⟩, by simpa using invalid⟩

theorem leaves_take (sum : Bytes → Digest) (sessions : Sessions) (cookie : Option Bytes) :
    Leaves sessions (takeNamed sum sessions cookie).1
      (takeNamed sum sessions cookie).2.toFinset := by
  cases cookie with
  | none => exact leaves_refl sessions
  | some value =>
    refine ⟨fun d s found => (lookup_erase_some found).2, fun d s found => ?_,
      fun s member => ?_, size_erase_le _ _⟩
    · by_cases e : d = sum value
      · exact Or.inr (by simpa [takeNamed, ← e] using found)
      · exact Or.inl (by simpa [takeNamed, e] using found)
    · exact ⟨sum value, by simpa [takeNamed] using member, by simp [takeNamed]⟩

theorem take_names {sum : Bytes → Digest} {sessions : Sessions} {cookie : Option Bytes}
    {d : Digest} {s : SessionId} (found : sessions.lookup d = some s) :
    (takeNamed sum sessions cookie).1.lookup d = some s ∨
      ∃ value, cookie = some value ∧ d = sum value := by
  cases cookie with
  | none => exact Or.inl found
  | some value =>
    by_cases e : d = sum value
    · exact Or.inr ⟨value, rfl, e⟩
    · exact Or.inl (by simpa [takeNamed, e] using found)

theorem take_size {sum : Bytes → Digest} {sessions : Sessions} {cookie : Option Bytes}
    {s : SessionId} (named : (takeNamed sum sessions cookie).2 = some s) :
    (takeNamed sum sessions cookie).1.size < sessions.size := by
  cases cookie with
  | none => cases named
  | some value => exact size_erase_lt named

/-- A session that a create may not touch is live at the time it read. -/
def Live (w : Store) (now : Time) (s : SessionId) : Prop := now < (w.heap s).expiresAt

structure Created (config : StoreConfig) (sum : Bytes → Digest) (w : Store) (r : Record)
    (s : SessionId) : Prop where
  own : ∃ token, r.token = some token ∧ r.before.lookup (sum token) = none ∧
    r.done.sessions.lookup (sum token) = some s ∧
    ∀ d x, d ≠ sum token → r.done.sessions.lookup d = some x → r.before.lookup d = some x
  new : ∀ d, r.before.lookup d ≠ some s
  expires : (w.heap s).expiresAt = r.now + config.sessionTTL
  removes : ∀ d x, r.before.lookup d = some x → r.done.sessions.lookup d = some x ∨
    ¬ Live w r.now x ∨ ∃ value, r.cookie = some value ∧ d = sum value

structure RecordOk (config : StoreConfig) (sum : Bytes → Digest) (w : Store) (r : Record) :
    Prop where
  born : ∀ d s, r.before.lookup d = some s → s < w.next
  revokes : ∀ s ∈ r.done.revokes, ∃ d, r.before.lookup d = some s
  removed : ∀ d s, r.before.lookup d = some s →
    r.done.sessions.lookup d = some s ∨ s ∈ r.done.revokes
  capacity : r.done.answer = .sessionCapacity → ∀ s ∈ r.done.revokes, ¬ Live w r.now s
  created : ∀ s, r.done.answer = .created s → s < w.next ∧ Created config sum w r s

def CallOk (config : StoreConfig) (sum : Bytes → Digest) (w : Store) : Call → Prop
  | .idle => True
  | .revoking r left => RecordOk config sum w r ∧
    (∀ s ∈ r.done.revokes, s ∈ left ∨ (w.heap s).revoked = true) ∧
    ∀ s ∈ left, s < w.next ∧ ∀ d, w.sessions.lookup d ≠ some s
  | .returned r => RecordOk config sum w r ∧
    ∀ s ∈ r.done.revokes, (w.heap s).revoked = true

structure StoreOk (config : StoreConfig) (sum : Bytes → Digest) (w : Store) : Prop where
  size : w.sessions.size ≤ config.maxSessions
  born : ∀ d s, w.sessions.lookup d = some s → s < w.next
  distinct : ∀ d e s, w.sessions.lookup d = some s → w.sessions.lookup e = some s → d = e
  expired : ∀ d s, w.sessions.lookup d = some s → (w.heap s).revoked = true →
    ¬ Live w w.clock s
  calls : ∀ k, CallOk config sum w (w.calls k)

/-- What a step keeps of the session objects there are. -/
structure HeapKept (w next : Store) : Prop where
  grows : w.next ≤ next.next
  expires : ∀ s, s < w.next → (next.heap s).expiresAt = (w.heap s).expiresAt
  revoked : ∀ s, s < w.next → (w.heap s).revoked = true → (next.heap s).revoked = true

theorem recordOk_kept {config : StoreConfig} {sum : Bytes → Digest} {w next : Store} {r : Record}
    (kept : HeapKept w next) (h : RecordOk config sum w r) : RecordOk config sum next r where
  born d s found := (h.born d s found).trans_le kept.grows
  revokes := h.revokes
  removed := h.removed
  capacity full s member := by
    obtain ⟨d, found⟩ := h.revokes s member
    unfold Live
    rw [kept.expires s (h.born d s found)]
    exact h.capacity full s member
  created s answer := by
    obtain ⟨born, made⟩ := h.created s answer
    refine ⟨born.trans_le kept.grows, made.own, made.new, ?_, fun d x found => ?_⟩
    · rw [kept.expires s born]
      exact made.expires
    · unfold Live
      rw [kept.expires x (h.born d x found)]
      exact made.removes d x found

theorem callOk_kept {config : StoreConfig} {sum : Bytes → Digest} {w next : Store} {call : Call}
    (kept : HeapKept w next)
    (entries : ∀ d s, next.sessions.lookup d = some s →
      w.sessions.lookup d = some s ∨ w.next ≤ s)
    (h : CallOk config sum w call) : CallOk config sum next call := by
  cases call with
  | idle => trivial
  | revoking r left =>
    obtain ⟨record, pending, out⟩ := h
    refine ⟨recordOk_kept kept record, fun s member => ?_, fun s member => ?_⟩
    · obtain ⟨d, found⟩ := record.revokes s member
      exact (pending s member).imp_right (kept.revoked s (record.born d s found))
    · obtain ⟨born, absent⟩ := out s member
      refine ⟨born.trans_le kept.grows, fun d found => ?_⟩
      rcases entries d s found with old | new
      · exact absent d old
      · exact absurd born (Nat.not_lt.mpr new)
  | returned r =>
    obtain ⟨record, done⟩ := h
    refine ⟨recordOk_kept kept record, fun s member => ?_⟩
    obtain ⟨d, found⟩ := record.revokes s member
    exact kept.revoked s (record.born d s found) (done s member)

theorem calls_update {config : StoreConfig} {sum : Bytes → Digest} {w : Store}
    {calls : CallId → Call} (others : ∀ k, CallOk config sum w (calls k)) {k : CallId}
    {call : Call} (own : CallOk config sum w call) (j : CallId) :
    CallOk config sum w (Function.update calls k call j) := by
  by_cases e : j = k
  · subst j
    rwa [Function.update_self]
  · rw [Function.update_of_ne e]
    exact others j

/-- A section that inserts nothing, followed by its own call's pending revocations. -/
theorem storeOk_enter {config : StoreConfig} {sum : Bytes → Digest} {w : Store} {k : CallId}
    {now : Time} {cookie token : Option Bytes} {done : Section} (h : StoreOk config sum w)
    (later : w.clock ≤ now) (leaves : Leaves w.sessions done.sessions done.revokes)
    (capacity : done.answer = .sessionCapacity → ∀ s ∈ done.revokes, ¬ Live w now s)
    (inserts : ∀ s, done.answer ≠ .created s) :
    StoreOk config sum (w.enter k now cookie token done) := by
  have kept : HeapKept w (w.enter k now cookie token done) :=
    ⟨Nat.le_refl _, fun _ _ => rfl, fun _ _ => id⟩
  have others : ∀ j, CallOk config sum (w.enter k now cookie token done) (w.calls j) := fun j =>
    callOk_kept kept (fun d s found => Or.inl (leaves.kept d s found)) (h.calls j)
  have gone : ∀ s ∈ done.revokes, ∀ d, done.sessions.lookup d ≠ some s := by
    intro s member d found
    obtain ⟨e, before, none⟩ := leaves.took s member
    rw [h.distinct e d s before (leaves.kept d s found), found] at none
    cases none
  have own : CallOk config sum (w.enter k now cookie token done)
      (.revoking ⟨now, cookie, token, w.sessions, done⟩ done.revokes) := by
    refine ⟨⟨h.born, fun s member => ?_, leaves.removed, capacity, fun s made => ?_⟩,
      fun s => Or.inl, fun s member => ⟨?_, gone s member⟩⟩
    · obtain ⟨d, found, -⟩ := leaves.took s member
      exact ⟨d, found⟩
    · exact absurd made (inserts s)
    · obtain ⟨d, found, -⟩ := leaves.took s member
      exact h.born d s found
  refine ⟨leaves.size.trans h.size, ?_, ?_, ?_, calls_update others own⟩
  · exact fun d s found => h.born d s (leaves.kept d s found)
  · intro d e s first second
    exact h.distinct d e s (leaves.kept d s first) (leaves.kept e s second)
  · intro d s found revoked live
    exact h.expired d s (leaves.kept d s found) revoked (Int.lt_of_le_of_lt later live)

/-- In the map only the clock makes a session invalid. -/
theorem invalid_expired {config : StoreConfig} {sum : Bytes → Digest} {w : Store} {now : Time}
    {d : Digest} {s : SessionId} (h : StoreOk config sum w) (later : w.clock ≤ now)
    (found : w.sessions.lookup d = some s) (invalid : (w.heap s).valid now = false) :
    ¬ Live w now s := by
  intro live
  have revoked : (w.heap s).revoked = true := by
    cases alive : (w.heap s).revoked with
    | true => rfl
    | false =>
      have valid := valid_iff.mpr ⟨alive, live⟩
      rw [valid] at invalid
      cases invalid
  exact h.expired d s found revoked (Int.lt_of_le_of_lt later live)

/-- What the insertion of a new session under `key` leaves. -/
structure Insertion (config : StoreConfig) (w next : Store) (now : Time) (key : Digest)
    (kept : Sessions) : Prop where
  older : ∀ s, s < w.next → next.heap s = w.heap s
  unrevoked : (next.heap w.next).revoked = false
  expires : (next.heap w.next).expiresAt = now + config.sessionTTL
  count : next.next = w.next + 1
  clock : next.clock = now
  sessions : next.sessions = kept.insert key w.next

section insertion
variable {config : StoreConfig} {sum : Bytes → Digest} {w next : Store} {now : Time}
  {key : Digest} {kept : Sessions} {revokes : Finset SessionId} {cookie : Option Bytes}
  {token : Bytes}

theorem insertion_bound (ins : Insertion config w next now key kept) : w.next < next.next := by
  rw [ins.count]
  exact Nat.lt_succ_self _

/-- An entry of the map is the new one or one that was kept. -/
theorem insertion_lookup (h : StoreOk config sum w) (leaves : Leaves w.sessions kept revokes)
    {d : Digest} {s : SessionId} (found : (kept.insert key w.next).lookup d = some s) :
    d = key ∧ s = w.next ∨ d ≠ key ∧ kept.lookup d = some s ∧ w.sessions.lookup d = some s ∧
      s < w.next := by
  rcases lookup_insert_some found with new | ⟨other, old⟩
  · exact Or.inl new
  · have before := leaves.kept d s old
    exact Or.inr ⟨other, old, before, h.born d s before⟩

theorem insertion_heapKept (ins : Insertion config w next now key kept) : HeapKept w next where
  grows := Nat.le_of_lt (insertion_bound ins)
  expires s born := by rw [ins.older s born]
  revoked s born := by
    rw [ins.older s born]
    exact id

theorem insertion_live (ins : Insertion config w next now key kept) {s : SessionId}
    (born : s < w.next) : Live next now s ↔ Live w now s := by
  unfold Live
  rw [ins.older s born]

theorem insertion_record (h : StoreOk config sum w)
    (ins : Insertion config w next now (sum token) kept)
    (fresh : w.sessions.lookup (sum token) = none) (leaves : Leaves w.sessions kept revokes)
    (removes : ∀ d s, w.sessions.lookup d = some s → kept.lookup d = some s ∨
      ¬ Live w now s ∨ ∃ value, cookie = some value ∧ d = sum value) :
    RecordOk config sum next ⟨now, cookie, some token, w.sessions,
      ⟨kept.insert (sum token) w.next, revokes, .created w.next⟩⟩ := by
  have other : ∀ d s, w.sessions.lookup d = some s → d ≠ sum token := by
    intro d s found e
    rw [e, fresh] at found
    cases found
  refine ⟨fun d s found => ?_, fun s member => ?_, fun d s found => ?_, by simp, fun s made => ?_⟩
  · exact (h.born d s found).trans (insertion_bound ins)
  · obtain ⟨d, found, -⟩ := leaves.took s member
    exact ⟨d, found⟩
  · rw [lookup_insert_of_ne (other d s found)]
    exact leaves.removed d s found
  · simp only [Answer.created.injEq] at made
    subst s
    refine ⟨insertion_bound ins, ⟨token, rfl, fresh, lookup_insert_self _ _ _, ?_⟩, ?_,
      ins.expires, ?_⟩
    · intro d x other found
      rw [lookup_insert_of_ne other] at found
      exact leaves.kept d x found
    · exact fun d found => absurd (h.born d _ found) (Nat.lt_irrefl _)
    · intro d x found
      rw [lookup_insert_of_ne (other d x found), insertion_live ins (h.born d x found)]
      exact removes d x found

/-- What it took out is still to be revoked and is not in the new map either. -/
theorem insertion_took (h : StoreOk config sum w) (ins : Insertion config w next now key kept)
    (leaves : Leaves w.sessions kept revokes) (s : SessionId) (member : s ∈ revokes) :
    s < next.next ∧ ∀ d, next.sessions.lookup d ≠ some s := by
  obtain ⟨e, before, none⟩ := leaves.took s member
  have born := h.born e s before
  refine ⟨born.trans (insertion_bound ins), fun d found => ?_⟩
  rw [ins.sessions] at found
  rcases insertion_lookup h leaves found with ⟨-, same⟩ | ⟨-, still, again, -⟩
  · exact absurd (same ▸ born) (Nat.lt_irrefl _)
  · rw [h.distinct d e s again before, none] at still
    cases still

theorem insertion_call (h : StoreOk config sum w)
    (ins : Insertion config w next now key kept) (leaves : Leaves w.sessions kept revokes)
    (j : CallId) : CallOk config sum next (w.calls j) := by
  refine callOk_kept (insertion_heapKept ins) (fun d s found => ?_) (h.calls j)
  rw [ins.sessions] at found
  rcases insertion_lookup h leaves found with ⟨-, rfl⟩ | ⟨-, -, before, -⟩
  · exact Or.inr (Nat.le_refl _)
  · exact Or.inl before

theorem storeOk_insertion (h : StoreOk config sum w) (later : w.clock ≤ now)
    (ins : Insertion config w next now key kept) (leaves : Leaves w.sessions kept revokes)
    (free : kept.size < config.maxSessions) (calls : ∀ j, CallOk config sum next (next.calls j)) :
    StoreOk config sum next := by
  constructor
  case size =>
    rw [ins.sessions]
    exact (size_insert_le _ _ _).trans free
  case born =>
    intro d s found
    rw [ins.sessions] at found
    rcases insertion_lookup h leaves found with ⟨-, rfl⟩ | ⟨-, -, -, born⟩
    · exact insertion_bound ins
    · exact born.trans (insertion_bound ins)
  case distinct =>
    intro d e s first second
    rw [ins.sessions] at first second
    rcases insertion_lookup h leaves first with ⟨rfl, new⟩ | ⟨-, -, before, born⟩ <;>
      rcases insertion_lookup h leaves second with ⟨rfl, newer⟩ | ⟨-, -, old, older⟩
    · rfl
    · exact absurd (new ▸ older) (Nat.lt_irrefl _)
    · exact absurd (newer ▸ born) (Nat.lt_irrefl _)
    · exact h.distinct d e s before old
  case expired =>
    intro d s found revoked
    rw [ins.sessions] at found
    rcases insertion_lookup h leaves found with ⟨-, rfl⟩ | ⟨-, -, before, born⟩
    · rw [ins.unrevoked] at revoked
      cases revoked
    · rw [ins.older s born] at revoked
      rw [ins.clock, insertion_live ins born]
      intro lives
      exact h.expired d s before revoked (Int.lt_of_le_of_lt later lives)
  case calls => exact calls

end insertion

theorem storeOk_created {config : StoreConfig} {sum : Bytes → Digest} {w : Store} {k : CallId}
    {now : Time} {cookie : Option Bytes} {token : Bytes} {room : RoomId} {kept : Sessions}
    {revokes : Finset SessionId} (h : StoreOk config sum w) (later : w.clock ≤ now)
    (fresh : w.sessions.lookup (sum token) = none) (leaves : Leaves w.sessions kept revokes)
    (free : kept.size < config.maxSessions)
    (removes : ∀ d s, w.sessions.lookup d = some s → kept.lookup d = some s ∨
      ¬ Live w now s ∨ ∃ value, cookie = some value ∧ d = sum value) :
    StoreOk config sum { w.enter k now cookie (some token)
        ⟨kept.insert (sum token) w.next, revokes, .created w.next⟩ with
      heap := Function.update w.heap w.next (newSession room (now + config.sessionTTL))
      next := w.next + 1 } := by
  have ins : Insertion config w { w.enter k now cookie (some token)
        ⟨kept.insert (sum token) w.next, revokes, .created w.next⟩ with
      heap := Function.update w.heap w.next (newSession room (now + config.sessionTTL))
      next := w.next + 1 } now (sum token) kept := by
    have new := Function.update_self w.next (newSession room (now + config.sessionTTL)) w.heap
    refine ⟨?_, congrArg Session.revoked new, congrArg Session.expiresAt new, rfl, rfl, rfl⟩
    exact fun s born => Function.update_of_ne (Nat.ne_of_lt born) _ _
  refine storeOk_insertion h later ins leaves free ?_
  have record := insertion_record h ins fresh leaves removes
  exact calls_update (insertion_call h ins leaves)
    ⟨record, fun _ => Or.inl, insertion_took h ins leaves⟩

theorem storeOk_create {config : StoreConfig} {sum : Bytes → Digest} {w next : Store} {k : CallId}
    {now : Time} {cookie : Option Bytes} {token : Bytes} {room : RoomId}
    (h : StoreOk config sum w)
    (taken : step config sum w (.create k now cookie token room) = some next) :
    StoreOk config sum next := by
  simp only [step, Option.ite_none_right_eq_some] at taken
  obtain ⟨⟨-, later, fresh⟩, taken⟩ := taken
  have prune := leaves_prune w.heap w.sessions now
  have expired : ∀ s ∈ (pruneSessionsLocked w.heap w.sessions now).2, ¬ Live w now s := by
    intro s member
    obtain ⟨⟨d, found⟩, invalid⟩ := pruned_invalid member
    exact invalid_expired h later found invalid
  have leaves := leaves_trans prune
    (leaves_take sum (pruneSessionsLocked w.heap w.sessions now).1 cookie)
  simp only [createSection] at taken
  by_cases full : config.maxSessions ≤
      (takeNamed sum (pruneSessionsLocked w.heap w.sessions now).1 cookie).1.size
  · rw [if_pos full] at taken
    -- a full map leaves nothing for the cookie to name
    have nothing : (takeNamed sum (pruneSessionsLocked w.heap w.sessions now).1 cookie).2 =
        none := by
      rw [Option.eq_none_iff_forall_ne_some]
      intro s named
      have smaller := take_size named
      have pruned := prune.size
      have bound := h.size
      omega
    rw [← Option.some.inj taken]
    refine storeOk_enter h later leaves (fun _ s member => ?_) (by simp)
    rw [nothing] at member
    exact expired s (by simpa using member)
  · rw [if_neg full] at taken
    rw [← Option.some.inj taken]
    refine storeOk_created h later fresh leaves (Nat.not_le.mp full) fun d s found => ?_
    rcases prune.removed d s found with stays | gone
    · exact (take_names stays).imp_right Or.inr
    · exact Or.inr (Or.inl (expired s gone))

theorem storeOk_authenticate {config : StoreConfig} {sum : Bytes → Digest} {w : Store}
    {k : CallId} {now : Time} {cookie : Option Bytes} (h : StoreOk config sum w)
    (later : w.clock ≤ now) : StoreOk config sum (w.enter k now cookie none
      (authenticateSection sum w.heap w.sessions now cookie)) := by
  have untouched : ∀ answer : Answer, answer ≠ .sessionCapacity →
      (∀ s, answer ≠ .created s) →
      StoreOk config sum (w.enter k now cookie none ⟨w.sessions, ∅, answer⟩) :=
    fun answer full made =>
      storeOk_enter h later (leaves_refl _) (fun same => absurd same full) made
  cases cookie with
  | none => exact untouched _ (by simp) (by simp)
  | some value =>
    simp only [authenticateSection]
    split
    · exact untouched _ (by simp) (by simp)
    · split
      · exact untouched _ (by simp) (by simp)
      · rename_i current found
        split
        · exact untouched _ (by simp) (by simp)
        · have leaves := leaves_take sum w.sessions (some value)
          simp only [takeNamed, found, Option.toFinset_some] at leaves
          exact storeOk_enter h later leaves (by simp) (by simp)

/-- Revoking one object takes nothing from the others. -/
theorem heapKept_revoked {w next : Store} {s : SessionId} (count : next.next = w.next)
    (heap : next.heap = Function.update w.heap s (revoked (w.heap s))) : HeapKept w next := by
  have fields := revoked_fields (w.heap s)
  refine ⟨Nat.le_of_eq count.symm, fun x _ => ?_, fun x _ already => ?_⟩
  · rw [heap]
    by_cases e : x = s <;> simp [e, fields]
  · rw [heap]
    by_cases e : x = s
    · simp [e, fields]
    · simpa [e] using already

theorem storeOk_revoke {config : StoreConfig} {sum : Bytes → Digest} {w : Store} {k : CallId}
    {s : SessionId} {record : Record} {left : Finset SessionId} (h : StoreOk config sum w)
    (call : w.calls k = .revoking record left) (member : s ∈ left) :
    StoreOk config sum { w with
      heap := Function.update w.heap s (revoked (w.heap s))
      calls := Function.update w.calls k (.revoking record (left.erase s)) } := by
  have fields := revoked_fields (w.heap s)
  have here := h.calls k
  rw [call] at here
  obtain ⟨ok, pending, out⟩ := here
  have heapKept : HeapKept w { w with
      heap := Function.update w.heap s (revoked (w.heap s))
      calls := Function.update w.calls k (.revoking record (left.erase s)) } :=
    heapKept_revoked rfl rfl
  refine ⟨h.size, h.born, h.distinct, ?_, ?_⟩
  · intro d x found revoked
    have other : x ≠ s := fun e => (out s member).2 d (e ▸ found)
    unfold Live
    simp only [Function.update_of_ne other] at revoked ⊢
    exact h.expired d x found revoked
  · refine calls_update (fun j => callOk_kept heapKept (fun _ _ => Or.inl) (h.calls j)) ?_
    refine ⟨recordOk_kept heapKept ok, fun x revokes => ?_, fun x waiting => ?_⟩
    · by_cases e : x = s
      · exact Or.inr (by simp [e, fields])
      · exact (pending x revokes).imp (fun waiting => Finset.mem_erase.mpr ⟨e, waiting⟩)
          fun revoked => by simpa [e] using revoked
    · exact out x (Finset.mem_of_mem_erase waiting)

theorem storeOk_expire {config : StoreConfig} {sum : Bytes → Digest} {w : Store} {s : SessionId}
    {now : Time} (h : StoreOk config sum w) (later : w.clock ≤ now)
    (expired : (w.heap s).expiresAt ≤ now) :
    StoreOk config sum
      { w with heap := Function.update w.heap s (revoked (w.heap s)), clock := now } := by
  have fields := revoked_fields (w.heap s)
  have heapKept : HeapKept w
      { w with heap := Function.update w.heap s (revoked (w.heap s)), clock := now } :=
    heapKept_revoked rfl rfl
  refine ⟨h.size, h.born, h.distinct, ?_, fun k =>
    callOk_kept heapKept (fun _ _ => Or.inl) (h.calls k)⟩
  intro d x found revoked
  unfold Live
  by_cases e : x = s
  · subst x
    simp only [Function.update_self, fields.2]
    exact Int.not_lt.mpr expired
  · simp only [Function.update_of_ne e] at revoked ⊢
    exact fun lives => h.expired d x found revoked (Int.lt_of_le_of_lt later lives)

theorem storeOk_step {config : StoreConfig} {sum : Bytes → Digest} {w next : Store} {a : Act}
    (h : StoreOk config sum w) (taken : step config sum w a = some next) :
    StoreOk config sum next := by
  cases a with
  | create k now cookie token room => exact storeOk_create h taken
  | delete k cookie =>
    simp only [step, Option.ite_none_right_eq_some, Option.some.injEq] at taken
    obtain ⟨-, rfl⟩ := taken
    exact storeOk_enter h (Int.le_refl _) (leaves_take sum w.sessions cookie)
      (by simp [deleteSection]) (by simp [deleteSection])
  | authenticate k now cookie =>
    simp only [step, Option.ite_none_right_eq_some, Option.some.injEq] at taken
    obtain ⟨⟨-, later⟩, rfl⟩ := taken
    exact storeOk_authenticate h later
  | prune k now =>
    simp only [step, Option.ite_none_right_eq_some, Option.some.injEq] at taken
    obtain ⟨⟨-, later⟩, rfl⟩ := taken
    exact storeOk_enter h later (leaves_prune w.heap w.sessions now)
      (by simp [pruneSection]) (by simp [pruneSection])
  | revoke k s =>
    simp only [step] at taken
    split at taken
    · rename_i record left call
      simp only [Option.ite_none_right_eq_some, Option.some.injEq] at taken
      obtain ⟨member, rfl⟩ := taken
      exact storeOk_revoke h call member
    · cases taken
  | finish k =>
    simp only [step] at taken
    split at taken
    · rename_i record left call
      simp only [Option.ite_none_right_eq_some, Option.some.injEq] at taken
      obtain ⟨rfl, rfl⟩ := taken
      have here := h.calls k
      rw [call] at here
      obtain ⟨ok, pending, -⟩ := here
      have own : CallOk config sum w (.returned record) :=
        ⟨ok, fun s member => by simpa using pending s member⟩
      have kept : HeapKept w { w with calls := Function.update w.calls k (.returned record) } :=
        ⟨Nat.le_refl _, fun _ _ => rfl, fun _ _ => id⟩
      exact ⟨h.size, h.born, h.distinct, h.expired,
        calls_update (fun j => callOk_kept kept (fun _ _ => Or.inl) (h.calls j))
          (callOk_kept kept (fun _ _ => Or.inl) own)⟩
    · cases taken
  | expire s now =>
    simp only [step, Option.ite_none_right_eq_some, Option.some.injEq] at taken
    obtain ⟨⟨-, later, expired⟩, rfl⟩ := taken
    exact storeOk_expire h later expired

theorem storeOk_invariant (config : StoreConfig) (sum : Bytes → Digest) :
    Invariant (store config sum) (StoreOk config sum) where
  start w := by
    rintro ⟨clock, rfl⟩
    exact ⟨by simp [emptyStore, Table.size, empty], by simp [emptyStore, empty],
      by simp [emptyStore, empty], by simp [emptyStore, empty], fun _ => trivial⟩
  kept _ _ _ h taken := storeOk_step h taken

/-- The record of an operation whose section is done, whether or not it has returned. -/
def Call.record : Call → Option Record
  | .idle => none
  | .revoking r _ | .returned r => some r

structure StoreInvariant (config : StoreConfig) (sum : Bytes → Digest) (w : Store) : Prop where
  bounded : w.sessions.size ≤ config.maxSessions
  alive : ∀ d s, w.sessions.lookup d = some s → w.clock < (w.heap s).expiresAt →
    (w.heap s).revoked = false
  removedRevoked : ∀ k r, w.calls k = .returned r → ∀ d s, r.before.lookup d = some s →
    r.done.sessions.lookup d ≠ some s → (w.heap s).revoked = true
  capacityKeeps : ∀ k r, (w.calls k).record = some r → r.done.answer = .sessionCapacity →
    (∀ d s, r.before.lookup d = some s → r.now < (w.heap s).expiresAt →
      r.done.sessions.lookup d = some s) ∧
    ∀ s ∈ r.done.revokes, (w.heap s).expiresAt ≤ r.now
  createdOwn : ∀ k r s, (w.calls k).record = some r → r.done.answer = .created s →
    Created config sum w r s

theorem call_record {config : StoreConfig} {sum : Bytes → Digest} {w : Store} {call : Call}
    {r : Record} (h : CallOk config sum w call) (has : call.record = some r) :
    RecordOk config sum w r := by
  cases call with
  | idle => cases has
  | revoking record left =>
    rw [← Option.some.inj has]
    exact h.1
  | returned record =>
    rw [← Option.some.inj has]
    exact h.1

theorem session_store_invariant (config : StoreConfig) (sum : Bytes → Digest) {w : Store}
    (reach : (store config sum).Reachable w) : StoreInvariant config sum w := by
  have h := reachable_invariant (store config sum) (storeOk_invariant config sum) reach
  constructor
  case bounded => exact h.size
  case alive =>
    intro d s found live
    rw [Bool.eq_false_iff]
    exact fun revoked => h.expired d s found revoked live
  case removedRevoked =>
    intro k r returned d s found gone
    have call := h.calls k
    rw [returned] at call
    rcases call.1.removed d s found with stays | revoked
    · exact absurd stays gone
    · exact call.2 s revoked
  case capacityKeeps =>
    intro k r has full
    have record := call_record (h.calls k) has
    have dead := record.capacity full
    refine ⟨fun d s found live => ?_, fun s member => Int.not_lt.mp (dead s member)⟩
    rcases record.removed d s found with stays | revoked
    · exact stays
    · exact absurd live (dead s revoked)
  case createdOwn =>
    intro k r s has made
    exact ((call_record (h.calls k) has).created s made).2

/-- A login replaces the session of its own cookie in a full map. -/
def replacing : List Act :=
  [.create 0 10 none [1] [97], .finish 0, .create 1 20 (some [1]) [2] [97], .revoke 1 0, .finish 1,
   .create 2 30 none [3] [97], .finish 2]

def replacingSum (token : Bytes) : Digest := Vector.replicate 32 (token.headD 0)

def replacingStore : Store :=
  ((store ⟨1, 100⟩ replacingSum).exec (emptyStore 0) replacing).get rfl

theorem session_store_invariant_replacing :
    replacingStore.sessions.lookup (replacingSum [2]) = some 1 ∧
      StoreInvariant ⟨1, 100⟩ replacingSum replacingStore :=
  ⟨rfl, session_store_invariant ⟨1, 100⟩ replacingSum
    ⟨_, replacing, ⟨0, rfl⟩, (Option.some_get _).symm⟩⟩

end RelaySessionStore
