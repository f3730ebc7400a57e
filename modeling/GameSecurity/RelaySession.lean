import GameSecurity.RelayRoom

/- The critical sections of a relay session. -/
namespace RelaySession
open RelayRoom

/- `doneCloses` counts the calls of close on the channel `done`; a second one
   would panic. A reservation is named after the viewer run that holds it. -/
structure Session where
  room : RoomId
  expiresAt : Time
  revoked : Bool
  viewers : Finset ViewerId
  doneCloses : Nat

def newSession (room : RoomId) (expiresAt : Time) : Session :=
  ⟨room, expiresAt, false, ∅, 0⟩

structure SessionViewer where
  conn : Option Conn
  deriving DecidableEq, Repr

def Session.valid (s : Session) (now : Time) : Bool :=
  !s.revoked && decide (now < s.expiresAt)

/-- none is the false return. -/
def Session.reserveViewer (s : Session) (now : Time) (maximum : Nat) (reservation : ViewerId) :
    Option Session :=
  if s.revoked = true ∨ ¬ now < s.expiresAt ∨ maximum ≤ s.viewers.card then none
  else some { s with viewers := insert reservation s.viewers }

def Session.attachViewer (s : Session) (reservation : ViewerId) (conn : Conn) (now : Time) :
    Option SessionViewer :=
  if s.revoked = true ∨ ¬ now < s.expiresAt then none
  else if reservation ∈ s.viewers then some ⟨some conn⟩
  else none

def Session.releaseViewer (s : Session) (reservation : ViewerId) : Session :=
  { s with viewers := s.viewers.erase reservation }

/-- The locked section of `revokeAt`; none when the session was revoked before. -/
def Session.revoke (s : Session) (reservations : ViewerId → SessionViewer) :
    Option (Session × Finset Conn) :=
  if s.revoked then none
  else some ({ s with revoked := true, doneCloses := s.doneCloses + 1 },
    s.viewers.biUnion fun v => (reservations v).conn.toFinset)

theorem valid_iff {s : Session} {now : Time} :
    s.valid now = true ↔ s.revoked = false ∧ now < s.expiresAt := by
  simp [Session.valid]

theorem reserve_some_iff {s next : Session} {now : Time} {maximum : Nat} {v : ViewerId} :
    s.reserveViewer now maximum v = some next ↔
      s.revoked = false ∧ now < s.expiresAt ∧ s.viewers.card < maximum ∧
        next = { s with viewers := insert v s.viewers } := by
  unfold Session.reserveViewer
  cases s.revoked <;> simp [and_assoc]
  intro _ _
  exact eq_comm

theorem attach_some_iff {s : Session} {v : ViewerId} {conn : Conn} {now : Time}
    {object : SessionViewer} :
    s.attachViewer v conn now = some object ↔
      s.revoked = false ∧ now < s.expiresAt ∧ v ∈ s.viewers ∧ object = ⟨some conn⟩ := by
  unfold Session.attachViewer
  cases s.revoked <;> simp
  intro _ _
  exact eq_comm

theorem revoke_some_iff {s next : Session} {reservations : ViewerId → SessionViewer}
    {conns : Finset Conn} :
    s.revoke reservations = some (next, conns) ↔
      s.revoked = false ∧ next = { s with revoked := true, doneCloses := s.doneCloses + 1 } ∧
        conns = s.viewers.biUnion fun v => (reservations v).conn.toFinset := by
  unfold Session.revoke
  cases s.revoked <;> simp [eq_comm]

theorem revoked_refuses {s : Session} (revoked : s.revoked = true) :
    (∀ now maximum v, s.reserveViewer now maximum v = none) ∧
      (∀ v conn now, s.attachViewer v conn now = none) := by
  simp [Session.reserveViewer, Session.attachViewer, revoked]

theorem expired_refuses {s : Session} {now : Time} (expired : s.expiresAt ≤ now) :
    (∀ maximum v, s.reserveViewer now maximum v = none) ∧
      (∀ v conn, s.attachViewer v conn now = none) := by
  simp [Session.reserveViewer, Session.attachViewer, Int.not_lt.mpr expired]

end RelaySession
