import GameSecurity.Runs
import GameSecurity.RelaySession

/- All runs of handleViewer and handleProducer over one server, interleaved at their
   critical sections with logins, revocations, closeConnections and Server.Close.
   Deferred calls are kept as the stack that the return of a handler unwinds. -/
namespace RelayLifecycle
open Runs RelayRoom RelaySession

abbrev SessionId := Nat
abbrev CallId := Nat

structure Limits where
  maxViewersPerSession : Nat
  snapshotTTL : Int

inductive ViewerDefer where
  | releaseViewer
  | removeViewer
  | closeConn
  | closeDone
  deriving DecidableEq, Repr

/-- The stage names the last thing a handler has done; the next statement follows. -/
inductive ViewerStage where
  | waiting
  | checked
  | admitted
  | reserved
  | added
  | upgraded
  | compressed
  | roomAttached
  | refused
  | reading
  | returning
  | ended
  deriving DecidableEq, Repr

/-- The last four fields are history: how often the run took and gave back a place. -/
structure ViewerRun where
  stage : ViewerStage
  session : SessionId
  room : RoomId
  latest : Frame
  conn : Option Conn
  deferred : List ViewerDefer
  reserved : Nat
  released : Nat
  added : Nat
  removed : Nat

def ViewerRun.fresh : ViewerRun :=
  ⟨.waiting, 0, [], Frame.zero, none, [], 0, 0, 0, 0⟩

inductive ProducerDefer where
  | releaseUnlessAttached
  | releaseProducer
  | closeConn
  deriving DecidableEq, Repr

inductive ProducerStage where
  | waiting
  | admitted
  | claimed
  | upgraded
  | refused
  | reading
  | returning
  | ended
  deriving DecidableEq, Repr

structure ProducerRun where
  stage : ProducerStage
  room : RoomId
  generation : Nat
  attached : Bool
  conn : Option Conn
  deferred : List ProducerDefer
  claims : Nat
  releases : Nat

def ProducerRun.fresh : ProducerRun := ⟨.waiting, [], 0, false, none, [], 0, 0⟩

/-- One call of `revokeAt`; the flag of a returned call tells whether it set revoked. -/
inductive RevokeCall where
  | idle
  | started (s : SessionId)
  | closing (s : SessionId) (left : Finset Conn)
  | returned (s : SessionId) (setRevoked : Bool)

inductive CloseCall where
  | idle
  | started (r : RoomId)
  | closing (r : RoomId) (left : Finset Conn)
  | returned (r : RoomId)

/- `Server.Close`, which `closeOnce` lets run once: what is still to do and the call
   it is waiting for. -/
inductive ServerClose where
  | idle
  | stopping
  | revoking (todo : Finset SessionId) (current : Option CallId)
  | closing (todo : Finset RoomId) (current : Option CallId)
  | returned

/- `rooms` and `sessions` are heaps; `roomIds` and `sessionMap` say which of them the
   server's maps hold. The two attached fields are history. -/
structure World where
  rooms : RoomId → Room
  roomIds : Finset RoomId
  sessions : SessionId → Session
  created : Finset SessionId
  sessionMap : Finset SessionId
  objects : ViewerId → Viewer
  reservations : ViewerId → SessionViewer
  closed : Finset Conn
  viewerRuns : ViewerId → ViewerRun
  producerRuns : ProducerId → ProducerRun
  revokes : CallId → RevokeCall
  closes : CallId → CloseCall
  server : ServerClose
  ready : Bool
  attachedToRoom : RoomId → Finset Conn
  attachedToSession : SessionId → Finset Conn

def World.setRoom (w : World) (r : RoomId) (room : Room) : World :=
  { w with rooms := Function.update w.rooms r room }

def World.setSession (w : World) (s : SessionId) (session : Session) : World :=
  { w with sessions := Function.update w.sessions s session }

def World.setViewer (w : World) (v : ViewerId) (run : ViewerRun) : World :=
  { w with viewerRuns := Function.update w.viewerRuns v run }

def World.setProducer (w : World) (p : ProducerId) (run : ProducerRun) : World :=
  { w with producerRuns := Function.update w.producerRuns p run }

def World.setRevoke (w : World) (k : CallId) (call : RevokeCall) : World :=
  { w with revokes := Function.update w.revokes k call }

def World.setClose (w : World) (k : CallId) (call : CloseCall) : World :=
  { w with closes := Function.update w.closes k call }

def World.close (w : World) (conn : Option Conn) : World :=
  { w with closed := w.closed ∪ conn.toFinset }

def World.upgraded (w : World) : Conn → Bool
  | .viewer v => (w.viewerRuns v).conn.isSome
  | .producer p => (w.producerRuns p).conn.isSome

inductive ViewerAct where
  | check
  | begin (s : SessionId) (now : Time)
  | reserve (now : Time)
  | add (now : Time)
  | upgrade (ok : Bool)
  | compress (ok : Bool)
  | attachRoom
  | attachSession (now : Time)
  | discard
  | leave
  | unwind
  | finish
  deriving DecidableEq, Repr

def unwindViewer (w : World) (v : ViewerId) (run : ViewerRun) : ViewerDefer → World
  | .releaseViewer =>
    (w.setSession run.session ((w.sessions run.session).releaseViewer v)).setViewer v
      { run with released := run.released + 1 }
  | .removeViewer =>
    (w.setRoom run.room ((w.rooms run.room).removeViewer v)).setViewer v
      { run with removed := run.removed + 1 }
  | .closeConn => (w.close run.conn).setViewer v run
  | .closeDone => w.setViewer v run

def viewerStep (limits : Limits) (w : World) (v : ViewerId) (run : ViewerRun) :
    ViewerAct → Option World
  -- the ready flag is read well before the session map is locked
  | .check =>
    if run.stage = .waiting ∧ w.ready = true then some (w.setViewer v { run with stage := .checked })
    else none
  | .begin s now =>
    if run.stage = .checked ∧ s ∈ w.sessionMap ∧ (w.sessions s).valid now = true then
      some (w.setViewer v
        { run with stage := .admitted, session := s, room := (w.sessions s).room })
    else none
  | .reserve now =>
    if run.stage = .admitted then
      match (w.sessions run.session).reserveViewer now limits.maxViewersPerSession v with
      | none => some (w.setViewer v { run with stage := .returning })
      | some session =>
        some ((w.setSession run.session session).setViewer v
          { run with
            stage := .reserved, deferred := .releaseViewer :: run.deferred
            reserved := run.reserved + 1 })
    else none
  | .add now =>
    if run.stage = .reserved then
      match (w.rooms run.room).addViewer v now limits.snapshotTTL with
      | .error _ => some (w.setViewer v { run with stage := .returning })
      | .ok (room, latest) =>
        some ((w.setRoom run.room room).setViewer v
          { run with
            stage := .added, latest := latest, deferred := .removeViewer :: run.deferred
            added := run.added + 1 })
    else none
  | .upgrade ok =>
    if run.stage = .added then
      if ok then
        some (w.setViewer v { run with stage := .upgraded, conn := some (.viewer v) })
      else some (w.setViewer v { run with stage := .returning })
    else none
  | .compress ok =>
    if run.stage = .upgraded then
      some (w.setViewer v { run with stage := if ok then .compressed else .refused })
    else none
  | .attachRoom =>
    if run.stage = .compressed then
      match (w.rooms run.room).attachViewer v (w.objects v) (.viewer v) with
      | none => some (w.setViewer v { run with stage := .refused })
      | some object =>
        some { w.setViewer v { run with stage := .roomAttached } with
          objects := Function.update w.objects v object
          attachedToRoom := Function.update w.attachedToRoom run.room
            (insert (.viewer v) (w.attachedToRoom run.room)) }
    else none
  | .attachSession now =>
    if run.stage = .roomAttached then
      match (w.sessions run.session).attachViewer v (.viewer v) now with
      | none => some (w.setViewer v { run with stage := .refused })
      | some reservation =>
        some { w.setViewer v
            { run with stage := .reading, deferred := .closeDone :: .closeConn :: run.deferred } with
          reservations := Function.update w.reservations v reservation
          attachedToSession := Function.update w.attachedToSession run.session
            (insert (.viewer v) (w.attachedToSession run.session)) }
    else none
  -- every refusal after the upgrade closes the connection before it returns
  | .discard =>
    if run.stage = .refused then
      some ((w.close run.conn).setViewer v { run with stage := .returning })
    else none
  | .leave =>
    if run.stage = .reading then some (w.setViewer v { run with stage := .returning }) else none
  | .unwind =>
    if run.stage = .returning then
      match run.deferred with
      | [] => none
      | call :: rest => some (unwindViewer w v { run with deferred := rest } call)
    else none
  | .finish =>
    if run.stage = .returning ∧ run.deferred = [] then
      some (w.setViewer v { run with stage := .ended })
    else none

inductive ProducerAct where
  | begin (r : RoomId)
  | claim
  | upgrade (ok : Bool)
  | attach
  | discard
  | leave
  | unwind
  | finish
  deriving DecidableEq, Repr

def unwindProducer (w : World) (p : ProducerId) (run : ProducerRun) : ProducerDefer → World
  | .releaseUnlessAttached =>
    if run.attached then w.setProducer p run
    else (w.setRoom run.room ((w.rooms run.room).releaseProducer run.generation)).setProducer p
      { run with releases := run.releases + 1 }
  | .releaseProducer =>
    (w.setRoom run.room ((w.rooms run.room).releaseProducer run.generation)).setProducer p
      { run with releases := run.releases + 1 }
  | .closeConn => (w.close run.conn).setProducer p run

def producerStep (w : World) (p : ProducerId) (run : ProducerRun) : ProducerAct → Option World
  -- ready and authenticateProducer were checked
  | .begin r =>
    if run.stage = .waiting ∧ w.ready = true ∧ r ∈ w.roomIds then
      some (w.setProducer p { run with stage := .admitted, room := r })
    else none
  | .claim =>
    if run.stage = .admitted then
      match (w.rooms run.room).claimProducer with
      | .error _ => some (w.setProducer p { run with stage := .returning })
      | .ok (room, generation) =>
        some ((w.setRoom run.room room).setProducer p
          { run with
            stage := .claimed, generation := generation
            deferred := .releaseUnlessAttached :: run.deferred, claims := run.claims + 1 })
    else none
  | .upgrade ok =>
    if run.stage = .claimed then
      if ok then
        some (w.setProducer p { run with stage := .upgraded, conn := some (.producer p) })
      else some (w.setProducer p { run with stage := .returning })
    else none
  | .attach =>
    if run.stage = .upgraded then
      match (w.rooms run.room).attachProducer run.generation (.producer p) with
      | none => some (w.setProducer p { run with stage := .refused })
      | some room =>
        some { (w.setRoom run.room room).setProducer p
            { run with
              stage := .reading, attached := true
              deferred := .closeConn :: .releaseProducer :: run.deferred } with
          attachedToRoom := Function.update w.attachedToRoom run.room
            (insert (.producer p) (w.attachedToRoom run.room)) }
    else none
  | .discard =>
    if run.stage = .refused then
      some ((w.close run.conn).setProducer p { run with stage := .returning })
    else none
  | .leave =>
    if run.stage = .reading then some (w.setProducer p { run with stage := .returning })
    else none
  | .unwind =>
    if run.stage = .returning then
      match run.deferred with
      | [] => none
      | call :: rest => some (unwindProducer w p { run with deferred := rest } call)
    else none
  | .finish =>
    if run.stage = .returning ∧ run.deferred = [] then
      some (w.setProducer p { run with stage := .ended })
    else none

/-- The locked section, one close for each collected connection, and the return. -/
inductive RevokeAct where
  | start (s : SessionId)
  | lock
  | close (c : Conn)
  | finish
  deriving DecidableEq, Repr

def revokeStep (w : World) (k : CallId) : RevokeCall → RevokeAct → Option World
  | .idle, .start s => if s ∈ w.created then some (w.setRevoke k (.started s)) else none
  | .started s, .lock =>
    match (w.sessions s).revoke w.reservations with
    | none => some (w.setRevoke k (.returned s false))
    | some (session, conns) => some ((w.setSession s session).setRevoke k (.closing s conns))
  | .closing s left, .close c =>
    if c ∈ left then some ((w.close (some c)).setRevoke k (.closing s (left.erase c))) else none
  | .closing s left, .finish =>
    if left = ∅ then some (w.setRevoke k (.returned s true)) else none
  | _, _ => none

inductive CloseAct where
  | start (r : RoomId)
  | lock
  | close (c : Conn)
  | finish
  deriving DecidableEq, Repr

def closeStep (w : World) (k : CallId) : CloseCall → CloseAct → Option World
  | .idle, .start r => some (w.setClose k (.started r))
  | .started r, .lock =>
    let (room, conns) := (w.rooms r).collect w.objects
    some ((w.setRoom r room).setClose k (.closing r conns))
  | .closing r left, .close c =>
    if c ∈ left then some ((w.close (some c)).setClose k (.closing r (left.erase c))) else none
  | .closing r left, .finish =>
    if left = ∅ then some (w.setClose k (.returned r)) else none
  | _, _ => none

inductive ServerAct where
  | begin
  | clear
  | revoke (s : SessionId) (k : CallId)
  | revoked
  | rooms
  | close (r : RoomId) (k : CallId)
  | closed
  | finish
  deriving DecidableEq, Repr

def serverStep (w : World) : ServerClose → ServerAct → Option World
  | .idle, .begin => some { w with ready := false, server := .stopping }
  | .stopping, .clear =>
    some { w with sessionMap := ∅, server := .revoking w.sessionMap none }
  | .revoking todo none, .revoke s k =>
    if s ∈ todo then
      match w.revokes k with
      | .idle => some { w.setRevoke k (.started s) with server := .revoking (todo.erase s) (some k) }
      | _ => none
    else none
  | .revoking todo (some k), .revoked =>
    match w.revokes k with
    | .returned _ _ => some { w with server := .revoking todo none }
    | _ => none
  | .revoking todo none, .rooms =>
    if todo = ∅ then some { w with server := .closing w.roomIds none } else none
  | .closing todo none, .close r k =>
    if r ∈ todo then
      match w.closes k with
      | .idle => some { w.setClose k (.started r) with server := .closing (todo.erase r) (some k) }
      | _ => none
    else none
  | .closing todo (some k), .closed =>
    match w.closes k with
    | .returned _ => some { w with server := .closing todo none }
    | _ => none
  | .closing todo none, .finish =>
    if todo = ∅ then some { w with server := .returned } else none
  | _, _ => none

/- `login` inserts a new session whatever the server is doing, as a login that passed
   the ready check early can; `unmap` is any removal from the map, whose revocation
   is a call of its own; `drop` is a writer or a peer closing an open connection. -/
inductive Act where
  | login (s : SessionId) (r : RoomId) (expiresAt : Time)
  | unmap (s : SessionId)
  | setReady (ready : Bool)
  | drop (c : Conn)
  | viewer (v : ViewerId) (a : ViewerAct)
  | producer (p : ProducerId) (a : ProducerAct)
  | revoke (k : CallId) (a : RevokeAct)
  | close (k : CallId) (a : CloseAct)
  | server (a : ServerAct)
  deriving DecidableEq, Repr

def step (limits : Limits) (w : World) : Act → Option World
  | .login s r expiresAt =>
    if s ∉ w.created ∧ r ∈ w.roomIds then
      some { w.setSession s (newSession r expiresAt) with
        created := insert s w.created, sessionMap := insert s w.sessionMap }
    else none
  | .unmap s => some { w with sessionMap := w.sessionMap.erase s }
  | .setReady ready => some { w with ready := ready }
  | .drop c => if w.upgraded c then some (w.close (some c)) else none
  | .viewer v a => viewerStep limits w v (w.viewerRuns v) a
  | .producer p a => producerStep w p (w.producerRuns p) a
  | .revoke k a => revokeStep w k (w.revokes k) a
  | .close k a => closeStep w k (w.closes k) a
  | .server a => serverStep w w.server a

/-- The server as `New` leaves it, with rooms of any capacity. -/
def started (maxViewers : RoomId → Nat) (roomIds : Finset RoomId) : World where
  rooms r := newRoom r (Vector.replicate 32 0) [] (maxViewers r)
  roomIds := roomIds
  sessions _ := newSession [] 0
  created := ∅
  sessionMap := ∅
  objects _ := newViewer
  reservations _ := ⟨none⟩
  closed := ∅
  viewerRuns _ := ViewerRun.fresh
  producerRuns _ := ProducerRun.fresh
  revokes _ := .idle
  closes _ := .idle
  server := .idle
  ready := true
  attachedToRoom _ := ∅
  attachedToSession _ := ∅

def server (limits : Limits) : Machine World Act where
  init w := ∃ maxViewers roomIds, w = started maxViewers roomIds
  step := step limits

/-- What one step of a revocation, of a room's close and of the server's close can do. -/
inductive RevokeEffect (w : World) (k : CallId) : RevokeCall → World → Prop where
  | start (s : SessionId) (born : s ∈ w.created) :
      RevokeEffect w k .idle (w.setRevoke k (.started s))
  | already (s : SessionId) : RevokeEffect w k (.started s) (w.setRevoke k (.returned s false))
  | lock (s : SessionId) (session : Session) (conns : Finset Conn)
      (ok : (w.sessions s).revoke w.reservations = some (session, conns)) :
      RevokeEffect w k (.started s) ((w.setSession s session).setRevoke k (.closing s conns))
  | close (s : SessionId) (left : Finset Conn) (c : Conn) (member : c ∈ left) :
      RevokeEffect w k (.closing s left)
        ((w.close (some c)).setRevoke k (.closing s (left.erase c)))
  | finish (s : SessionId) :
      RevokeEffect w k (.closing s ∅) (w.setRevoke k (.returned s true))

theorem revoke_effect {w next : World} {k : CallId} {call : RevokeCall} {a : RevokeAct}
    (h : revokeStep w k call a = some next) : RevokeEffect w k call next := by
  unfold revokeStep at h
  split at h
  case h_1 s =>
    simp only [Option.ite_none_right_eq_some, Option.some.injEq] at h
    obtain ⟨born, rfl⟩ := h
    exact .start s born
  case h_2 s =>
    split at h <;> rw [← Option.some.inj h]
    · exact .already s
    · rename_i session conns ok
      exact .lock s session conns ok
  case h_3 s left c =>
    simp only [Option.ite_none_right_eq_some, Option.some.injEq] at h
    obtain ⟨member, rfl⟩ := h
    exact .close s left c member
  case h_4 s left =>
    simp only [Option.ite_none_right_eq_some, Option.some.injEq] at h
    obtain ⟨rfl, rfl⟩ := h
    exact .finish s
  case h_5 => cases h

inductive CloseEffect (w : World) (k : CallId) : CloseCall → World → Prop where
  | start (r : RoomId) : CloseEffect w k .idle (w.setClose k (.started r))
  | lock (r : RoomId) :
      CloseEffect w k (.started r) ((w.setRoom r ((w.rooms r).collect w.objects).1).setClose k
        (.closing r ((w.rooms r).collect w.objects).2))
  | close (r : RoomId) (left : Finset Conn) (c : Conn) (member : c ∈ left) :
      CloseEffect w k (.closing r left)
        ((w.close (some c)).setClose k (.closing r (left.erase c)))
  | finish (r : RoomId) : CloseEffect w k (.closing r ∅) (w.setClose k (.returned r))

theorem close_effect {w next : World} {k : CallId} {call : CloseCall} {a : CloseAct}
    (h : closeStep w k call a = some next) : CloseEffect w k call next := by
  unfold closeStep at h
  split at h
  case h_1 r =>
    rw [← Option.some.inj h]
    exact .start r
  case h_2 r =>
    rw [← Option.some.inj h]
    exact .lock r
  case h_3 r left c =>
    simp only [Option.ite_none_right_eq_some, Option.some.injEq] at h
    obtain ⟨member, rfl⟩ := h
    exact .close r left c member
  case h_4 r left =>
    simp only [Option.ite_none_right_eq_some, Option.some.injEq] at h
    obtain ⟨rfl, rfl⟩ := h
    exact .finish r
  case h_5 => cases h

inductive ServerEffect (w : World) : ServerClose → World → Prop where
  | begin : ServerEffect w .idle { w with ready := false, server := .stopping }
  | clear : ServerEffect w .stopping
      { w with sessionMap := ∅, server := .revoking w.sessionMap none }
  | revoke (todo : Finset SessionId) (s : SessionId) (k : CallId) (waiting : s ∈ todo)
      (idle : w.revokes k = .idle) : ServerEffect w (.revoking todo none)
        { w.setRevoke k (.started s) with server := .revoking (todo.erase s) (some k) }
  | revoked (todo : Finset SessionId) (k : CallId) (s : SessionId) (set : Bool)
      (returned : w.revokes k = .returned s set) : ServerEffect w (.revoking todo (some k))
        { w with server := .revoking todo none }
  | rooms : ServerEffect w (.revoking ∅ none) { w with server := .closing w.roomIds none }
  | close (todo : Finset RoomId) (r : RoomId) (k : CallId) (waiting : r ∈ todo)
      (idle : w.closes k = .idle) : ServerEffect w (.closing todo none)
        { w.setClose k (.started r) with server := .closing (todo.erase r) (some k) }
  | closed (todo : Finset RoomId) (k : CallId) (r : RoomId)
      (returned : w.closes k = .returned r) : ServerEffect w (.closing todo (some k))
        { w with server := .closing todo none }
  | finish : ServerEffect w (.closing ∅ none) { w with server := .returned }

theorem server_effect {w next : World} {state : ServerClose} {a : ServerAct}
    (h : serverStep w state a = some next) : ServerEffect w state next := by
  unfold serverStep at h
  split at h
  case h_1 =>
    rw [← Option.some.inj h]
    exact .begin
  case h_2 =>
    rw [← Option.some.inj h]
    exact .clear
  case h_3 todo s k =>
    simp only [Option.ite_none_right_eq_some] at h
    obtain ⟨waiting, h⟩ := h
    split at h
    · rename_i idle
      rw [← Option.some.inj h]
      exact .revoke todo s k waiting idle
    · cases h
  case h_4 todo k =>
    split at h
    · rename_i s set returned
      rw [← Option.some.inj h]
      exact .revoked todo k s set returned
    · cases h
  case h_5 =>
    simp only [Option.ite_none_right_eq_some, Option.some.injEq] at h
    obtain ⟨rfl, rfl⟩ := h
    exact .rooms
  case h_6 todo r k =>
    simp only [Option.ite_none_right_eq_some] at h
    obtain ⟨waiting, h⟩ := h
    split at h
    · rename_i idle
      rw [← Option.some.inj h]
      exact .close todo r k waiting idle
    · cases h
  case h_7 todo k =>
    split at h
    · rename_i r returned
      rw [← Option.some.inj h]
      exact .closed todo k r returned
    · cases h
  case h_8 =>
    simp only [Option.ite_none_right_eq_some, Option.some.injEq] at h
    obtain ⟨rfl, rfl⟩ := h
    exact .finish
  case h_9 => cases h

end RelayLifecycle
