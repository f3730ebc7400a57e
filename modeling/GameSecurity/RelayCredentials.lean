import GameSecurity.RelayConfig

/- The rooms `New` builds from an accepted configuration, and the two ways in: a bearer
   token for a producer, an invite for a viewer. -/
namespace RelayCredentials
open RelayRoom RelayAuth RelayConfig FiniteTable

/- `hash, _ := auth.ParseHexSum(encoded)`: on an error the digest is the zero array. -/
def digest (encoded : Bytes) : Digest :=
  match parseHexSum encoded with
  | .ok hash => hash
  | .error _ => Vector.replicate 32 0

def buildRoom (room : RoomConfig) : Room :=
  newRoom room.id (digest room.producerTokenSHA256) (room.inviteTokenSHA256.map digest)
    room.maxViewers.toNat

def buildRooms (rooms : List RoomConfig) : Table RoomId Room :=
  rooms.foldl (fun built room => built.insert room.id (buildRoom room)) empty

def dummyToken : Bytes := bytes "radar-relay-invalid-room-dummy-token"

def bearer : Bytes := bytes "Bearer "

/-- none is the false return. -/
def authenticateProducer (sum : Bytes → Digest) (rooms : Table RoomId Room)
    (roomHeaders authorizationHeaders : List Bytes) : Option Room :=
  match roomHeaders, authorizationHeaders with
  | [name], [authorization] =>
    let currentRoom := rooms.lookup name
    if ¬ bearer <+: authorization ∨ authorization.count 32 ≠ 1 then none
    else
      let token := authorization.drop bearer.length
      let expected := match currentRoom with
        | some room => room.producerHash
        | none => sum dummyToken
      if ¬ validPresentedToken token ∨ ¬ tokenMatches sum token expected then none else currentRoom
  | _, _ => none

/-- The credential check of handleCreateSession for the decoded body. -/
def acceptInvite (sum : Bytes → Digest) (rooms : Table RoomId Room) (name inviteToken : Bytes) :
    Option Room :=
  let currentRoom := rooms.lookup name
  let inviteHashes := match currentRoom with
    | some room => room.inviteHashes
    | none => [sum dummyToken]
  let tokenValid := validPresentedToken inviteToken
  let tokenMatches := matchesAny sum inviteToken inviteHashes
  if ¬ tokenValid ∨ ¬ tokenMatches then none else currentRoom

inductive Role where
  | producer
  | invite
  deriving DecidableEq, Repr

def Accepts (sum : Bytes → Digest) (rooms : Table RoomId Room) (token : Bytes) (name : RoomId) :
    Role → Prop
  | .producer => (authenticateProducer sum rooms [name] [bearer ++ token]).isSome
  | .invite => (acceptInvite sum rooms name token).isSome

def roomDigests (room : RoomConfig) : List Digest :=
  digest room.producerTokenSHA256 :: room.inviteTokenSHA256.map digest

theorem digest_of_ok {encoded : Bytes} {hash : Digest} (h : parseHexSum encoded = .ok hash) :
    digest encoded = hash := by
  simp [digest, h]

/-- The invite loop lets a digest through only once. -/
theorem validate_invites_ok {std : Stdlib} {room : RoomConfig} {i j : Nat} {hashes : List Bytes}
    {seen after : Table Digest String} (h : validateInvites std room i j hashes seen = .ok after) :
    (hashes.map digest).Nodup ∧ (∀ d ∈ hashes.map digest, d ∉ seen.keys) ∧
      ∀ d, d ∈ after.keys ↔ d ∈ seen.keys ∨ d ∈ hashes.map digest := by
  induction hashes generalizing j seen with
  | nil =>
    simp only [validateInvites, Except.ok.injEq] at h
    subst after
    simp
  | cons hash rest ih =>
    simp only [validateInvites, bind_ok_iff, wrap_ok_iff] at h
    obtain ⟨inviteHash, parsed, h⟩ := h
    split at h
    · cases h
    · rename_i fresh
      obtain ⟨distinct, unseen, grown⟩ := ih h
      have new : inviteHash ∉ seen.keys := by simp [mem_keys_iff, fresh]
      have keys : ∀ d, d ∈ (seen.insert inviteHash
          s!"room {std.quote room.id} invite {j}").keys ↔ d = inviteHash ∨ d ∈ seen.keys :=
        fun d => Finset.mem_insert
      rw [List.map_cons, digest_of_ok parsed]
      refine ⟨?_, ?_, ?_⟩
      · refine List.nodup_cons.mpr ⟨fun again => ?_, distinct⟩
        exact unseen _ again ((keys _).mpr (Or.inl rfl))
      · intro d member
        rcases List.mem_cons.mp member with rfl | later
        · exact new
        · exact fun old => unseen d later ((keys d).mpr (Or.inr old))
      · intro d
        rw [grown, keys, List.mem_cons]
        tauto

theorem validate_room_ok {std : Stdlib} {i : Nat} {room : RoomConfig} {seen : Finset Bytes}
    {hashes after : Table Digest String} (h : validateRoom std i room seen hashes = .ok after) :
    room.id ∉ seen ∧ (roomDigests room).Nodup ∧ (∀ d ∈ roomDigests room, d ∉ hashes.keys) ∧
      ∀ d, d ∈ after.keys ↔ d ∈ hashes.keys ∨ d ∈ roomDigests room := by
  simp only [validateRoom, bind_ok_iff, refuse_ok_iff, wrap_ok_iff] at h
  obtain ⟨-, -, -, fresh, producerHash, parsed, h⟩ := h
  split at h
  · cases h
  · rename_i unused
    simp only [bind_ok_iff, refuse_ok_iff] at h
    obtain ⟨-, -, invites, accepted, -, -, h⟩ := h
    obtain ⟨distinct, unseen, grown⟩ := validate_invites_ok accepted
    have same : invites = after := by simpa [pure, Except.pure] using h
    subst same
    have new : producerHash ∉ hashes.keys := by simp [mem_keys_iff, unused]
    have keys : ∀ d, d ∈ (hashes.insert producerHash
        s!"room {std.quote room.id} producer").keys ↔ d = producerHash ∨ d ∈ hashes.keys :=
      fun d => Finset.mem_insert
    simp only [roomDigests, digest_of_ok parsed]
    refine ⟨fresh, ?_, ?_, ?_⟩
    · refine List.nodup_cons.mpr ⟨fun again => ?_, distinct⟩
      exact unseen _ again ((keys _).mpr (Or.inl rfl))
    · intro d member
      rcases List.mem_cons.mp member with rfl | later
      · exact new
      · exact fun old => unseen d later ((keys d).mpr (Or.inr old))
    · intro d
      rw [grown, keys, List.mem_cons]
      tauto

theorem validate_rooms_ok {std : Stdlib} {i : Nat} {rooms : List RoomConfig} {seen : Finset Bytes}
    {hashes : Table Digest String} (h : validateRooms std i rooms seen hashes = .ok ()) :
    (rooms.map RoomConfig.id).Nodup ∧ (∀ room ∈ rooms, room.id ∉ seen) ∧
      (rooms.flatMap roomDigests).Nodup ∧ ∀ d ∈ rooms.flatMap roomDigests, d ∉ hashes.keys := by
  induction rooms generalizing i seen hashes with
  | nil => simp
  | cons room rest ih =>
    simp only [validateRooms, bind_ok_iff] at h
    obtain ⟨after, first, h⟩ := h
    obtain ⟨fresh, own, unused, grown⟩ := validate_room_ok first
    obtain ⟨ids, unseen, digests, later⟩ := ih h
    refine ⟨?_, ?_, ?_, ?_⟩
    · rw [List.map_cons, List.nodup_cons, List.mem_map]
      refine ⟨?_, ids⟩
      rintro ⟨other, member, same⟩
      exact unseen other member (same ▸ Finset.mem_insert_self _ _)
    · intro other member
      rcases List.mem_cons.mp member with rfl | behind
      · exact fresh
      · exact fun old => unseen other behind (Finset.mem_insert_of_mem old)
    · rw [List.flatMap_cons, List.nodup_append]
      refine ⟨own, digests, fun d mine e theirs => ?_⟩
      rintro rfl
      exact later d theirs ((grown d).mpr (Or.inr mine))
    · intro d member
      rcases List.mem_append.mp (List.flatMap_cons ▸ member) with mine | theirs
      · exact unused d mine
      · exact fun old => later d theirs ((grown d).mpr (Or.inl old))

theorem accepted_distinct {std : Stdlib} {c : Config} (h : c.validate std = .ok ()) :
    (c.rooms.map RoomConfig.id).Nodup ∧ (c.rooms.flatMap roomDigests).Nodup := by
  obtain ⟨ids, -, digests, -⟩ := validate_rooms_ok (validate_ok_iff.mp h).rooms
  exact ⟨ids, digests⟩

theorem buildRooms_configured {rooms : List RoomConfig} {name : RoomId} {built : Room}
    (found : (buildRooms rooms).lookup name = some built) :
    ∃ room ∈ rooms, room.id = name ∧ built = buildRoom room := by
  have fold : ∀ (l : List RoomConfig) (start : Table RoomId Room),
      (l.foldl (fun built room => built.insert room.id (buildRoom room)) start).lookup name =
        some built →
      start.lookup name = some built ∨ ∃ room ∈ l, room.id = name ∧ built = buildRoom room := by
    intro l
    induction l with
    | nil => exact fun start h => Or.inl h
    | cons room rest ih =>
      intro start h
      rcases ih _ h with here | ⟨other, member, same⟩
      · rcases lookup_insert_some here with ⟨rfl, rfl⟩ | ⟨-, before⟩
        · exact Or.inr ⟨room, List.mem_cons_self, rfl, rfl⟩
        · exact Or.inl before
      · exact Or.inr ⟨other, List.mem_cons_of_mem _ member, same⟩
  rcases fold rooms empty found with none | configured
  · cases none
  · exact configured

/-- What a request must look like to be let in as a producer. -/
theorem authenticateProducer_some {sum : Bytes → Digest} {rooms : Table RoomId Room}
    {roomHeaders authorizationHeaders : List Bytes} {room : Room}
    (h : authenticateProducer sum rooms roomHeaders authorizationHeaders = some room) :
    ∃ name token, roomHeaders = [name] ∧ authorizationHeaders = [bearer ++ token] ∧
      rooms.lookup name = some room ∧ sum token = room.producerHash := by
  unfold authenticateProducer at h
  split at h
  · rename_i name authorization
    simp only [Option.ite_none_left_eq_some, not_or, not_not] at h
    obtain ⟨⟨⟨token, rfl⟩, -⟩, ⟨-, good⟩, found⟩ := h
    rw [found, List.drop_left, tokenMatches_iff] at good
    exact ⟨name, token, rfl, rfl, found, good⟩
  · cases h

theorem acceptInvite_some {sum : Bytes → Digest} {rooms : Table RoomId Room}
    {name token : Bytes} {room : Room} (h : acceptInvite sum rooms name token = some room) :
    rooms.lookup name = some room ∧ sum token ∈ room.inviteHashes := by
  simp only [acceptInvite, Option.ite_none_left_eq_some, not_or, not_not] at h
  obtain ⟨⟨-, good⟩, found⟩ := h
  rw [found, matchesAny_iff] at good
  exact ⟨found, good⟩

def GoodFor (sum : Bytes → Digest) (token : Bytes) (room : RoomConfig) : Role → Prop
  | .producer => sum token = digest room.producerTokenSHA256
  | .invite => sum token ∈ room.inviteTokenSHA256.map digest

theorem accepts_room {sum : Bytes → Digest} {rooms : List RoomConfig} {token name : Bytes}
    {role : Role} (h : Accepts sum (buildRooms rooms) token name role) :
    ∃ room ∈ rooms, room.id = name ∧ GoodFor sum token room role := by
  cases role with
  | producer =>
    obtain ⟨built, accepted⟩ := Option.isSome_iff_exists.mp h
    obtain ⟨named, presented, sameName, sameToken, found, good⟩ :=
      authenticateProducer_some accepted
    obtain ⟨room, member, id, rfl⟩ := buildRooms_configured found
    simp only [List.cons.injEq, and_true] at sameName sameToken
    have same := List.append_cancel_left sameToken
    subst same
    exact ⟨room, member, id.trans sameName.symm, good⟩
  | invite =>
    obtain ⟨built, accepted⟩ := Option.isSome_iff_exists.mp h
    obtain ⟨found, good⟩ := acceptInvite_some accepted
    obtain ⟨room, member, id, rfl⟩ := buildRooms_configured found
    exact ⟨room, member, id, good⟩

/-- Digests tell the rooms of an accepted configuration apart. -/
theorem same_room {rooms : List RoomConfig} (distinct : (rooms.flatMap roomDigests).Nodup)
    {first second : RoomConfig} (left : first ∈ rooms) (right : second ∈ rooms) {d : Digest}
    (here : d ∈ roomDigests first) (there : d ∈ roomDigests second) : first = second := by
  by_contra other
  have disjoint := (List.nodup_flatMap.mp distinct).2
  have symmetric : Std.Symm (Function.onFun List.Disjoint roomDigests) := ⟨fun _ _ h => h.symm⟩
  have apart : (roomDigests first).Disjoint (roomDigests second) :=
    disjoint.forall left right other
  exact apart here there

/-- A token is good for at most one role in at most one configured room. -/
structure OneCapability (sum : Bytes → Digest) (c : Config) (token : Bytes) : Prop where
  unique : ∀ name role name' role', Accepts sum (buildRooms c.rooms) token name role →
    Accepts sum (buildRooms c.rooms) token name' role' → name = name' ∧ role = role'
  configured : ∀ name role, Accepts sum (buildRooms c.rooms) token name role →
    name ∈ c.rooms.map RoomConfig.id
  headers : ∀ roomHeaders authorizationHeaders room,
    authenticateProducer sum (buildRooms c.rooms) roomHeaders authorizationHeaders = some room →
    ∃ name presented, roomHeaders = [name] ∧ authorizationHeaders = [bearer ++ presented] ∧
      Accepts sum (buildRooms c.rooms) presented name .producer

theorem one_credential_one_capability (std : Stdlib) (sum : Bytes → Digest) (c : Config)
    (accepted : c.validate std = .ok ()) (token : Bytes) : OneCapability sum c token := by
  obtain ⟨-, distinct⟩ := accepted_distinct accepted
  constructor
  case unique =>
    intro name role name' role' left right
    obtain ⟨first, member, rfl, good⟩ := accepts_room left
    obtain ⟨second, member', rfl, good'⟩ := accepts_room right
    have own : sum token ∈ roomDigests first := by
      cases role with
      | producer => exact List.mem_cons.mpr (Or.inl good)
      | invite => exact List.mem_cons_of_mem _ good
    have other : sum token ∈ roomDigests second := by
      cases role' with
      | producer => exact List.mem_cons.mpr (Or.inl good')
      | invite => exact List.mem_cons_of_mem _ good'
    have same := same_room distinct member member' own other
    subst same
    have apart := (List.nodup_cons.mp ((List.nodup_flatMap.mp distinct).1 first member)).1
    refine ⟨rfl, ?_⟩
    cases role <;> cases role'
    · rfl
    · exact absurd (good ▸ good') apart
    · exact absurd (good' ▸ good) apart
    · rfl
  case configured =>
    intro name role accepts
    obtain ⟨room, member, rfl, -⟩ := accepts_room accepts
    exact List.mem_map_of_mem member
  case headers =>
    intro roomHeaders authorizationHeaders room h
    obtain ⟨name, presented, rfl, rfl, -⟩ := authenticateProducer_some h
    exact ⟨name, presented, rfl, rfl, Option.isSome_iff_exists.mpr ⟨room, h⟩⟩

def twoRooms : Config :=
  { exampleConfig with
    rooms := [⟨bytes "room", List.replicate 64 48, [List.replicate 64 49], 4⟩,
      ⟨bytes "other", List.replicate 64 50, [List.replicate 64 51], 4⟩] }

theorem twoRooms_accepted : twoRooms.validate exampleStdlib = .ok () := by
  rw [validate_ok_iff]
  refine ⟨by decide, ⟨_, rfl⟩, rfl, by simp [twoRooms, exampleConfig], rfl, ?_, ?_, ?_, ?_, ?_, ?_,
    ?_, ?_, ?_, ?_, ?_, ?_, ?_, ?_, by simp [twoRooms, exampleConfig], rfl⟩
  all_goals decide

def guestToken : Bytes := List.replicate 24 65
def streamerToken : Bytes := List.replicate 24 66

/-- The guest's token is an invite to the first room, every other one produces for the second. -/
def twoSums (token : Bytes) : Digest :=
  if token = guestToken then digest (List.replicate 64 49) else digest (List.replicate 64 50)

theorem one_credential_one_capability_example :
    (acceptInvite twoSums (buildRooms twoRooms.rooms) (bytes "room") guestToken).isSome = true ∧
      (authenticateProducer twoSums (buildRooms twoRooms.rooms) [bytes "other"]
        [bearer ++ streamerToken]).isSome = true ∧
      OneCapability twoSums twoRooms guestToken ∧ OneCapability twoSums twoRooms streamerToken :=
  ⟨by decide, by decide,
    one_credential_one_capability exampleStdlib _ twoRooms twoRooms_accepted guestToken,
    one_credential_one_capability exampleStdlib _ twoRooms twoRooms_accepted streamerToken⟩

end RelayCredentials
