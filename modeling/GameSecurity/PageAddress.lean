import GameSecurity.UrlParams

/- deployment.ts: what the page reads of its address, and what it leaves there. -/
namespace PageAddress
open AsciiText UrlParams

abbrev Params := List (Text × Text)

def Params.has (params : Params) (key : Text) : Bool := params.any fun param => param.1 = key

def Params.get (params : Params) (key : Text) : Option Text :=
  (params.find? fun param => param.1 = key).map Prod.snd

def Params.delete (params : Params) (key : Text) : Params :=
  params.filter fun param => param.1 ≠ key

inductive RadarDeploymentMode where
  | embedded
  | relay
  deriving DecidableEq, Repr

/-- An empty token counts as none. -/
def resolveRadarDeployment (utf8 : Utf8) (search : Text) : RadarDeploymentMode :=
  if (Params.get (parse utf8 search) (text "token")).getD [] ≠ [] then .embedded else .relay

def sensitiveKeys : List Text :=
  [text "token", text "invite", text "inviteToken", text "access_token"]

/-- One turn of the loop over the keys: the parameters, and whether they have changed. -/
def sweep (state : Params × Bool) (key : Text) : Params × Bool :=
  if state.1.has key then (state.1.delete key, true) else state

/-- none: nothing is to be changed. -/
def sanitizeRelayUrl (utf8 : Utf8) (pathname search : Text) : Option Text :=
  let swept := sensitiveKeys.foldl sweep (parse utf8 search, false)
  if ¬ swept.2 then none
  else
    let query := serialize swept.1
    some (pathname ++ if query ≠ [] then 63 :: query else [])

theorem has_iff {params : Params} {key : Text} :
    params.has key = true ↔ ∃ param ∈ params, param.1 = key := by
  rw [Params.has, List.any_eq_true]
  simp only [decide_eq_true_eq]

theorem sweep_all (keys : List Text) (params : Params) (changed : Bool) :
    (keys.foldl sweep (params, changed)).1 = (params.filter fun param => param.1 ∉ keys) ∧
      ((keys.foldl sweep (params, changed)).2 = true ↔
        changed = true ∨ ∃ param ∈ params, param.1 ∈ keys) := by
  induction keys generalizing params changed with
  | nil => simp
  | cons key rest ih =>
    rw [List.foldl_cons]
    by_cases present : params.has key = true
    · have turn : sweep (params, changed) key = (params.delete key, true) := if_pos present
      obtain ⟨left, changes⟩ := ih (params.delete key) true
      obtain ⟨param, member, same⟩ := has_iff.mp present
      rw [turn]
      constructor
      · rw [left, Params.delete, List.filter_filter]
        apply List.filter_congr
        intro other _
        simp [Bool.and_comm]
      · rw [changes]
        constructor
        · intro _
          exact .inr ⟨param, member, by rw [same]; exact List.mem_cons_self⟩
        · exact fun _ => .inl rfl
    · have turn : sweep (params, changed) key = (params, changed) := if_neg present
      obtain ⟨left, changes⟩ := ih params changed
      have absent : ∀ param ∈ params, param.1 ≠ key :=
        fun param member same => present (has_iff.mpr ⟨param, member, same⟩)
      rw [turn]
      constructor
      · rw [left]
        apply List.filter_congr
        intro other member
        simp [absent other member]
      · rw [changes]
        apply or_congr_right
        constructor
        · rintro ⟨param, member, kept⟩
          exact ⟨param, member, List.mem_cons_of_mem _ kept⟩
        · rintro ⟨param, member, kept⟩
          exact ⟨param, member, (List.mem_cons.mp kept).resolve_left (absent param member)⟩

theorem sanitizeRelayUrl_eq (utf8 : Utf8) (pathname search : Text) :
    sanitizeRelayUrl utf8 pathname search =
      let left := (parse utf8 search).filter fun param => param.1 ∉ sensitiveKeys
      if (parse utf8 search).any fun param => param.1 ∈ sensitiveKeys then
        some (pathname ++ if serialize left ≠ [] then 63 :: serialize left else [])
      else none := by
  obtain ⟨left, changes⟩ := sweep_all sensitiveKeys (parse utf8 search) false
  have whole : sanitizeRelayUrl utf8 pathname search =
      let swept := sensitiveKeys.foldl sweep (parse utf8 search, false)
      if ¬ swept.2 then none
      else some (pathname ++ if serialize swept.1 ≠ [] then 63 :: serialize swept.1 else []) := rfl
  rw [whole, ← left]
  by_cases changed : (sensitiveKeys.foldl sweep (parse utf8 search, false)).2 = true
  · obtain ⟨param, member, taken⟩ := (changes.mp changed).resolve_left Bool.false_ne_true
    have found : ((parse utf8 search).any fun param => param.1 ∈ sensitiveKeys) = true :=
      List.any_eq_true.mpr ⟨param, member, decide_eq_true taken⟩
    simp only
    rw [if_neg (not_not.mpr changed), if_pos found]
  · have absent : ¬ ((parse utf8 search).any fun param => param.1 ∈ sensitiveKeys) = true := by
      intro found
      obtain ⟨param, member, taken⟩ := List.any_eq_true.mp found
      exact changed (changes.mpr (.inr ⟨param, member, of_decide_eq_true taken⟩))
    simp only
    rw [if_pos changed, if_neg absent]

theorem written_parse {utf8 : Utf8} {params : Params}
    (texts : ∀ param ∈ params, utf8.decode param.1 = param.1 ∧ utf8.decode param.2 = param.2) :
    parse utf8 (if serialize params ≠ [] then 63 :: serialize params else []) = params := by
  by_cases none : params = []
  · rw [none]
    rfl
  · rw [if_pos (serialize_ne_nil none)]
    exact parse_serialize texts none

/-- A relay page takes exactly the credentials out of its address: if there are none it leaves the
    address alone, and otherwise everything else stays, and the page stays a relay page. -/
theorem address_sanitized (utf8 : Utf8) (pathname search : Text) :
    (sanitizeRelayUrl utf8 pathname search = none ↔
      ∀ param ∈ parse utf8 search, param.1 ∉ sensitiveKeys) ∧
    ∀ url ∈ sanitizeRelayUrl utf8 pathname search, ∃ query, url = pathname ++ query ∧
      (query = [] ∨ query.head? = some 63) ∧ 35 ∉ query ∧
      parse utf8 query = ((parse utf8 search).filter fun param => param.1 ∉ sensitiveKeys) ∧
      sanitizeRelayUrl utf8 pathname query = none ∧
      resolveRadarDeployment utf8 query = .relay := by
  have unchanged : ∀ search, sanitizeRelayUrl utf8 pathname search = none ↔
      ∀ param ∈ parse utf8 search, param.1 ∉ sensitiveKeys := by
    intro search
    rw [sanitizeRelayUrl_eq]
    split
    · rename_i found
      obtain ⟨param, member, taken⟩ := List.any_eq_true.mp found
      exact iff_of_false (Option.some_ne_none _)
        fun each => each param member (of_decide_eq_true taken)
    · rename_i absent
      exact iff_of_true rfl fun param member taken =>
        absent (List.any_eq_true.mpr ⟨param, member, decide_eq_true taken⟩)
  refine ⟨unchanged search, ?_⟩
  intro url written
  rw [sanitizeRelayUrl_eq] at written
  generalize kept : ((parse utf8 search).filter fun param => param.1 ∉ sensitiveKeys) = params
    at written
  have harmless : ∀ param ∈ params, param.1 ∉ sensitiveKeys := by
    intro param member
    rw [← kept] at member
    exact of_decide_eq_true (List.mem_filter.mp member).2
  have texts : ∀ param ∈ params, utf8.decode param.1 = param.1 ∧ utf8.decode param.2 = param.2 := by
    intro param member
    rw [← kept] at member
    exact parse_texts (List.mem_of_mem_filter member)
  have read := written_parse texts
  generalize query_ : (if serialize params ≠ [] then 63 :: serialize params else []) = query at read
  refine ⟨query, ?_, ?_, ?_, read, ?_, ?_⟩
  · split at written
    · rw [← query_]
      exact (Option.some.inj written).symm
    · cases written
  · rw [← query_]
    split
    · exact .inr rfl
    · exact .inl rfl
  · rw [← query_]
    intro hash
    split at hash
    · rcases List.mem_cons.mp hash with mark | inside
      · cases mark
      · exact serialize_no_hash inside
    · cases hash
  · rw [unchanged, read]
    exact harmless
  · have missing : Params.get params (text "token") = none := by
      rw [Params.get, Option.map_eq_none_iff, List.find?_eq_none]
      intro param member same
      apply harmless param member
      rw [of_decide_eq_true same]
      exact List.mem_cons_self
    rw [resolveRadarDeployment, read, missing]
    rfl

/-- The decoder on what is plain text already. -/
def asciiDecoder : Utf8 := ⟨id, fun _ => rfl⟩

theorem address_sanitized_invite : ∃ query,
    sanitizeRelayUrl asciiDecoder (text "/radar") (text "?invite=a%2Fb&layer=lower+level&debug") =
        some (text "/radar" ++ query) ∧
      parse asciiDecoder query = [(text "layer", text "lower level"), (text "debug", [])] ∧
      resolveRadarDeployment asciiDecoder query = .relay := by
  obtain ⟨unchanged, kept⟩ := address_sanitized asciiDecoder (text "/radar")
    (text "?invite=a%2Fb&layer=lower+level&debug")
  cases written : sanitizeRelayUrl asciiDecoder (text "/radar")
      (text "?invite=a%2Fb&layer=lower+level&debug") with
  | none => exact absurd (unchanged.mp written) (by decide)
  | some url =>
    obtain ⟨query, rfl, -, -, read, -, relay⟩ := kept url written
    refine ⟨query, rfl, ?_, relay⟩
    rw [read]
    decide

end PageAddress
