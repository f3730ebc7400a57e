import Mathlib.Data.List.Induction

/- Maps that are walked in the order of their keys. -/
namespace SortedMap

/-- The entries, one for each key. -/
structure Map (K V : Type) [LT K] where
  entries : List (K × V)
  ascending : entries.Pairwise fun a b => a.1 < b.1

section Insert

variable {K V : Type} [LT K]

theorem map_ext {m m' : Map K V} (same : m.entries = m'.entries) : m = m' := by
  cases m
  cases m'
  cases same
  rfl

variable [DecidableLT K] [DecidableEq K]

/-- A new value goes to its key's place, in place of an old one. -/
def insertEntry (k : K) (v : V) : List (K × V) → List (K × V)
  | [] => [(k, v)]
  | entry :: rest =>
    if k < entry.1 then (k, v) :: entry :: rest
    else if k = entry.1 then (k, v) :: rest
    else entry :: insertEntry k v rest

def lookup (k : K) (entries : List (K × V)) : Option V :=
  (entries.find? fun entry => decide (entry.1 = k)).map Prod.snd

def Map.find? (m : Map K V) (k : K) : Option V := lookup k m.entries

def empty : Map K V := ⟨[], List.Pairwise.nil⟩

theorem mem_insertEntry {k : K} {v : V} {entries : List (K × V)} {entry : K × V}
    (member : entry ∈ insertEntry k v entries) : entry = (k, v) ∨ entry ∈ entries := by
  induction entries with
  | nil => exact Or.inl (List.mem_singleton.mp member)
  | cons first rest ih =>
    rw [insertEntry] at member
    split at member
    · exact List.mem_cons.mp member
    · split at member
      · rcases List.mem_cons.mp member with new | old
        · exact Or.inl new
        · exact Or.inr (List.mem_cons_of_mem first old)
      · rcases List.mem_cons.mp member with rfl | later
        · exact Or.inr List.mem_cons_self
        · exact (ih later).imp_right (List.mem_cons_of_mem first)

omit [LT K] [DecidableLT K] in
theorem lookup_cons (k : K) (entry : K × V) (rest : List (K × V)) :
    lookup k (entry :: rest) = if entry.1 = k then some entry.2 else lookup k rest := by
  rw [lookup, List.find?_cons]
  by_cases same : entry.1 = k
  · simp [same]
  · simp [same, lookup]

theorem lookup_insertEntry (k j : K) (v : V) (entries : List (K × V)) :
    lookup j (insertEntry k v entries) = if k = j then some v else lookup j entries := by
  induction entries with
  | nil => exact lookup_cons j (k, v) []
  | cons first rest ih =>
    rw [insertEntry]
    split
    · exact lookup_cons j (k, v) (first :: rest)
    · split
      · next same =>
        rw [lookup_cons, lookup_cons, same]
        split <;> rfl
      · next differs =>
        rw [lookup_cons, ih, lookup_cons]
        by_cases here : first.1 = j
        · have other : k ≠ j := fun same => differs (same.trans here.symm)
          rw [if_pos here, if_neg other, if_pos here]
        · rw [if_neg here, if_neg here]

variable [Trans (· < · : K → K → Prop) (· < ·) (· < ·)]

/-- Behind all keys before it a new entry is the last one. -/
theorem insertEntry_last [Std.Irrefl (· < · : K → K → Prop)] {k : K} {v : V} {entries : List (K × V)}
    (before : ∀ entry ∈ entries, entry.1 < k) : insertEntry k v entries = entries ++ [(k, v)] := by
  induction entries with
  | nil => rfl
  | cons first rest ih =>
    have low := before first List.mem_cons_self
    have above : ¬ k < first.1 := fun high => Std.Irrefl.irrefl k (Trans.trans high low)
    have differs : k ≠ first.1 := by
      rintro rfl
      exact above low
    rw [insertEntry, if_neg above, if_neg differs,
      ih fun entry member => before entry (List.mem_cons_of_mem first member)]
    rfl

theorem insertEntry_replace [Std.Irrefl (· < · : K → K → Prop)] {k : K} {v w : V}
    {entries : List (K × V)} (before : ∀ entry ∈ entries, entry.1 < k) :
    insertEntry k v (entries ++ [(k, w)]) = entries ++ [(k, v)] ∧
      lookup k (entries ++ [(k, w)]) = some w := by
  induction entries with
  | nil =>
    constructor
    · rw [List.nil_append, insertEntry, if_neg (Std.Irrefl.irrefl k), if_pos rfl]
      rfl
    · rw [List.nil_append, lookup_cons, if_pos rfl]
  | cons first rest ih =>
    have low := before first List.mem_cons_self
    have above : ¬ k < first.1 := fun high => Std.Irrefl.irrefl k (Trans.trans high low)
    have differs : k ≠ first.1 := by
      rintro rfl
      exact above low
    obtain ⟨replaced, found⟩ := ih fun entry member => before entry (List.mem_cons_of_mem first member)
    constructor
    · rw [List.cons_append, insertEntry, if_neg above, if_neg differs, replaced]
      rfl
    · rw [List.cons_append, lookup_cons, if_neg (Ne.symm differs), found]

variable [Std.Trichotomous (· < · : K → K → Prop)]

theorem insertEntry_ascending {k : K} {v : V} {entries : List (K × V)}
    (ascending : entries.Pairwise fun a b => a.1 < b.1) :
    (insertEntry k v entries).Pairwise fun a b => a.1 < b.1 := by
  induction entries with
  | nil => exact List.pairwise_singleton _ _
  | cons first rest ih =>
    obtain ⟨least, others⟩ := List.pairwise_cons.mp ascending
    rw [insertEntry]
    split
    · next low =>
      refine List.pairwise_cons.mpr ⟨fun entry member => ?_, ascending⟩
      rcases List.mem_cons.mp member with rfl | later
      · exact low
      · exact Trans.trans low (least entry later)
    · next high =>
      split
      · next same =>
        refine List.pairwise_cons.mpr ⟨fun entry member => ?_, others⟩
        exact same ▸ least entry member
      · next differs =>
        have low : first.1 < k := by
          by_contra above
          exact differs (Std.Trichotomous.trichotomous k first.1 high above)
        refine List.pairwise_cons.mpr ⟨fun entry member => ?_, ih others⟩
        rcases mem_insertEntry member with rfl | old
        · exact low
        · exact least entry old

def Map.set (m : Map K V) (k : K) (v : V) : Map K V :=
  ⟨insertEntry k v m.entries, insertEntry_ascending m.ascending⟩

/-- The entries are set one after the other, so the last of a key stays. -/
def ofList (entries : List (K × V)) : Map K V :=
  entries.foldl (fun m entry => m.set entry.1 entry.2) empty

theorem find_set (m : Map K V) (k j : K) (v : V) :
    (m.set k v).find? j = if k = j then some v else m.find? j := lookup_insertEntry k j v m.entries

theorem ofList_append (entries : List (K × V)) (k : K) (v : V) :
    ofList (entries ++ [(k, v)]) = (ofList entries).set k v := by
  rw [ofList, List.foldl_append]
  rfl

theorem ofList_ascending [Std.Irrefl (· < · : K → K → Prop)] {entries : List (K × V)}
    (ascending : entries.Pairwise fun a b => a.1 < b.1) : (ofList entries).entries = entries := by
  induction entries using List.reverseRecOn with
  | nil => rfl
  | append_singleton entries entry ih =>
    obtain ⟨earlier, -, last⟩ := List.pairwise_append.mp ascending
    rw [ofList_append]
    change insertEntry entry.1 entry.2 (ofList entries).entries = _
    rw [ih earlier]
    exact insertEntry_last fun other member => last other member entry (List.mem_singleton_self _)

theorem ofList_entries [Std.Irrefl (· < · : K → K → Prop)] (m : Map K V) :
    ofList m.entries = m := map_ext (ofList_ascending m.ascending)

theorem find_ofList {entries : List (K × V)} (distinct : (entries.map Prod.fst).Nodup) {k : K}
    {v : V} : (ofList entries).find? k = some v ↔ (k, v) ∈ entries := by
  induction entries using List.reverseRecOn with
  | nil => exact iff_of_false nofun List.not_mem_nil
  | append_singleton entries entry ih =>
    rw [List.map_append, List.nodup_append] at distinct
    obtain ⟨earlier, -, apart⟩ := distinct
    obtain ⟨j, w⟩ := entry
    rw [ofList_append, find_set, List.mem_append, List.mem_singleton]
    by_cases same : j = k
    · subst same
      have absent : (j, v) ∉ entries := fun member =>
        apart j (List.mem_map_of_mem member) j (List.mem_singleton_self j) rfl
      rw [if_pos rfl, or_iff_right absent]
      simp [eq_comm]
    · have other : (k, v) ≠ (j, w) := fun equal => same (congrArg Prod.fst equal).symm
      rw [if_neg same, ih earlier, or_iff_left other]

theorem find_ofList_last (entries : List (K × V)) (k : K) : (ofList entries).find? k =
    (entries.reverse.find? fun entry => decide (entry.1 = k)).map Prod.snd := by
  induction entries using List.reverseRecOn with
  | nil => rfl
  | append_singleton entries entry ih =>
    rw [ofList_append, find_set, ih, List.reverse_append, List.reverse_singleton,
      List.singleton_append, List.find?_cons]
    by_cases same : entry.1 = k
    · simp [same]
    · simp [same]

theorem find_ofList_iff {entries : List (K × V)} {k : K} {v : V} :
    (ofList entries).find? k = some v ↔ ∃ before after, entries = before ++ (k, v) :: after ∧
      ∀ later ∈ after, later.1 ≠ k := by
  rw [find_ofList_last, Option.map_eq_some_iff]
  constructor
  · rintro ⟨⟨j, w⟩, found, rfl⟩
    obtain ⟨same, after, before, split, others⟩ := List.find?_eq_some_iff_append.mp found
    have same : j = k := of_decide_eq_true same
    refine ⟨before.reverse, after.reverse, ?_, fun later member => ?_⟩
    · rw [← List.reverse_reverse entries, split, same]
      simp
    · simpa using others later (List.mem_reverse.mp member)
  · rintro ⟨before, after, rfl, others⟩
    refine ⟨(k, v), List.find?_eq_some_iff_append.mpr ⟨decide_eq_true rfl, after.reverse,
      before.reverse, by simp, fun later member => ?_⟩, rfl⟩
    simpa using others later (List.mem_reverse.mp member)

theorem find_filterMap_iff {α : Type} {f : α → Option (K × V)} {xs : List α} {k : K} {v : V} :
    (ofList (xs.filterMap f)).find? k = some v ↔ ∃ before x after, xs = before ++ x :: after ∧
      f x = some (k, v) ∧ ∀ later ∈ after, ∀ w, f later ≠ some (k, w) := by
  rw [find_ofList_iff]
  constructor
  · rintro ⟨before, after, split, others⟩
    obtain ⟨first, second, rfl, -, second_⟩ := List.filterMap_eq_append_iff.mp split
    obtain ⟨skipped, x, rest, rfl, -, here, rest_⟩ := List.filterMap_eq_cons_iff.mp second_
    refine ⟨first ++ skipped, x, rest, by simp, here, fun later member w found => ?_⟩
    exact others (k, w) (rest_ ▸ List.mem_filterMap.mpr ⟨later, member, found⟩) rfl
  · rintro ⟨before, x, after, rfl, here, others⟩
    refine ⟨before.filterMap f, after.filterMap f, by simp [here], fun entry member same => ?_⟩
    obtain ⟨later, among, found⟩ := List.mem_filterMap.mp member
    exact others later among entry.2 (found.trans (congrArg some (Prod.ext same rfl)))

theorem find_iff_mem [Std.Irrefl (· < · : K → K → Prop)] {m : Map K V} {k : K} {v : V} :
    m.find? k = some v ↔ (k, v) ∈ m.entries := by
  have distinct : (m.entries.map Prod.fst).Nodup := by
    refine (List.pairwise_map.mpr m.ascending).imp fun {a b} low same => ?_
    subst same
    exact Std.Irrefl.irrefl a low
  conv_lhs => rw [← ofList_entries m]
  exact find_ofList distinct

theorem ofList_eq_nil_iff {entries : List (K × V)} :
    (ofList entries).entries = [] ↔ entries = [] := by
  induction entries using List.reverseRecOn with
  | nil => exact Iff.rfl
  | append_singleton entries entry _ =>
    refine iff_of_false (fun none_ => ?_) (by simp)
    have found : (ofList (entries ++ [entry])).find? entry.1 = some entry.2 :=
      find_ofList_iff.mpr ⟨entries, [], rfl, fun later member => (by cases member)⟩
    rw [Map.find?, none_] at found
    cases found

end Insert

def Map.mapValues {K V W : Type} [LT K] (m : Map K V) (f : V → W) : Map K W where
  entries := m.entries.map fun entry => (entry.1, f entry.2)
  ascending := List.pairwise_map.mpr m.ascending

end SortedMap
