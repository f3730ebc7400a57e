import GameSecurity.FixedMapRadar
import GameSecurity.Hysteresis
import Mathlib.Tactic.NormNum

/- The floor that is selected as a reference height moves. -/
namespace FloorHysteresis
open FixedMapRadar

def Contains (level : MapLevel) (z : ℚ) : Prop := level.minimumZ ≤ z ∧ z < level.maximumZ

/-- Valid levels that fill one interval of heights, none of them twice, in any order. -/
structure Tiles (levels : List MapLevel) (low high : ℚ) : Prop where
  valid : ∀ level ∈ levels, level.minimumZ < level.maximumZ
  apart : levels.Pairwise fun a b => ∀ z, ¬ (Contains a z ∧ Contains b z)
  cover : ∀ z, (∃ level ∈ levels, Contains level z) ↔ low ≤ z ∧ z < high

def selections (levels : List MapLevel) (hysteresis : ℚ) (first : Option Nat) (heights : Nat → ℚ) :
    Nat → Option Nat
  | 0 => first
  | n + 1 => selectLevelWithHysteresis levels (some (heights n))
      (selections levels hysteresis first heights n) hysteresis

/-- The level whose index is selected contains the height, or none does and it is a nearest. -/
def Selected (levels : List MapLevel) (z : ℚ) (i : Nat) : Prop :=
  ∃ level, levels[i]? = some level ∧
    (Contains level z ∨ (∀ other ∈ levels, ¬ Contains other z) ∧
      ∀ other ∈ levels, distance level z ≤ distance other z)

/-- What the loop knows of the levels it has passed: none contains the height, and one of the
   nearest is at hand. -/
structure Passed (z : ℚ) (seen : List MapLevel) (nearest : Option (Nat × ℚ)) : Prop where
  outside : ∀ level ∈ seen, ¬ Contains level z
  empty : nearest = none → seen = []
  best : ∀ n ∈ nearest, ∃ level, seen[n.1]? = some level ∧ n.2 = distance level z ∧
    ∀ other ∈ seen, n.2 ≤ distance other z

theorem Passed.outside_next {z : ℚ} {seen : List MapLevel} {nearest : Option (Nat × ℚ)}
    {level : MapLevel} (passed : Passed z seen nearest) (out : ¬ Contains level z) :
    ∀ other ∈ seen ++ [level], ¬ Contains other z := by
  intro other member
  rcases List.mem_append.mp member with old | last
  · exact passed.outside other old
  · rw [List.mem_singleton.mp last]
    exact out

theorem Passed.take {z : ℚ} {seen : List MapLevel} {nearest : Option (Nat × ℚ)} {level : MapLevel}
    (passed : Passed z seen nearest) (out : ¬ Contains level z)
    (closer : ∀ n ∈ nearest, distance level z < n.2) :
    Passed z (seen ++ [level]) (some (seen.length, distance level z)) where
  outside := passed.outside_next out
  empty none_ := by cases none_
  best := by
    rintro _ ⟨⟩
    refine ⟨level, by simp, rfl, fun other member => ?_⟩
    rcases List.mem_append.mp member with old | last
    · cases nearest with
      | none =>
        rw [passed.empty rfl] at old
        exact absurd old List.not_mem_nil
      | some n =>
        obtain ⟨-, -, -, least⟩ := passed.best n rfl
        exact (closer n rfl).le.trans (least other old)
    · rw [List.mem_singleton.mp last]

theorem Passed.keep {z : ℚ} {seen : List MapLevel} {n : Nat × ℚ} {level : MapLevel}
    (passed : Passed z seen (some n)) (out : ¬ Contains level z)
    (farther : n.2 ≤ distance level z) : Passed z (seen ++ [level]) (some n) where
  outside := passed.outside_next out
  empty none_ := by cases none_
  best := by
    rintro _ ⟨⟩
    obtain ⟨nearer, found, far, least⟩ := passed.best n rfl
    refine ⟨nearer, ?_, far, fun other member => ?_⟩
    · rw [List.getElem?_append_left (List.getElem?_eq_some_iff.mp found).1]
      exact found
    · rcases List.mem_append.mp member with old | last
      · exact least other old
      · rw [List.mem_singleton.mp last]
        exact farther

theorem selectLevelFrom_selected {z : ℚ} {i : Nat} (rest : List MapLevel) :
    ∀ (seen : List MapLevel) (nearest : Option (Nat × ℚ)), Passed z seen nearest →
    (∀ level ∈ rest, level.minimumZ < level.maximumZ) →
    selectLevelFrom z seen.length nearest rest = some i → Selected (seen ++ rest) z i := by
  induction rest with
  | nil =>
    intro seen nearest passed _ chosen
    obtain ⟨n, here, rfl⟩ := Option.map_eq_some_iff.mp chosen
    obtain ⟨level, found, far, least⟩ := passed.best n here
    rw [far] at least
    rw [List.append_nil]
    exact ⟨level, found, Or.inr ⟨passed.outside, least⟩⟩
  | cons level rest ih =>
    intro seen nearest passed valid chosen
    have ordered : isValid level = true := by
      simpa [isValid] using valid level List.mem_cons_self
    have later : ∀ other ∈ rest, other.minimumZ < other.maximumZ :=
      fun other member => valid other (List.mem_cons_of_mem _ member)
    have whole : seen ++ level :: rest = (seen ++ [level]) ++ rest := by simp
    have length : (seen ++ [level]).length = seen.length + 1 := by simp
    by_cases inside : z ≥ level.minimumZ ∧ z < level.maximumZ
    · have here : selectLevelFrom z seen.length nearest (level :: rest) = some seen.length := by
        cases nearest <;> rw [selectLevelFrom, if_neg (by simp [ordered]), if_pos inside]
      obtain rfl := Option.some.inj (here.symm.trans chosen)
      exact ⟨level, by simp, Or.inl inside⟩
    · rw [whole]
      cases nearest with
      | none =>
        rw [selectLevelFrom, if_neg (by simp [ordered]), if_neg inside] at chosen
        exact ih _ _ (passed.take inside (by simp)) later (by rw [length]; exact chosen)
      | some n =>
        rw [selectLevelFrom, if_neg (by simp [ordered]), if_neg inside] at chosen
        split at chosen
        · rename_i closer
          refine ih _ _ (passed.take inside ?_) later (by rw [length]; exact chosen)
          rintro _ ⟨⟩
          exact closer
        · rename_i farther
          exact ih _ _ (passed.keep inside (not_lt.mp farther)) later (by rw [length]; exact chosen)

theorem selectLevelFrom_some {z : ℚ} {index : Nat} {nearest : Option (Nat × ℚ)}
    {rest : List MapLevel} (valid : ∀ level ∈ rest, level.minimumZ < level.maximumZ)
    (some_ : nearest ≠ none ∨ rest ≠ []) : selectLevelFrom z index nearest rest ≠ none := by
  fun_induction selectLevelFrom z index nearest rest with
  | case1 index nearest => simpa using some_
  | case2 index nearest level rest invalid ih =>
    exact absurd (by simpa [isValid] using valid level List.mem_cons_self) invalid
  | case3 index nearest level rest valid_ contains => exact Option.some_ne_none _
  | case4 index level rest valid_ outside ih =>
    exact ih (fun other member => valid other (List.mem_cons_of_mem _ member))
      (Or.inl (Option.some_ne_none _))
  | case5 index level rest valid_ outside nearestIndex nearestDistance closer ih =>
    exact ih (fun other member => valid other (List.mem_cons_of_mem _ member))
      (Or.inl (Option.some_ne_none _))
  | case6 index level rest valid_ outside nearestIndex nearestDistance farther ih =>
    exact ih (fun other member => valid other (List.mem_cons_of_mem _ member))
      (Or.inl (Option.some_ne_none _))

theorem selectLevel_selected {levels : List MapLevel} {z : ℚ}
    (valid : ∀ level ∈ levels, level.minimumZ < level.maximumZ) (some_ : levels ≠ []) :
    ∃ i, selectLevel levels (some z) = some i ∧ Selected levels z i := by
  have start : Passed z [] none := ⟨by simp, fun _ => rfl, by simp⟩
  have found : selectLevel levels (some z) = selectLevelFrom z 0 none levels := if_neg some_
  obtain ⟨i, chosen⟩ := Option.ne_none_iff_exists'.mp
    (@selectLevelFrom_some z 0 none levels valid (Or.inr some_))
  exact ⟨i, found.trans chosen, selectLevelFrom_selected levels [] none start valid chosen⟩

section Tiled

variable {levels : List MapLevel} {low high hysteresis : ℚ}

theorem Tiles.separate (tiles : Tiles levels low high) {i j : Fin levels.length}
    (different : i ≠ j) (z : ℚ) : ¬ (Contains levels[i] z ∧ Contains levels[j] z) := by
  have ordered := List.pairwise_iff_getElem.mp tiles.apart
  rcases Nat.lt_or_gt_of_ne (Fin.val_ne_of_ne different) with before | behind
  · exact ordered i j i.isLt j.isLt before z
  · exact fun both => ordered j i j.isLt i.isLt behind z both.symm

theorem Tiles.bounds (tiles : Tiles levels low high) {level : MapLevel} (member : level ∈ levels) :
    low ≤ level.minimumZ ∧ level.minimumZ < high :=
  (tiles.cover level.minimumZ).mp ⟨level, member, le_rfl, tiles.valid level member⟩

theorem Tiles.distance_below (tiles : Tiles levels low high) {level : MapLevel}
    (member : level ∈ levels) {z : ℚ} (under : z < low) :
    distance level z = level.minimumZ - z :=
  if_pos (under.trans_le (tiles.bounds member).1)

theorem Tiles.distance_above (tiles : Tiles levels low high) {level : MapLevel}
    (member : level ∈ levels) {z : ℚ} (over_ : high ≤ z) :
    distance level z = z - level.maximumZ :=
  if_neg (not_lt.mpr ((tiles.bounds member).2.trans_le over_).le)

def chosen (tiles : Tiles levels low high) (some_ : levels ≠ []) (z : ℚ) : Fin levels.length :=
  ⟨(selectLevel levels (some z)).get (by
    obtain ⟨i, found, -⟩ := selectLevel_selected (z := z) tiles.valid some_
    rw [found]
    rfl), selectLevel_lt (Option.some_get _).symm⟩

theorem selectLevel_chosen (tiles : Tiles levels low high) (some_ : levels ≠ []) (z : ℚ) :
    selectLevel levels (some z) = some (chosen tiles some_ z).val :=
  (Option.some_get _).symm

theorem chosen_selected (tiles : Tiles levels low high) (some_ : levels ≠ []) (z : ℚ) :
    Contains levels[chosen tiles some_ z] z ∨ (z < low ∨ high ≤ z) ∧
      ∀ other ∈ levels, distance levels[chosen tiles some_ z] z ≤ distance other z := by
  obtain ⟨i, found, level, here, selected⟩ := selectLevel_selected (z := z) tiles.valid some_
  obtain rfl := Option.some.inj ((selectLevel_chosen tiles some_ z).symm.trans found)
  obtain rfl : levels[chosen tiles some_ z] = level :=
    Option.some.inj ((List.getElem?_eq_getElem (chosen tiles some_ z).isLt).symm.trans here)
  refine selected.imp_right fun far => ⟨?_, far.2⟩
  by_contra inside
  rw [not_or, not_lt, not_le] at inside
  obtain ⟨level, member, contains⟩ := (tiles.cover z).mpr inside
  exact far.1 level member contains

theorem Tiles.ordered (tiles : Tiles levels low high) (some_ : levels ≠ []) :
    Hysteresis.Ordered (fun i : Fin levels.length => levels[i].minimumZ)
      (fun i => levels[i].maximumZ) (chosen tiles some_) where
  proper i := (tiles.valid _ (List.getElem_mem i.isLt)).le
  apart i j different := by
    have here := tiles.valid _ (List.getElem_mem i.isLt)
    have there := tiles.valid _ (List.getElem_mem j.isLt)
    by_contra crossed
    rw [not_or, not_le, not_le] at crossed
    refine tiles.separate different (max levels[i].minimumZ levels[j].minimumZ) ⟨?_, ?_⟩
    · exact ⟨le_max_left _ _, max_lt here crossed.1⟩
    · exact ⟨le_max_right _ _, max_lt crossed.2 there⟩
  above i j z different under there := by
    subst there
    have first : levels[i] ∈ levels := List.getElem_mem i.isLt
    have second : levels[chosen tiles some_ z] ∈ levels := List.getElem_mem _
    rcases chosen_selected tiles some_ z with inside | ⟨lower | upper, nearest⟩
    · exact inside.1
    · have least := nearest levels[i] first
      rw [tiles.distance_below first lower, tiles.distance_below second lower,
        sub_le_sub_iff_right] at least
      have proper := tiles.valid _ first
      exact absurd (proper.trans_le (under.trans least)) (lt_irrefl _)
    · exact (tiles.bounds second).2.le.trans upper
  below i j z different under here := by
    subst here
    have first : levels[chosen tiles some_ z] ∈ levels := List.getElem_mem _
    have second : levels[j] ∈ levels := List.getElem_mem j.isLt
    have proper := tiles.valid _ first
    rcases chosen_selected tiles some_ z with inside | ⟨lower | upper, nearest⟩
    · exact inside.2
    · exact (lower.trans_le (tiles.bounds first).1).trans proper
    · have least := nearest levels[j] second
      rw [tiles.distance_above first upper, tiles.distance_above second upper,
        sub_le_sub_iff_left] at least
      have taller := tiles.valid _ second
      exact absurd (taller.trans_le (least.trans under)) (lt_irrefl _)

theorem selectLevelWithHysteresis_hold (tiles : Tiles levels low high) (some_ : levels ≠ [])
    (wide : 0 < hysteresis) (z : ℚ) (previous : Fin levels.length) :
    selectLevelWithHysteresis levels (some z) (some previous.val) hysteresis =
      some (Hysteresis.hold (fun i : Fin levels.length => levels[i].minimumZ)
        (fun i => levels[i].maximumZ) (chosen tiles some_) hysteresis z previous).val := by
  have valid : isValid levels[previous] = true := by
    simpa [isValid] using tiles.valid _ (List.getElem_mem previous.isLt)
  rw [selectLevelWithHysteresis_previous (selectLevel_chosen tiles some_ z)
    (List.getElem?_eq_getElem previous.isLt) valid (not_le.mpr wide), Hysteresis.hold,
    apply_ite Fin.val, apply_ite some]
  exact if_congr (and_congr_left' Fin.val_ne_iff) rfl rfl

theorem selectLevelWithHysteresis_empty {z : Number} {previous : Option Nat} :
    selectLevelWithHysteresis [] z previous hysteresis = none := by
  have nothing : selectLevel [] z = none := by cases z <;> rfl
  rw [selectLevelWithHysteresis_fresh (Or.inr (Or.inl nothing)), nothing]

theorem selectLevelWithHysteresis_tiled (tiles : Tiles levels low high) (some_ : levels ≠ [])
    (wide : 0 < hysteresis) (z : ℚ) (previous : Option Nat) :
    (∃ i : Fin levels.length, previous = some i.val ∧
      selectLevelWithHysteresis levels (some z) previous hysteresis =
        some (Hysteresis.hold (fun i : Fin levels.length => levels[i].minimumZ)
          (fun i => levels[i].maximumZ) (chosen tiles some_) hysteresis z i).val) ∨
    selectLevelWithHysteresis levels (some z) previous hysteresis =
      some (chosen tiles some_ z).val := by
  rcases previous with _ | before
  · right
    rw [selectLevelWithHysteresis_fresh (Or.inr (Or.inr rfl)), selectLevel_chosen tiles some_]
  · by_cases inside : before < levels.length
    · exact Or.inl ⟨⟨before, inside⟩, rfl,
        selectLevelWithHysteresis_hold tiles some_ wide z ⟨before, inside⟩⟩
    · right
      have gone : ((some before).bind fun i => levels[i]?) = none :=
        List.getElem?_eq_none (not_lt.mp inside)
      rw [selectLevelWithHysteresis_fresh (Or.inr (Or.inr gone)), selectLevel_chosen tiles some_]

/-- One step selects a level that contains the height, keeps the one before within the margin,
    or takes a nearest level outside them all. -/
theorem selectLevelWithHysteresis_selected (tiles : Tiles levels low high) (some_ : levels ≠ [])
    (wide : 0 < hysteresis) (z : ℚ) (previous : Option Nat) :
    ∃ i level, selectLevelWithHysteresis levels (some z) previous hysteresis = some i ∧
      levels[i]? = some level ∧
      (Contains level z ∨
        (previous = some i ∧ level.minimumZ - hysteresis ≤ z ∧ z < level.maximumZ + hysteresis) ∨
        (z < low ∨ high ≤ z) ∧ ∀ other ∈ levels, distance level z ≤ distance other z) := by
  have fresh := chosen_selected tiles some_ z
  rcases selectLevelWithHysteresis_tiled tiles some_ wide z previous with ⟨i, was, held⟩ | taken
  · refine ⟨_, _, held, List.getElem?_eq_getElem (Fin.isLt _), ?_⟩
    unfold Hysteresis.hold
    split
    · rename_i stays
      exact Or.inr (Or.inl ⟨was, stays.2⟩)
    · exact fresh.imp_right Or.inr
  · exact ⟨_, _, taken, List.getElem?_eq_getElem (Fin.isLt _), fresh.imp_right Or.inr⟩

/-- Two steps that leave a level and take it again are the margin apart. -/
theorem selectLevelWithHysteresis_returns (tiles : Tiles levels low high) (some_ : levels ≠ [])
    (wide : 0 < hysteresis) {v w : ℚ} {a b : Option Nat} (different : a ≠ b)
    (left : selectLevelWithHysteresis levels (some v) a hysteresis = b)
    (back : selectLevelWithHysteresis levels (some w) b hysteresis = a) :
    hysteresis ≤ |v - w| := by
  obtain ⟨i, -, reached, -⟩ := selectLevelWithHysteresis_selected tiles some_ wide w b
  obtain ⟨j, -, reached', -⟩ := selectLevelWithHysteresis_selected tiles some_ wide v a
  obtain rfl := back.symm.trans reached
  obtain rfl := left.symm.trans reached'
  have first : i < levels.length := selectLevelWithHysteresis_lt reached
  have second : j < levels.length := selectLevelWithHysteresis_lt reached'
  have leaves := selectLevelWithHysteresis_hold tiles some_ wide v ⟨i, first⟩
  have returns := selectLevelWithHysteresis_hold tiles some_ wide w ⟨j, second⟩
  refine Hysteresis.returns_apart (tiles.ordered some_) wide (i := ⟨i, first⟩) (j := ⟨j, second⟩)
    ?_ ?_ ?_
  · intro same
    exact different (congrArg some (Fin.mk.inj same))
  · exact Fin.ext (Option.some.inj (leaves.symm.trans left))
  · exact Fin.ext (Option.some.inj (returns.symm.trans back))

end Tiled

/-- The selection does not flap: a floor that is left for another and then taken again was left
    and taken at heights the hysteresis apart. -/
theorem selections_apart {levels : List MapLevel} {low high hysteresis : ℚ}
    (tiles : Tiles levels low high) (wide : 0 < hysteresis) (first : Option Nat)
    (heights : Nat → ℚ) :
    let selection := selections levels hysteresis first heights
    (∀ m n, m < n → selection m ≠ selection (m + 1) →
      (∀ k, m < k → k ≤ n → selection k = selection (m + 1)) →
      selection (n + 1) = selection m → hysteresis ≤ |heights m - heights n|) ∧
    ∀ n, (levels = [] ∧ selection (n + 1) = none) ∨
      ∃ i level, selection (n + 1) = some i ∧ levels[i]? = some level ∧
        (Contains level (heights n) ∨
          (selection n = some i ∧ level.minimumZ - hysteresis ≤ heights n ∧
            heights n < level.maximumZ + hysteresis) ∨
          (heights n < low ∨ high ≤ heights n) ∧
            ∀ other ∈ levels, distance level (heights n) ≤ distance other (heights n)) := by
  intro selection
  have step (n : Nat) : selection (n + 1) =
      selectLevelWithHysteresis levels (some (heights n)) (selection n) hysteresis := rfl
  constructor
  · intro m n before leaves stays returns
    have there : selection n = selection (m + 1) := stays n before le_rfl
    by_cases none_ : levels = []
    · subst none_
      rw [step m, selectLevelWithHysteresis_empty] at leaves
      rw [step n, selectLevelWithHysteresis_empty] at returns
      exact absurd returns.symm leaves
    · rw [step n, there] at returns
      exact selectLevelWithHysteresis_returns tiles none_ wide leaves (step m).symm returns
  · intro n
    by_cases none_ : levels = []
    · left
      refine ⟨none_, ?_⟩
      subst none_
      exact selectLevelWithHysteresis_empty
    · right
      exact selectLevelWithHysteresis_selected tiles none_ wide (heights n) (selection n)

def twoFloors : List MapLevel := [⟨"upper", "upper.png", 0, 200⟩, ⟨"lower", "lower.png", -200, 0⟩]

theorem twoFloors_tile : Tiles twoFloors (-200) 200 where
  valid := by decide +kernel
  apart := by
    simp only [twoFloors, List.pairwise_cons, List.mem_singleton, forall_eq, List.not_mem_nil,
      false_imp_iff, implies_true, List.Pairwise.nil, and_true, Contains]
    rintro z ⟨⟨above, -⟩, -, below⟩
    exact absurd above (not_le.mpr below)
  cover z := by
    simp only [twoFloors, List.mem_cons, List.not_mem_nil, or_false, exists_eq_or_imp,
      exists_eq_left, Contains]
    constructor
    · rintro (⟨above, below⟩ | ⟨above, below⟩)
      · exact ⟨le_trans (by norm_num) above, below⟩
      · exact ⟨above, below.trans (by norm_num)⟩
    · rintro ⟨above, below⟩
      rcases le_or_gt 0 z with up | down
      · exact Or.inl ⟨up, below⟩
      · exact Or.inr ⟨above, down⟩

/-- A climb from the lower floor and a fall back to it, in steps of 30. -/
theorem selections_apart_twoFloors :
    let heights : Nat → ℚ := fun n => [-30, 30, 30, -30].getD n 0
    24 ≤ |heights 1 - heights 3| ∧ selections twoFloors 24 none heights 4 = some 1 := by
  intro heights
  have apart := selections_apart twoFloors_tile (by norm_num : (0 : ℚ) < 24) none heights
  have steps : selections twoFloors 24 none heights 1 = some 1 ∧
      selections twoFloors 24 none heights 2 = some 0 ∧
      selections twoFloors 24 none heights 3 = some 0 ∧
      selections twoFloors 24 none heights 4 = some 1 := by decide +kernel
  obtain ⟨one, two, three, four⟩ := steps
  refine ⟨apart.1 1 3 (by decide) ?_ ?_ ?_, four⟩
  · rw [one, two]
    decide
  · intro k after upto
    have cases_ : k = 2 ∨ k = 3 := by omega
    rcases cases_ with rfl | rfl
    · rfl
    · exact three.trans two.symm
  · exact four.trans one.symm

end FloorHysteresis
