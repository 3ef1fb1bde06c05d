import InstrumentScope.Proofs.CanonicalMaps
import Mathlib.Data.Set.Card

/-!
Contract: merging maps is the union of their units, within the first of them.

A merge goes word by word over the words that both maps have, and the last of
them may hold units of one map where the other has none. What lies past the size
of the first map is cleared, so the words of a merged map hold its flags again.
From there on the laws of unions are read off the flags: merging twice is merging
once, and of several maps neither the order nor the repetitions show.

Owns:
- the number of units that are set, as the size of a set;
- one merge and several in a row, seen through the flags.

Does not own:
- the bits of merged words (`UnitMap.Lemmas`).
-/

namespace InstrumentScope

namespace UnitMap

/-- The ones of all words together are as many as the units that are set. -/
theorem encard_units {map : UnitMap} (wellFormed : map.WellFormed) :
    {unit | map.get unit = true}.encard = map.count := by
  have listed : {unit | map.get unit = true} = (map.toList.toFinset : Set UInt64) := by
    ext unit
    simp [mem_toList]
  have distinct : map.toList.Nodup := by
    apply (pairwise_toList map).imp
    intro lesser greater below
    exact UInt64.ne_of_lt below
  rw [listed, Set.encard_coe_eq_coe_finsetCard, List.toFinset_card_of_nodup distinct,
    length_toList wellFormed]

/-- A merge sets a unit of the first map exactly if one of the maps does. -/
theorem get_union_eq_true_iff {map other : UnitMap} (wellFormed : map.WellFormed)
    (otherWellFormed : other.WellFormed) (unit : UInt64) :
    (map.union other).get unit = true ↔
      unit < map.size ∧ (map.get unit = true ∨ other.get unit = true) := by
  rw [get_union wellFormed otherWellFormed, Bool.and_eq_true, Bool.or_eq_true, decide_eq_true_eq]

theorem union_eq_of_get {map other : UnitMap} (wellFormed : map.WellFormed)
    (otherWellFormed : other.WellFormed)
    (included : ∀ unit < map.size, other.get unit = true → map.get unit = true) :
    map.union other = map := by
  apply (eq_iff_get (wellFormed_union wellFormed other) wellFormed).mpr
  refine ⟨size_union map other, ?_⟩
  intro unit
  rw [Bool.eq_iff_iff, get_union_eq_true_iff wellFormed otherWellFormed]
  constructor
  · intro merged
    rcases merged with ⟨inside, isSet | isSet⟩
    · exact isSet
    · exact included unit inside isSet
  · intro isSet
    exact ⟨lt_size_of_get isSet, Or.inl isSet⟩

/-- Merging maps into a map keeps its size and sets, below it, what some of them sets. -/
theorem foldl_union {maps : List UnitMap} (mapsWellFormed : ∀ other ∈ maps, other.WellFormed)
    {map : UnitMap} (wellFormed : map.WellFormed) :
    let merged := maps.foldl union map
    merged.WellFormed ∧ merged.size = map.size ∧
      ∀ unit, merged.get unit = true ↔
        map.get unit = true ∨ unit < map.size ∧ ∃ other ∈ maps, other.get unit = true := by
  induction maps generalizing map with
  | nil => exact ⟨wellFormed, rfl, by simp⟩
  | cons other rest inductionHypothesis =>
      have otherWellFormed : other.WellFormed := mapsWellFormed other (by simp)
      have restWellFormed : ∀ later ∈ rest, later.WellFormed := by
        intro later member
        exact mapsWellFormed later (List.mem_cons_of_mem other member)
      rcases inductionHypothesis restWellFormed (wellFormed_union wellFormed other) with
        ⟨mergedWellFormed, mergedSize, mergedGet⟩
      refine ⟨mergedWellFormed, by rw [List.foldl_cons, mergedSize, size_union], ?_⟩
      intro unit
      rw [List.foldl_cons, mergedGet unit, size_union,
        get_union_eq_true_iff wellFormed otherWellFormed]
      constructor
      · intro merged
        rcases merged with ⟨inside, before | head⟩ | ⟨inside, later, member, isSet⟩
        · exact Or.inl before
        · exact Or.inr ⟨inside, other, List.mem_cons_self, head⟩
        · exact Or.inr ⟨inside, later, List.mem_cons_of_mem other member, isSet⟩
      · intro merged
        rcases merged with before | ⟨inside, later, member, isSet⟩
        · exact Or.inl ⟨lt_size_of_get before, Or.inl before⟩
        · rcases List.mem_cons.mp member with rfl | inRest
          · exact Or.inl ⟨inside, Or.inr isSet⟩
          · exact Or.inr ⟨inside, later, inRest, isSet⟩

/-- Only which maps are merged counts, not in what order or how often. -/
theorem foldl_union_congr {maps others : List UnitMap}
    (mapsWellFormed : ∀ other ∈ maps, other.WellFormed)
    (sameMembers : ∀ other, other ∈ maps ↔ other ∈ others) {map : UnitMap}
    (wellFormed : map.WellFormed) : maps.foldl union map = others.foldl union map := by
  have othersWellFormed : ∀ other ∈ others, other.WellFormed := by
    intro other member
    exact mapsWellFormed other ((sameMembers other).mpr member)
  rcases foldl_union mapsWellFormed wellFormed with ⟨merged, size, flags⟩
  rcases foldl_union othersWellFormed wellFormed with ⟨otherMerged, otherSize, otherFlags⟩
  apply (eq_iff_get merged otherMerged).mpr
  refine ⟨size.trans otherSize.symm, ?_⟩
  intro unit
  rw [Bool.eq_iff_iff, flags, otherFlags]
  simp only [sameMembers]

/-- Whatever operations led to two maps and whichever of them is longer, merging the second into the
first keeps the size of the first. A unit below it is set exactly if one of the maps sets it;
nothing past it is, in the flags or in the words, and where the second map has no units the first
stays as it was. So the units counted are those of the union, a map that was merged before adds
nothing, nothing that was set is lost, and of several maps only which ones they are counts. -/
theorem merged_units_are_union {map other : UnitMap} (reachable : map.Reachable)
    (otherReachable : other.Reachable) :
    let merged := map.union other
    merged.size = map.size ∧
    (∀ unit < map.size, merged.get unit = (map.get unit || other.get unit)) ∧
    (∀ unit, map.size ≤ unit → merged.get unit = false) ∧
    (∀ unit, other.size ≤ unit → merged.get unit = map.get unit) ∧
    merged.WellFormed ∧
    {unit | unit < map.size ∧ (map.get unit = true ∨ other.get unit = true)}.encard =
      merged.count ∧
    map.union map = map ∧
    merged.union other = merged ∧
    (∀ unit, map.get unit = true → merged.get unit = true) ∧
    ∀ maps others : List UnitMap, (∀ each ∈ maps, each.Reachable) →
      (∀ each, each ∈ maps ↔ each ∈ others) → maps.foldl union map = others.foldl union map := by
  intro merged
  have wellFormed := wellFormed_of_reachable reachable
  have otherWellFormed := wellFormed_of_reachable otherReachable
  have mergedWellFormed : merged.WellFormed := wellFormed_union wellFormed other
  have size : merged.size = map.size := size_union map other
  have flags : ∀ unit, merged.get unit = true ↔
      unit < map.size ∧ (map.get unit = true ∨ other.get unit = true) :=
    get_union_eq_true_iff wellFormed otherWellFormed
  refine ⟨size, ?_, ?_, ?_, mergedWellFormed, ?_, ?_, ?_, ?_, ?_⟩
  · intro unit inside
    rw [Bool.eq_iff_iff, flags, Bool.or_eq_true]
    exact and_iff_right inside
  · intro unit past
    exact get_of_size_le (size.symm ▸ past)
  · intro unit past
    rw [Bool.eq_iff_iff, flags, get_of_size_le past]
    simp only [Bool.false_eq_true, or_false]
    exact and_iff_right_of_imp lt_size_of_get
  · rw [← encard_units mergedWellFormed]
    simp only [flags]
  · exact union_eq_of_get wellFormed wellFormed fun _ _ isSet => isSet
  · apply union_eq_of_get mergedWellFormed otherWellFormed
    intro unit inside isSet
    exact (flags unit).mpr ⟨size ▸ inside, Or.inr isSet⟩
  · intro unit isSet
    exact (flags unit).mpr ⟨lt_size_of_get isSet, Or.inl isSet⟩
  · intro maps others mapsReachable sameMembers
    apply foldl_union_congr _ sameMembers wellFormed
    intro each member
    exact wellFormed_of_reachable (mapsReachable each member)

/-- The longer map has units in the part of the last word that the shorter one does not use. -/
theorem merged_units_are_union_sample :
    let map := (blank 70).fill 60 2 true
    let other := (blank 130).fill 61 20 true
    map.Reachable ∧ other.Reachable ∧ (map.union other).get 69 = true ∧
      (map.union other).get 70 = false ∧
      {unit | unit < map.size ∧ (map.get unit = true ∨ other.get unit = true)}.encard = 10 ∧
      [other, full 3, other].foldl union map = [full 3, other].foldl union map := by
  intro map other
  have reachable : map.Reachable := .fill 60 2 true (.blank 70)
  have otherReachable : other.Reachable := .fill 61 20 true (.blank 130)
  rcases merged_units_are_union reachable otherReachable with
    ⟨_, flags, past, _, _, counted, _, _, _, folded⟩
  have count : (map.union other).count = 10 := by decide +kernel
  have each : ∀ each ∈ [other, full 3, other], each.Reachable := by
    intro each member
    simp only [List.mem_cons, List.not_mem_nil, or_false] at member
    rcases member with rfl | rfl | rfl
    · exact otherReachable
    · exact .full 3
    · exact otherReachable
  refine ⟨reachable, otherReachable, ?_, past 70 (by decide), ?_, folded _ _ each ?_⟩
  · rw [flags 69 (by decide)]
    decide +kernel
  · rw [counted, count]
    rfl
  · intro one
    simp only [List.mem_cons, List.not_mem_nil, or_false]
    tauto

end UnitMap

end InstrumentScope
