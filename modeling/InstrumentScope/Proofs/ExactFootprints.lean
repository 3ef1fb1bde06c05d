import InstrumentScope.Proofs.Footprints
import InstrumentScope.Proofs.RuleNumbers

/-!
Contract: the footprints of a set are exactly the unions of its rules.

Rules for one module need not agree on its size. Its footprint is as large as the
largest of them, so nothing that a rule selects lies past it, and its map holds
what the rules select and no more, which also shows in the numbers. The table of
footprints has the modules of the set, one entry each.

Owns:
- the size of a footprint and the number of its units;
- the modules that have a footprint, and how many there are.

Does not own:
- the flags of a footprint (`Footprints`).
-/

namespace InstrumentScope

namespace Footprint

/-- The greatest of some words, if there are any, is one of them. -/
theorem greatest_mem {words : List UInt64} (nonempty : words ≠ []) : greatest words ∈ words := by
  have reached : ∀ (words : List UInt64) (start : UInt64),
      words.foldl (fun best word => if best < word then word else best) start = start ∨
        words.foldl (fun best word => if best < word then word else best) start ∈ words := by
    intro words
    induction words with
    | nil => exact fun start => Or.inl rfl
    | cons head rest inductionHypothesis =>
        intro start
        rw [List.foldl_cons]
        rcases inductionHypothesis (if start < head then head else start) with same | inRest
        · rw [same]
          split
          · exact Or.inr List.mem_cons_self
          · exact Or.inl rfl
        · exact Or.inr (List.mem_cons_of_mem head inRest)
  rcases reached words 0 with zero | member
  · rcases List.exists_mem_of_ne_nil words nonempty with ⟨word, member⟩
    have isZero : word = 0 := UInt64.le_antisymm (zero ▸ le_greatest member) UInt64.zero_le
    have sameWord : greatest words = word := zero.trans isZero.symm
    exact sameWord ▸ member
  · exact member

/-- A footprint is as large as the largest of the rules, and its map is of that size. -/
theorem size_of_ofRules {rules : List Rule} (rulesWellFormed : ∀ rule ∈ rules, rule.WellFormed)
    {footprint : Footprint} (merged : ofRules? rules = some footprint) :
    (∀ rule ∈ rules, rule.image.size ≤ footprint.size) ∧
      (∃ rule ∈ rules, rule.image.size = footprint.size) ∧
      footprint.units.size = footprint.size := by
  cases rules with
  | nil => contradiction
  | cons rule rest =>
      have isMerged := Option.some.inj merged
      subst isMerged
      have sizes : (rule :: rest).map (·.image.size) ≠ [] := List.cons_ne_nil _ _
      have unitsSize := (foldl_union rulesWellFormed
        (UnitMap.wellFormed_blank (greatest ((rule :: rest).map (·.units.size))))).2.1
      have sameSizes : (rule :: rest).map (·.units.size) = (rule :: rest).map (·.image.size) := by
        apply List.map_congr_left
        intro other member
        exact (rulesWellFormed other member).size_units
      refine ⟨?_, List.mem_map.mp (greatest_mem sizes), ?_⟩
      · intro other member
        exact le_greatest (List.mem_map_of_mem member)
      · rw [UnitMap.size_blank, sameSizes] at unitsSize
        rw [sameSizes]
        exact unitsSize

end Footprint

namespace Coverage

variable {set : RuleSet}

theorem isSome_footprint?_iff (wellFormed : set.WellFormed) (module : String) :
    ((ofRuleSet set).footprint? module).isSome ↔
      ∃ rule ∈ set.rules.toList, rule.module = module := by
  rw [footprint?_ofRuleSet wellFormed, Option.isSome_iff_ne_none, ne_eq,
    Footprint.ofRules?_eq_none_iff]
  simp

/-- There is one footprint for each module that a rule is for. -/
theorem size_ofRuleSet (wellFormed : set.WellFormed) :
    (ofRuleSet set).size = (set.rules.toList.map Rule.module).toFinset.card := by
  have keys : (ofRuleSet set).footprints.keys.toFinset =
      (set.rules.toList.map Rule.module).toFinset := by
    ext module
    rw [List.mem_toFinset, List.mem_toFinset, Std.ExtTreeMap.mem_keys,
      Std.ExtTreeMap.mem_iff_isSome_getElem?, List.mem_map]
    exact isSome_footprint?_iff wellFormed module
  rw [← keys, List.toFinset_card_of_nodup Std.ExtTreeMap.nodup_keys, Std.ExtTreeMap.length_keys]
  rfl

/-- A footprint is as large as the largest rule for its module, and so is its map. Its flags are
what the rules select, and they are counted alike. -/
theorem footprint_is_union {kept : List RuleSource} (holds : set.Holds kept) {module : String}
    {footprint : Footprint} (present : (ofRuleSet set).footprint? module = some footprint) :
    (∀ rule ∈ set.rules.toList, rule.module = module → rule.image.size ≤ footprint.size) ∧
    (∃ rule ∈ set.rules.toList, rule.module = module ∧ rule.image.size = footprint.size) ∧
    footprint.units.size = footprint.size ∧
    (∀ offset, footprint.get offset = true ↔
      ∃ rule ∈ set.rules.toList, rule.module = module ∧ rule.lookup offset = some true) ∧
    {offset | ∃ rule ∈ set.rules.toList, rule.module = module ∧
      rule.lookup offset = some true}.encard = footprint.units.count := by
  have rulesWellFormed := RuleSet.wellFormed_of_mem_filter holds module
  rw [footprint?_ofRuleSet holds.wellFormed] at present
  rcases Footprint.size_of_ofRules rulesWellFormed present with ⟨bound, reached, unitsSize⟩
  rcases Footprint.get_of_ofRules rulesWellFormed present with ⟨wellFormed, flags⟩
  simp only [List.mem_filter, beq_iff_eq, and_imp] at bound
  simp only [List.mem_filter, beq_iff_eq, and_assoc] at reached flags
  refine ⟨bound, reached, unitsSize, flags, ?_⟩
  rw [← UnitMap.encard_units wellFormed]
  simp only [← flags]
  rfl

/-- A module is covered exactly if some rule for it has a unit selected. -/
theorem isSelected_iff_selectedUnits {kept : List RuleSource} (holds : set.Holds kept)
    (module : String) :
    (ofRuleSet set).isSelected module = true ↔
      ∃ rule ∈ set.rules.toList, rule.module = module ∧ 0 < rule.selectedUnits := by
  rw [isSelected_iff holds]
  apply exists_congr
  intro rule
  apply and_congr_right
  intro member
  have wellFormed := RuleSet.wellFormed_of_mem holds member
  unfold Rule.selectedUnits
  rw [UnitMap.count_pos_iff wellFormed.units]
  simp only [Rule.get_units_eq wellFormed]

end Coverage

/-- However a set was filled, its coverage has one entry for each module that some rule is for, and
no other. The entry is as large as the largest rule for the module, as is its map; an offset of any
size is set in it exactly if some rule for the module selects it, whatever the context and the size
of that rule, and the count of the map is the number of these offsets. A module is selected exactly
if some rule for it has a unit selected. -/
theorem footprints_are_exact_unions {set : RuleSet} (reachable : set.Reachable) :
    let coverage := Coverage.ofRuleSet set
    let rules := set.rules.toList
    coverage.size = (rules.map Rule.module).toFinset.card ∧
    ∀ module,
      ((coverage.footprint? module).isSome ↔ ∃ rule ∈ rules, rule.module = module) ∧
      (∀ footprint, coverage.footprint? module = some footprint →
        (∀ rule ∈ rules, rule.module = module → rule.image.size ≤ footprint.size) ∧
        (∃ rule ∈ rules, rule.module = module ∧ rule.image.size = footprint.size) ∧
        footprint.units.size = footprint.size ∧
        (∀ offset, footprint.get offset = true ↔
          ∃ rule ∈ rules, rule.module = module ∧ rule.lookup offset = some true) ∧
        {offset | ∃ rule ∈ rules, rule.module = module ∧
          rule.lookup offset = some true}.encard = footprint.units.count) ∧
      (coverage.isSelected module = true ↔
        ∃ rule ∈ rules, rule.module = module ∧ 0 < rule.selectedUnits) := by
  intro coverage rules
  rcases reachable.exists_holds with ⟨kept, holds⟩
  refine ⟨Coverage.size_ofRuleSet holds.wellFormed, ?_⟩
  intro module
  exact ⟨Coverage.isSome_footprint?_iff holds.wellFormed module,
    fun footprint => Coverage.footprint_is_union holds,
    Coverage.isSelected_iff_selectedUnits holds module⟩

namespace Sample

/-- Two rules that disagree on the size of their module, and one that excludes all it includes. -/
def unequal : List RuleSource := [
  ⟨"small", "app", .named "pid-1", ⟨0x1000, 70⟩, [⟨0, 70⟩], [⟨60, 64⟩]⟩,
  ⟨"large", "app", .any, ⟨0x1000, 130⟩, [⟨64, 66⟩, ⟨128, 130⟩], []⟩,
  ⟨"nothing", "lib", .any, ⟨0x1000, 10⟩, [⟨0, 10⟩], [⟨0, 10⟩]⟩]

end Sample

/-- The footprint has units past the size of the smaller rule; a module may have a footprint without
being selected. -/
theorem footprints_are_exact_unions_sample :
    let set := RuleSet.ofSources Sample.unequal
    let coverage := Coverage.ofRuleSet set
    set.Reachable ∧ coverage.size = 2 ∧
      (∃ footprint, coverage.footprint? "app" = some footprint ∧ footprint.size = 130 ∧
        footprint.get 129 = true ∧ footprint.get 66 = true ∧
        {offset | ∃ rule ∈ set.rules.toList, rule.module = "app" ∧
          rule.lookup offset = some true}.encard = 68) ∧
      (coverage.footprint? "lib").isSome ∧ coverage.isSelected "lib" ≠ true := by
  intro set coverage
  have reachable : set.Reachable := RuleSet.reachable_ofSources Sample.unequal
  rcases footprints_are_exact_unions reachable with ⟨size, modules⟩
  have present : coverage.footprint? "app" =
      some ⟨130, ⟨130, #[0x0fffffffffffffff, 0x3f, 0x3]⟩⟩ := by decide +kernel
  rcases (modules "app").2.1 _ present with ⟨_, _, _, flags, counted⟩
  refine ⟨reachable, size.trans (by decide +kernel), ⟨_, present, rfl, ?_, ?_, ?_⟩,
    (modules "lib").1.mpr (by decide +kernel), ?_⟩
  · exact (flags 129).mpr (by decide +kernel)
  · exact (flags 66).mpr (by decide +kernel)
  · rw [counted]
    rfl
  · rw [ne_eq, (modules "lib").2.2]
    decide +kernel

end InstrumentScope
