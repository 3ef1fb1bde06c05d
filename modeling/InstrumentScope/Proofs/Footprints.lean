import InstrumentScope.Coverage
import InstrumentScope.Proofs.PathKnowledge
import InstrumentScope.Proofs.Registration
import InstrumentScope.Proofs.Unions

/-!
Contract: a footprint selects exactly what some rule of its module selects.

The footprints are computed from the same rules as the run-time decisions, but
by other means: maps of different sizes are merged word by word into one as large
as the largest. No unit of any of them is lost and none is gained.

Owns:
- the flags of a merged map and of a footprint;
- the coverage of a filled set, read off its list of rules.
-/

namespace InstrumentScope

theorem RuleSet.wellFormed_of_mem {set : RuleSet} {kept : List RuleSource} (holds : set.Holds kept)
    {rule : Rule} (member : rule ∈ set.rules.toList) : rule.WellFormed := by
  rw [holds.rules_eq] at member
  obtain ⟨source, _, rfl⟩ := List.mem_map.mp member
  exact source.wellFormed_rule

theorem Rule.get_units_eq {rule : Rule} (wellFormed : rule.WellFormed) (offset : UInt64) :
    rule.units.get offset = true ↔ rule.lookup offset = some true := by
  unfold lookup
  split
  case isTrue outside =>
    rw [UnitMap.get_of_size_le (wellFormed.size_units ▸ outside)]
    simp
  case isFalse => rw [Option.some.injEq]

theorem RuleSet.wellFormed_of_mem_filter {set : RuleSet} {kept : List RuleSource}
    (holds : set.Holds kept) (module : String) :
    ∀ rule ∈ set.rules.toList.filter (·.module == module), rule.WellFormed := by
  intro rule member
  exact wellFormed_of_mem holds (List.mem_filter.mp member).1

theorem Rule.wellFormed_units {rules : List Rule} (wellFormed : ∀ rule ∈ rules, rule.WellFormed) :
    ∀ units ∈ rules.map Rule.units, units.WellFormed := by
  rw [List.forall_mem_map]
  intro rule member
  exact (wellFormed rule member).units

namespace Footprint

theorem le_greatest {words : List UInt64} {word : UInt64} (member : word ∈ words) :
    word ≤ greatest words := by
  have bounds : ∀ (words : List UInt64) (start : UInt64),
      start ≤ words.foldl (fun best word => if best < word then word else best) start ∧
        ∀ word ∈ words,
          word ≤ words.foldl (fun best word => if best < word then word else best) start := by
    intro words
    induction words with
    | nil => simp
    | cons head rest inductionHypothesis =>
        intro start
        obtain ⟨reached, others⟩ := inductionHypothesis (if start < head then head else start)
        have both : start ≤ (if start < head then head else start) ∧
            head ≤ (if start < head then head else start) := by
          split
          · next below => exact ⟨UInt64.le_of_lt below, UInt64.le_refl head⟩
          · next above => exact ⟨UInt64.le_refl start, UInt64.not_lt.mp above⟩
        rw [List.foldl_cons]
        refine ⟨UInt64.le_trans both.1 reached, ?_⟩
        intro word member
        rcases List.mem_cons.mp member with rfl | inRest
        · exact UInt64.le_trans both.2 reached
        · exact others word inRest
  exact (bounds words 0).2 word member

theorem greatest_le {words : List UInt64} {bound : UInt64}
    (bounded : ∀ word ∈ words, word ≤ bound) : greatest words ≤ bound := by
  have stays : ∀ start ≤ bound,
      words.foldl (fun best word => if best < word then word else best) start ≤ bound := by
    induction words with
    | nil => exact fun _ below => below
    | cons head rest inductionHypothesis =>
        intro start below
        rw [List.foldl_cons]
        apply inductionHypothesis fun word member => bounded word (List.mem_cons_of_mem head member)
        split
        · exact bounded head List.mem_cons_self
        · exact below
  exact stays 0 UInt64.zero_le

/-- Merging the maps of rules into a map keeps its size and sets, below it, what some rule sets. -/
theorem foldl_union {rules : List Rule} (rulesWellFormed : ∀ rule ∈ rules, rule.WellFormed)
    {map : UnitMap} (wellFormed : map.WellFormed) :
    let merged := rules.foldl (fun units rule => units.union rule.units) map
    merged.WellFormed ∧ merged.size = map.size ∧
      ∀ offset, merged.get offset = true ↔
        map.get offset = true ∨
          offset < map.size ∧ ∃ rule ∈ rules, rule.units.get offset = true := by
  have merged := UnitMap.foldl_union (Rule.wellFormed_units rulesWellFormed) wellFormed
  simpa only [List.foldl_map, List.mem_map, exists_exists_and_eq_and] using merged

theorem ofRules?_eq_none_iff {rules : List Rule} : ofRules? rules = none ↔ rules = [] := by
  cases rules <;> simp [ofRules?]

/-- The footprint of the rules of a module selects what some of them selects. -/
theorem get_of_ofRules {rules : List Rule} (rulesWellFormed : ∀ rule ∈ rules, rule.WellFormed)
    {footprint : Footprint} (merged : ofRules? rules = some footprint) :
    footprint.units.WellFormed ∧
      ∀ offset, footprint.get offset = true ↔
        ∃ rule ∈ rules, rule.lookup offset = some true := by
  cases rules with
  | nil => contradiction
  | cons rule rest =>
      obtain rfl := Option.some.inj merged
      obtain ⟨wellFormed, _, flags⟩ := foldl_union rulesWellFormed
        (UnitMap.wellFormed_blank (greatest ((rule :: rest).map (·.units.size))))
      refine ⟨wellFormed, ?_⟩
      intro offset
      refine (flags offset).trans ?_
      rw [UnitMap.get_blank, UnitMap.size_blank]
      constructor
      · intro merged
        rcases merged with blank | ⟨_, other, member, isSet⟩
        · contradiction
        · exact ⟨other, member, (Rule.get_units_eq (rulesWellFormed other member) offset).mp isSet⟩
      · intro ruled
        rcases ruled with ⟨other, member, selected⟩
        have isSet := (Rule.get_units_eq (rulesWellFormed other member) offset).mpr selected
        have inside := UnitMap.lt_size_of_get isSet
        have sized : other.units.size ∈ (rule :: rest).map (·.units.size) :=
          List.mem_map_of_mem member
        have reach := le_greatest sized
        exact Or.inr ⟨UInt64.lt_of_lt_of_le inside reach, other, member, isSet⟩

end Footprint

namespace Coverage

/-- The footprint of a module is that of the rules for it. -/
theorem footprint?_ofRuleSet {set : RuleSet} (wellFormed : set.WellFormed) (module : String) :
    (ofRuleSet set).footprint? module =
      Footprint.ofRules? (set.rules.toList.filter (·.module == module)) := by
  rw [← RuleSet.filterMap_forModule wellFormed]
  unfold footprint? ofRuleSet RuleSet.forModule
  rw [Std.ExtTreeMap.getElem?_filterMap']
  cases set.byModule[module]? <;> rfl

/-- A module without rules has no footprint. Otherwise its footprint selects what some rule for it
selects. -/
theorem footprint?_cases {set : RuleSet} {kept : List RuleSource} (holds : set.Holds kept)
    (module : String) :
    ((ofRuleSet set).footprint? module = none ∧
      ∀ rule ∈ set.rules.toList, rule.module ≠ module) ∨
    (∃ footprint, (ofRuleSet set).footprint? module = some footprint ∧
      footprint.units.WellFormed ∧
      ∀ offset, footprint.get offset = true ↔
        ∃ rule ∈ set.rules.toList, rule.module = module ∧ rule.lookup offset = some true) := by
  rw [footprint?_ofRuleSet holds.wellFormed]
  cases merged : Footprint.ofRules? (set.rules.toList.filter (·.module == module)) with
  | none =>
      left
      refine ⟨rfl, ?_⟩
      intro rule member sameModule
      have noRule := Footprint.ofRules?_eq_none_iff.mp merged
      exact List.filter_eq_nil_iff.mp noRule rule member (beq_iff_eq.mpr sameModule)
  | some footprint =>
      right
      obtain ⟨wellFormed, selects⟩ :=
        Footprint.get_of_ofRules (RuleSet.wellFormed_of_mem_filter holds module) merged
      refine ⟨footprint, rfl, wellFormed, ?_⟩
      intro offset
      rw [selects]
      simp only [List.mem_filter, beq_iff_eq, and_assoc]

/-- Code is covered exactly if some rule for its module selects it, in whatever context. -/
theorem selects_iff {set : RuleSet} {kept : List RuleSource} (holds : set.Holds kept)
    (mapping : Mapping) (pc : Address) :
    (ofRuleSet set).selects mapping pc = true ↔
      ∃ rule ∈ set.rules.toList, rule.module = mapping.module ∧
        rule.selects mapping pc = true := by
  unfold selects
  rcases footprint?_cases holds mapping.module with
    ⟨absent, noRule⟩ | ⟨footprint, present, _, selects⟩
  · rw [absent]
    constructor
    · intro covered
      contradiction
    · intro ruled
      rcases ruled with ⟨rule, member, sameModule, _⟩
      exact absurd sameModule (noRule rule member)
  · rw [present, Option.any_some]
    unfold Rule.selects
    cases mapping.offset? pc with
    | none => simp
    | some offset =>
        rw [Option.any_some, selects]
        simp

/-- A module is covered exactly if some rule for it selects an offset. -/
theorem isSelected_iff {set : RuleSet} {kept : List RuleSource} (holds : set.Holds kept)
    (module : String) :
    (ofRuleSet set).isSelected module = true ↔
      ∃ rule ∈ set.rules.toList, rule.module = module ∧
        ∃ offset, rule.lookup offset = some true := by
  unfold isSelected
  rcases footprint?_cases holds module with
    ⟨absent, noRule⟩ | ⟨footprint, present, wellFormed, selects⟩
  · rw [absent]
    constructor
    · intro covered
      contradiction
    · intro ruled
      rcases ruled with ⟨rule, member, sameModule, _⟩
      exact absurd sameModule (noRule rule member)
  · rw [present, Option.any_some, UnitMap.any_eq_true_iff wellFormed]
    constructor
    · intro someOffset
      rcases someOffset with ⟨offset, isSet⟩
      obtain ⟨rule, member, sameModule, selected⟩ := (selects offset).mp isSet
      exact ⟨rule, member, sameModule, offset, selected⟩
    · intro ruled
      rcases ruled with ⟨rule, member, sameModule, offset, selected⟩
      exact ⟨offset, (selects offset).mpr ⟨rule, member, sameModule, selected⟩⟩

end Coverage

end InstrumentScope
