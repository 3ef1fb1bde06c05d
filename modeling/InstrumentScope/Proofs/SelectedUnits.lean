import InstrumentScope.Proofs.CanonicalMaps
import InstrumentScope.Proofs.Compilation

/-!
Contract: a compiled rule selects what is included less what is excluded.

The map of a rule has a flag for each unit of the image and none besides. Its
flags, the number of them that are set and the answers of look-up can be read off
the source; they follow the spans as sets, so no order, no repetition and no base
address shows in a compiled rule.

Owns:
- look-up in a rule and the number of selected units, in terms of its source;
- sources with the same spans, and the maps they compile to.
-/

namespace InstrumentScope

namespace RuleSource

/-- The spans of two sources are the same, in whatever order and however often they are given. -/
structure SameSpans (source other : RuleSource) : Prop where
  included : ∀ span, span ∈ source.included ↔ span ∈ other.included
  excluded : ∀ span, span ∈ source.excluded ↔ span ∈ other.excluded

instance (source other : RuleSource) : Decidable (source.SameSpans other) :=
  decidable_of_iff
    ((∀ span ∈ source.included, span ∈ other.included) ∧
      (∀ span ∈ other.included, span ∈ source.included) ∧
      (∀ span ∈ source.excluded, span ∈ other.excluded) ∧
      ∀ span ∈ other.excluded, span ∈ source.excluded)
    ⟨fun same => ⟨fun span => ⟨same.1 span, same.2.1 span⟩,
      fun span => ⟨same.2.2.1 span, same.2.2.2 span⟩⟩,
    fun same => ⟨fun span => (same.included span).mp, fun span => (same.included span).mpr,
      fun span => (same.excluded span).mp, fun span => (same.excluded span).mpr⟩⟩

theorem selects_congr {source other : RuleSource} (same : source.SameSpans other)
    (offset : UInt64) : source.Selects offset ↔ other.Selects offset := by
  unfold Selects
  simp only [List.eq_nil_iff_forall_not_mem, same.included, same.excluded]

theorem compilable_congr {source other : RuleSource} (same : source.SameSpans other)
    (sameImage : source.image = other.image) : source.Compilable ↔ other.Compilable := by
  unfold Compilable
  simp only [same.included, same.excluded, sameImage]

/-- The base of the image leaves no trace in the map. -/
theorem units_rule_congr {source other : RuleSource} (compilable : source.Compilable)
    (otherCompilable : other.Compilable) (same : source.SameSpans other)
    (sameSize : source.image.size = other.image.size) :
    source.rule.units = other.rule.units := by
  have wellFormed := source.wellFormed_rule
  have otherWellFormed := other.wellFormed_rule
  apply (UnitMap.eq_iff_get wellFormed.units otherWellFormed.units).mpr
  refine ⟨wellFormed.size_units.trans (sameSize.trans otherWellFormed.size_units.symm), ?_⟩
  intro offset
  rw [Bool.eq_iff_iff, get_units_rule compilable, get_units_rule otherCompilable, sameSize,
    selects_congr same]

theorem selectedUnits_rule {source : RuleSource} (compilable : source.Compilable) :
    source.rule.selectedUnits =
      (List.range source.image.size.toNat).countP fun offset =>
        source.Selects offset.toUInt64 := by
  have wellFormed := source.wellFormed_rule
  have size : source.rule.units.size = source.image.size := wellFormed.size_units
  unfold Rule.selectedUnits
  rw [UnitMap.count_eq wellFormed.units, size]
  apply List.countP_congr
  intro offset member
  rw [get_units_rule compilable, decide_eq_true_eq]
  exact and_iff_right (Word.toUInt64_lt (List.mem_range.mp member))

end RuleSource

/-- The map of a compiled rule has the size of the image. Look-up has no answer past the size, and
below it says whether the source asks for the offset; the selected units are counted alike. A source
that gives the same spans in any other way compiles for the same image too, and wherever it compiles
for an image of that size its map is the same. -/
theorem compiled_rule_selects_as_written {source : RuleSource} {rule : Rule}
    (compiled : source.compile = .ok rule) :
    rule.units.size = source.image.size ∧
    (∀ offset, rule.lookup offset = none ↔ source.image.size ≤ offset) ∧
    (∀ offset < source.image.size, rule.lookup offset = some true ↔ source.Selects offset) ∧
    rule.selectedUnits =
      ((List.range source.image.size.toNat).countP fun offset =>
        source.Selects offset.toUInt64) ∧
    ∀ other : RuleSource, other.SameSpans source →
      (other.image = source.image → ∃ otherRule, other.compile = .ok otherRule) ∧
      ∀ otherRule, other.compile = .ok otherRule → other.image.size = source.image.size →
        otherRule.units = rule.units := by
  obtain ⟨compilable, rfl⟩ := RuleSource.compile_eq_ok_iff.mp compiled
  refine ⟨source.wellFormed_rule.size_units, fun offset => Rule.lookup_eq_none_iff, ?_,
    RuleSource.selectedUnits_rule compilable, ?_⟩
  · intro offset inside
    rw [RuleSource.lookup_rule compilable]
    exact and_iff_right inside
  · intro other same
    constructor
    · intro sameImage
      have otherCompilable := (RuleSource.compilable_congr same sameImage).mpr compilable
      exact ⟨other.rule, RuleSource.compile_of_compilable otherCompilable⟩
    · intro otherRule otherCompiled sameSize
      obtain ⟨otherCompilable, rfl⟩ := RuleSource.compile_eq_ok_iff.mp otherCompiled
      exact RuleSource.units_rule_congr otherCompilable compilable same sameSize

namespace Sample

/-- Overlapping and adjacent spans in an image that ends at the top of the address space. -/
def overlapping : RuleSource :=
  ⟨"part", "app", .any, ⟨0xffffffffffffff00, 0x100⟩,
    [⟨0x0, 0x40⟩, ⟨0x20, 0x80⟩, ⟨0x80, 0xff⟩], [⟨0x10, 0x18⟩, ⟨0x10, 0x20⟩]⟩

/-- The same spans in another order, one of them twice, in an image at another base. -/
def reordered : RuleSource :=
  ⟨"other", "lib", .named "pid-1", ⟨0x1000, 0x100⟩,
    [⟨0x80, 0xff⟩, ⟨0x20, 0x80⟩, ⟨0x0, 0x40⟩, ⟨0x20, 0x80⟩], [⟨0x10, 0x20⟩, ⟨0x10, 0x18⟩]⟩

end Sample

theorem compiled_rule_selects_as_written_sample :
    Sample.overlapping.compile = .ok Sample.overlapping.rule ∧
      Sample.reordered.compile = .ok Sample.reordered.rule ∧
      Sample.overlapping.rule.lookup 0x20 = some true ∧
      Sample.overlapping.rule.lookup 0x1f ≠ some true ∧
      Sample.overlapping.rule.selectedUnits = 0xef ∧
      Sample.reordered.rule.units = Sample.overlapping.rule.units := by
  have compilable : Sample.overlapping.Compilable := by decide
  have otherCompilable : Sample.reordered.Compilable := by decide
  have compiled := RuleSource.compile_of_compilable compilable
  have otherCompiled := RuleSource.compile_of_compilable otherCompilable
  obtain ⟨_, _, found, counted, congruent⟩ := compiled_rule_selects_as_written compiled
  refine ⟨compiled, otherCompiled, (found 0x20 (by decide)).mpr (by decide), ?_,
    counted.trans (by decide +kernel), ?_⟩
  · intro selected
    exact absurd ((found 0x1f (by decide)).mp selected) (by decide)
  · exact (congruent Sample.reordered (by decide)).2 _ otherCompiled rfl

end InstrumentScope
