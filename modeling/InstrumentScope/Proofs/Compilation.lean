import InstrumentScope.Proofs.Painting
import InstrumentScope.Rule.Basic

/-!
Contract: which sources compile, and what the compiled rule selects.

A source compiles exactly if its image fits and every one of its spans can be
placed there. The offsets that the rule then selects can be read off the source,
without placing or painting a span.

Owns:
- when a list of spans is placed and when a source compiles;
- look-up in a compiled rule, stated on its source.
-/

namespace InstrumentScope

namespace Image

/-- Spans that can be placed stand in front of what becomes of the rest. -/
theorem placeEach_append {image : Image} {earlier : List OffsetSpan}
    (placeable : ∀ span ∈ earlier, span.Placeable image) (later : List OffsetSpan) :
    image.placeEach (earlier ++ later) =
      (image.placeEach later).map (earlier.map (OffsetSpan.rebase image) ++ ·) := by
  induction earlier with
  | nil => cases placedLater : image.placeEach later <;> simp [placedLater, Except.map]
  | cons span rest inductionHypothesis =>
      have headPlaceable : span.Placeable image := placeable span (by simp)
      have restPlaceable : ∀ other ∈ rest, other.Placeable image := by
        intro other member
        exact placeable other (List.mem_cons_of_mem span member)
      rw [List.cons_append, placeEach_cons_of_placeable headPlaceable,
        inductionHypothesis restPlaceable]
      cases image.placeEach later <;> rfl

theorem placeEach_of_placeable {image : Image} {spans : List OffsetSpan}
    (placeable : ∀ span ∈ spans, span.Placeable image) :
    image.placeEach spans = .ok (spans.map (OffsetSpan.rebase image)) := by
  have placed := placeEach_append placeable []
  simpa [Except.map] using placed

/-- The first span that cannot be placed gives the fault. -/
theorem placeEach_append_of_not_placeable {image : Image} {earlier : List OffsetSpan}
    (placeable : ∀ other ∈ earlier, other.Placeable image) {span : OffsetSpan}
    (unplaceable : ¬ span.Placeable image) (later : List OffsetSpan) :
    image.placeEach (earlier ++ span :: later) = .error (span.placementFault image) := by
  rw [placeEach_append placeable, placeEach_cons_of_not_placeable unplaceable]
  rfl

/-- Where some span cannot be placed, there is a first one. -/
theorem exists_first_not_placeable {image : Image} {spans : List OffsetSpan}
    (unplaceable : ∃ span ∈ spans, ¬ span.Placeable image) :
    ∃ earlier span later, spans = earlier ++ span :: later ∧
      (∀ other ∈ earlier, other.Placeable image) ∧ ¬ span.Placeable image := by
  have found : (spans.find? fun span => !decide (span.Placeable image)).isSome = true := by
    simpa using unplaceable
  obtain ⟨span, first⟩ := Option.isSome_iff_exists.mp found
  obtain ⟨faulty, earlier, later, split, passed⟩ := List.find?_eq_some_iff_append.mp first
  refine ⟨earlier, span, later, split, ?_, by simpa using faulty⟩
  intro other member
  simpa using passed other member

theorem placeEach_of_not_placeable {image : Image} {spans : List OffsetSpan}
    (unplaceable : ¬ ∀ span ∈ spans, span.Placeable image) :
    ∃ fault, image.placeEach spans = .error fault := by
  have someUnplaceable : ∃ span ∈ spans, ¬ span.Placeable image := by simpa using unplaceable
  obtain ⟨earlier, span, later, rfl, placeable, faulty⟩ :=
    exists_first_not_placeable someUnplaceable
  exact ⟨span.placementFault image, placeEach_append_of_not_placeable placeable faulty later⟩

theorem place_eq_ok_iff {image : Image} {spans : List OffsetSpan} {placed : List AddressSpan} :
    image.place spans = .ok placed ↔
      image.Fits ∧ (∀ span ∈ spans, span.Placeable image) ∧
        placed = spans.map (OffsetSpan.rebase image) := by
  by_cases fits : image.Fits
  · rw [place_of_fits fits]
    by_cases placeable : ∀ span ∈ spans, span.Placeable image
    · rw [placeEach_of_placeable placeable, Except.ok.injEq]
      constructor
      · intro same
        exact ⟨fits, placeable, same.symm⟩
      · rintro ⟨_, _, same⟩
        exact same.symm
    · obtain ⟨fault, refused⟩ := placeEach_of_not_placeable placeable
      simp [refused, placeable]
  · simp [place_of_not_fits fits, fits]

end Image

namespace OffsetSpan

/-- A placed span covers the units at the offsets that it was written for. -/
theorem covers_rebase {image : Image} {span : OffsetSpan} (placeable : span.Placeable image)
    (offset : UInt64) :
    (span.rebase image).Covers image.base offset ↔ span.Contains offset := by
  obtain ⟨start, stop⟩ := toNat_rebase placeable
  unfold AddressSpan.Covers Contains
  rw [UInt64.le_iff_toNat_le, UInt64.le_iff_toNat_le, UInt64.lt_iff_toNat_lt, start, stop]
  omega

theorem start_le_stop_rebase {image : Image} {span : OffsetSpan}
    (placeable : span.Placeable image) : (span.rebase image).start ≤ (span.rebase image).stop := by
  obtain ⟨start, stop⟩ := toNat_rebase placeable
  have nonempty := UInt64.lt_iff_toNat_lt.mp placeable.1
  rw [UInt64.le_iff_toNat_le, start, stop]
  omega

theorem exists_covers_rebase {image : Image} {spans : List OffsetSpan}
    (placeable : ∀ span ∈ spans, span.Placeable image) (offset : UInt64) :
    (∃ placed ∈ spans.map (rebase image), placed.Covers image.base offset) ↔
      ∃ span ∈ spans, span.Contains offset := by
  constructor
  · intro covered
    rcases covered with ⟨placed, member, covers⟩
    obtain ⟨span, inSpans, rfl⟩ := List.mem_map.mp member
    exact ⟨span, inSpans, (covers_rebase (placeable span inSpans) offset).mp covers⟩
  · intro contained
    rcases contained with ⟨span, inSpans, contains⟩
    exact ⟨span.rebase image, List.mem_map_of_mem inSpans,
      (covers_rebase (placeable span inSpans) offset).mpr contains⟩

theorem map_rebase_ordered {image : Image} {spans : List OffsetSpan}
    (placeable : ∀ span ∈ spans, span.Placeable image) :
    ∀ placed ∈ spans.map (rebase image), placed.start ≤ placed.stop := by
  intro placed member
  obtain ⟨span, inSpans, rfl⟩ := List.mem_map.mp member
  exact start_le_stop_rebase (placeable span inSpans)

end OffsetSpan

/-- The map of the rule is well formed and has a flag for each unit of the image. -/
structure Rule.WellFormed (rule : Rule) : Prop where
  units : rule.units.WellFormed
  size_units : rule.units.size = rule.image.size

namespace RuleSource

/-- The image of the source fits and all its spans can be placed there. -/
def Compilable (source : RuleSource) : Prop :=
  source.image.Fits ∧ (∀ span ∈ source.included, span.Placeable source.image) ∧
    ∀ span ∈ source.excluded, span.Placeable source.image

instance (source : RuleSource) : Decidable source.Compilable := by
  unfold Compilable
  infer_instance

/-- What a compilable source compiles to. -/
def rule (source : RuleSource) : Rule where
  name := source.name
  module := source.module
  context := source.context
  image := source.image
  units := .ofSpans source.image (source.included.map (OffsetSpan.rebase source.image))
    (source.excluded.map (OffsetSpan.rebase source.image))

theorem wellFormed_rule (source : RuleSource) : source.rule.WellFormed where
  units := UnitMap.wellFormed_ofSpans _ _ _
  size_units := UnitMap.size_ofSpans _ _ _

theorem compile_eq_ok_iff {source : RuleSource} {rule : Rule} :
    source.compile = .ok rule ↔ source.Compilable ∧ rule = source.rule := by
  constructor
  · intro compiled
    unfold compile at compiled
    cases placedIncluded : source.image.place source.included with
    | error fault =>
        rw [placedIncluded] at compiled
        contradiction
    | ok included =>
        cases placedExcluded : source.image.place source.excluded with
        | error fault =>
            rw [placedIncluded, placedExcluded] at compiled
            contradiction
        | ok excluded =>
            rw [placedIncluded, placedExcluded] at compiled
            obtain ⟨fits, includedPlaceable, rfl⟩ := Image.place_eq_ok_iff.mp placedIncluded
            obtain ⟨_, excludedPlaceable, rfl⟩ := Image.place_eq_ok_iff.mp placedExcluded
            exact ⟨⟨fits, includedPlaceable, excludedPlaceable⟩, (Except.ok.inj compiled).symm⟩
  · rintro ⟨⟨fits, includedPlaceable, excludedPlaceable⟩, rfl⟩
    have placedIncluded := Image.place_eq_ok_iff.mpr ⟨fits, includedPlaceable, rfl⟩
    have placedExcluded := Image.place_eq_ok_iff.mpr ⟨fits, excludedPlaceable, rfl⟩
    unfold compile
    rw [placedIncluded, placedExcluded]
    rfl

theorem compile_of_compilable {source : RuleSource} (compilable : source.Compilable) :
    source.compile = .ok source.rule :=
  compile_eq_ok_iff.mpr ⟨compilable, rfl⟩

theorem compile_of_not_compilable {source : RuleSource} (faulty : ¬ source.Compilable) :
    ∃ fault, source.compile = .error fault := by
  cases compiled : source.compile with
  | error fault => exact ⟨fault, rfl⟩
  | ok rule => exact absurd (compile_eq_ok_iff.mp compiled).1 faulty

theorem get_units_rule {source : RuleSource} (compilable : source.Compilable) (offset : UInt64) :
    source.rule.units.get offset = true ↔ offset < source.image.size ∧ source.Selects offset := by
  obtain ⟨_, includedPlaceable, excludedPlaceable⟩ := compilable
  unfold rule Selects
  rw [UnitMap.get_ofSpans source.image (OffsetSpan.map_rebase_ordered includedPlaceable)
      (OffsetSpan.map_rebase_ordered excludedPlaceable),
    OffsetSpan.exists_covers_rebase includedPlaceable,
    OffsetSpan.exists_covers_rebase excludedPlaceable, List.map_eq_nil_iff]

/-- A compiled rule selects exactly the offsets inside the module that its source asks for. -/
theorem lookup_rule {source : RuleSource} (compilable : source.Compilable) (offset : UInt64) :
    source.rule.lookup offset = some true ↔
      offset < source.image.size ∧ source.Selects offset := by
  unfold Rule.lookup
  by_cases outside : source.image.size ≤ offset
  · have notInside : ¬ offset < source.image.size := UInt64.not_lt.mpr outside
    simp [rule, outside, notInside]
  · rw [if_neg (show ¬ source.rule.image.size ≤ offset from outside), Option.some.injEq]
    exact get_units_rule compilable offset

end RuleSource

end InstrumentScope
