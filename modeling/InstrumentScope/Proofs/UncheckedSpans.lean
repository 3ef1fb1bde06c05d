import InstrumentScope.Proofs.CanonicalMaps
import InstrumentScope.Proofs.Painting

/-!
Contract: painting needs no span to lie in the image.

Spans that were never placed may start below the image, reach past it, lie
beyond it or be empty. What such a span has in common with the image is painted,
unless it starts below the image: then nothing of it is. In a list of spans to
include, a span that paints nothing still tells that not the whole image is meant.

Owns:
- the spans that touch an image, and spans clipped to an image;
- painted maps from spans that need not lie in the image.
-/

namespace InstrumentScope

namespace AddressSpan

/-- The span starts in the image and is not empty. -/
def Touches (span : AddressSpan) (image : Image) : Prop :=
  image.base ≤ span.start ∧ span.start < span.stop ∧
    span.start.toNat < image.base.toNat + image.size.toNat

instance (span : AddressSpan) (image : Image) : Decidable (span.Touches image) := by
  unfold Touches
  infer_instance

/-- The span without the addresses past the image. Where the end of the image has no address, all
addresses count as within it. -/
def clip (image : Image) (span : AddressSpan) : AddressSpan :=
  let top := Word.addSaturating image.base image.size
  ⟨Word.least span.start top, Word.least span.stop top⟩

/-- Less the base, the ends of a span enclose the units that it covers. -/
theorem covers_iff {span : AddressSpan} (ordered : span.start ≤ span.stop) (base : Address)
    (unit : UInt64) :
    span.Covers base unit ↔
      base ≤ span.start ∧ span.start - base ≤ unit ∧ unit < span.stop - base := by
  apply and_congr_right
  intro above
  have start := UInt64.toNat_sub_of_le _ _ above
  have stop := UInt64.toNat_sub_of_le _ _ (UInt64.le_trans above ordered)
  rw [UInt64.le_iff_toNat_le] at above ordered
  rw [UInt64.le_iff_toNat_le, UInt64.lt_iff_toNat_lt, start, stop]
  omega

theorem exists_covers_iff {spans : List AddressSpan}
    (ordered : ∀ span ∈ spans, span.start ≤ span.stop) (base : Address) (unit : UInt64) :
    (∃ span ∈ spans, span.Covers base unit) ↔
      ∃ span ∈ spans, base ≤ span.start ∧ span.start - base ≤ unit ∧ unit < span.stop - base := by
  apply exists_congr
  intro span
  apply and_congr_right
  intro member
  exact covers_iff (ordered span member) base unit

/-- The spans that touch an image are those that cover a unit of it. -/
theorem touches_iff {span : AddressSpan} {image : Image} :
    span.Touches image ↔ ∃ unit < image.size, span.Covers image.base unit := by
  constructor
  · intro touches
    have above := touches.1
    have distance := UInt64.toNat_sub_of_le _ _ above
    unfold Touches at touches
    rw [UInt64.le_iff_toNat_le, UInt64.lt_iff_toNat_lt] at touches
    refine ⟨span.start - image.base, ?_, above, ?_⟩
    · rw [UInt64.lt_iff_toNat_lt, distance]
      omega
    · rw [distance]
      omega
  · intro covered
    obtain ⟨unit, inside, above, reached, short⟩ := covered
    rw [UInt64.lt_iff_toNat_lt] at inside
    refine ⟨above, ?_, ?_⟩
    · rw [UInt64.lt_iff_toNat_lt]
      omega
    · omega

theorem start_le_stop_clip (image : Image) {span : AddressSpan}
    (ordered : span.start ≤ span.stop) : (span.clip image).start ≤ (span.clip image).stop := by
  rw [UInt64.le_iff_toNat_le] at ordered ⊢
  simp only [clip, Word.toNat_least]
  split <;> split <;> omega

/-- Clipping takes no unit of the image away. -/
theorem covers_clip (span : AddressSpan) {image : Image} {unit : UInt64}
    (inside : unit < image.size) :
    (span.clip image).Covers image.base unit ↔ span.Covers image.base unit := by
  have startBound := span.start.toNat_lt
  have stopBound := span.stop.toNat_lt
  rw [UInt64.lt_iff_toNat_lt] at inside
  simp only [Covers, clip, UInt64.le_iff_toNat_le, Word.toNat_least, Word.toNat_addSaturating,
    UInt64.size]
  split <;> split <;> split <;> omega

/-- Two lists of spans, none of which stops before it starts, cover the same units of the image. -/
structure SameUnits (image : Image) (spans others : List AddressSpan) : Prop where
  ordered : ∀ span ∈ spans, span.start ≤ span.stop
  othersOrdered : ∀ span ∈ others, span.start ≤ span.stop
  covered_iff : ∀ unit < image.size,
    (∃ span ∈ spans, span.Covers image.base unit) ↔
      ∃ span ∈ others, span.Covers image.base unit

theorem sameUnits_filter (image : Image) {spans : List AddressSpan}
    (ordered : ∀ span ∈ spans, span.start ≤ span.stop) :
    SameUnits image spans (spans.filter (·.Touches image)) where
  ordered := ordered
  othersOrdered span member := ordered span (List.mem_filter.mp member).1
  covered_iff unit inside := by
    simp only [List.mem_filter, decide_eq_true_eq]
    constructor
    · intro covered
      obtain ⟨span, member, covers⟩ := covered
      exact ⟨span, ⟨member, touches_iff.mpr ⟨unit, inside, covers⟩⟩, covers⟩
    · intro covered
      obtain ⟨span, ⟨member, _⟩, covers⟩ := covered
      exact ⟨span, member, covers⟩

theorem sameUnits_clip (image : Image) {spans : List AddressSpan}
    (ordered : ∀ span ∈ spans, span.start ≤ span.stop) :
    SameUnits image spans (spans.map (clip image)) where
  ordered := ordered
  othersOrdered := by
    rw [List.forall_mem_map]
    intro span member
    exact start_le_stop_clip image (ordered span member)
  covered_iff unit inside := by
    constructor
    · intro covered
      obtain ⟨span, member, covers⟩ := covered
      exact ⟨span.clip image, List.mem_map_of_mem member, (covers_clip span inside).mpr covers⟩
    · intro covered
      obtain ⟨clipped, member, covers⟩ := covered
      obtain ⟨span, inSpans, rfl⟩ := List.mem_map.mp member
      exact ⟨span, inSpans, (covers_clip span inside).mp covers⟩

end AddressSpan

namespace UnitMap

/-- A painted map is told by the units that its lists cover and by whether any span is included. -/
theorem ofSpans_eq_of_sameUnits {image : Image}
    {included excluded otherIncluded otherExcluded : List AddressSpan}
    (sameIncluded : AddressSpan.SameUnits image included otherIncluded)
    (sameExcluded : AddressSpan.SameUnits image excluded otherExcluded)
    (sameEmpty : included = [] ↔ otherIncluded = []) :
    ofSpans image included excluded = ofSpans image otherIncluded otherExcluded := by
  apply (eq_iff_get (wellFormed_ofSpans image included excluded)
    (wellFormed_ofSpans image otherIncluded otherExcluded)).mpr
  refine ⟨by rw [size_ofSpans, size_ofSpans], ?_⟩
  intro unit
  rw [Bool.eq_iff_iff, get_ofSpans image sameIncluded.ordered sameExcluded.ordered,
    get_ofSpans image sameIncluded.othersOrdered sameExcluded.othersOrdered]
  apply and_congr_right
  intro inside
  rw [sameEmpty, sameIncluded.covered_iff unit inside, sameExcluded.covered_iff unit inside]

/-- Where spans are included but none touches the image, nothing of the image is. -/
theorem ofSpans_eq_blank {image : Image} {included excluded : List AddressSpan}
    (includedOrdered : ∀ span ∈ included, span.start ≤ span.stop)
    (excludedOrdered : ∀ span ∈ excluded, span.start ≤ span.stop)
    (given : included ≠ []) (apart : ∀ span ∈ included, ¬ span.Touches image) :
    ofSpans image included excluded = blank image.size := by
  apply (eq_iff_get (wellFormed_ofSpans image included excluded)
    (wellFormed_blank image.size)).mpr
  refine ⟨size_ofSpans image included excluded, ?_⟩
  intro unit
  rw [get_blank, ← Bool.not_eq_true, get_ofSpans image includedOrdered excludedOrdered]
  intro isSet
  obtain ⟨inside, included | covered, _⟩ := isSet
  · exact given included
  · obtain ⟨span, member, covers⟩ := covered
    exact apart span member (AddressSpan.touches_iff.mpr ⟨unit, inside, covers⟩)

/-- A map painted from any spans that stop no earlier than they start has a flag for each unit of the
image, and it is set exactly if some span encloses the unit or none is given to include, and no span
to exclude encloses it; a span that starts below the image encloses nothing. So spans that do not
touch the image can be left out, unless none of those to include would remain, and then nothing is
set. What lies past the image can be cut off. -/
theorem unchecked_spans_paint (image : Image) {included excluded : List AddressSpan}
    (includedOrdered : ∀ span ∈ included, span.start ≤ span.stop)
    (excludedOrdered : ∀ span ∈ excluded, span.start ≤ span.stop) :
    let map := ofSpans image included excluded
    map.size = image.size ∧
    (∀ unit < image.size, map.get unit = true ↔
      (included = [] ∨ ∃ span ∈ included, image.base ≤ span.start ∧
        span.start - image.base ≤ unit ∧ unit < span.stop - image.base) ∧
      ¬ ∃ span ∈ excluded, image.base ≤ span.start ∧
        span.start - image.base ≤ unit ∧ unit < span.stop - image.base) ∧
    ((included = [] ∨ ∃ span ∈ included, span.Touches image) →
      map = ofSpans image (included.filter (·.Touches image))
        (excluded.filter (·.Touches image))) ∧
    (included ≠ [] → (∀ span ∈ included, ¬ span.Touches image) → map = blank image.size) ∧
    map = ofSpans image (included.map (AddressSpan.clip image))
      (excluded.map (AddressSpan.clip image)) := by
  intro map
  refine ⟨size_ofSpans image included excluded, ?_, ?_,
    ofSpans_eq_blank includedOrdered excludedOrdered, ?_⟩
  · intro unit inside
    rw [get_ofSpans image includedOrdered excludedOrdered,
      AddressSpan.exists_covers_iff includedOrdered, AddressSpan.exists_covers_iff excludedOrdered]
    exact and_iff_right inside
  · intro remains
    apply ofSpans_eq_of_sameUnits (AddressSpan.sameUnits_filter image includedOrdered)
      (AddressSpan.sameUnits_filter image excludedOrdered)
    rcases remains with empty | ⟨span, member, touches⟩
    · simp [empty]
    · have kept : span ∈ included.filter (·.Touches image) := by simp [member, touches]
      simp [List.ne_nil_of_mem member, List.ne_nil_of_mem kept]
  · apply ofSpans_eq_of_sameUnits (AddressSpan.sameUnits_clip image includedOrdered)
      (AddressSpan.sameUnits_clip image excludedOrdered)
    exact List.map_eq_nil_iff.symm

/-- Included are a span that starts below the image, an empty one and one that reaches past the image,
as the span to exclude does. -/
theorem unchecked_spans_paint_sample :
    let image : Image := ⟨0xffffffffffffff00, 0x80⟩
    let included : List AddressSpan := [⟨0x10, 0xffffffffffffff80⟩,
      ⟨0xffffffffffffff20, 0xffffffffffffff20⟩, ⟨0xffffffffffffff40, 0xffffffffffffffff⟩]
    let excluded : List AddressSpan := [⟨0xffffffffffffff70, 0xffffffffffffffff⟩]
    (∀ span ∈ included, span.start ≤ span.stop) ∧ (∀ span ∈ excluded, span.start ≤ span.stop) ∧
      (ofSpans image included excluded).get 0x40 = true ∧
      ofSpans image included excluded = ofSpans image [included[2]] excluded ∧
      ofSpans image (included.take 2) excluded = blank 0x80 := by
  intro image included excluded
  have includedOrdered : ∀ span ∈ included, span.start ≤ span.stop := by decide
  have excludedOrdered : ∀ span ∈ excluded, span.start ≤ span.stop := by decide
  have ineffectiveOrdered : ∀ span ∈ included.take 2, span.start ≤ span.stop := by decide
  obtain ⟨_, painted, reduced, _, _⟩ := unchecked_spans_paint image includedOrdered excludedOrdered
  obtain ⟨_, _, _, blank, _⟩ := unchecked_spans_paint image ineffectiveOrdered excludedOrdered
  refine ⟨includedOrdered, excludedOrdered, (painted 0x40 (by decide)).mpr (by decide), ?_,
    blank (by decide) (by decide)⟩
  exact reduced (by decide)

end UnitMap

end InstrumentScope
