import InstrumentScope.UnitMap.Lemmas

/-!
Contract: which units a painted map has set.

A map is painted one span at a time, word by word. Seen through `get`, a span
changes exactly the units it covers, whatever else was painted before, and so a
list of spans changes exactly the units that some span of it covers.

Owns:
- the units that a span covers in an image;
- the flags after one span, after a list of spans, and of a whole painted map.

Does not own:
- the placement of spans in an image (`Span.Placement`).
-/

namespace InstrumentScope

namespace AddressSpan

/-- In an image at `base` the span covers `unit`. A span that starts below the image covers none. -/
def Covers (span : AddressSpan) (base : Address) (unit : UInt64) : Prop :=
  base ≤ span.start ∧ span.start.toNat ≤ base.toNat + unit.toNat ∧
    base.toNat + unit.toNat < span.stop.toNat

instance (span : AddressSpan) (base : Address) (unit : UInt64) :
    Decidable (span.Covers base unit) := by
  unfold Covers
  infer_instance

end AddressSpan

namespace UnitMap

theorem wellFormed_paint {map : UnitMap} (wellFormed : map.WellFormed) (base : Address)
    (state : Bool) (span : AddressSpan) : (map.paint base state span).WellFormed := by
  unfold paint
  split
  case h_1 => exact wellFormed
  case h_2 offset _ => exact wellFormed_fill wellFormed offset span.length state

theorem get_paint {map : UnitMap} (wellFormed : map.WellFormed) (base : Address) (state : Bool)
    {span : AddressSpan} (ordered : span.start ≤ span.stop) (unit : UInt64) :
    (map.paint base state span).get unit =
      if span.Covers base unit ∧ unit < map.size then state else map.get unit := by
  unfold paint
  split
  case h_1 below =>
    have below := Word.sub?_eq_none_iff.mp below
    have uncovered : ¬ span.Covers base unit := by
      intro covered
      exact absurd (UInt64.le_iff_toNat_le.mp covered.1) (Nat.not_le.mpr below)
    simp [uncovered]
  case h_2 offset above =>
    have distance := Word.sub?_eq_some_iff.mp above
    have length : span.length.toNat = span.stop.toNat - span.start.toNat :=
      UInt64.toNat_sub_of_le _ _ ordered
    have ordered := UInt64.le_iff_toNat_le.mp ordered
    have covers : InRun offset span.length unit.toNat ↔ span.Covers base unit := by
      unfold InRun AddressSpan.Covers
      rw [length, UInt64.le_iff_toNat_le]
      omega
    rw [get_fill wellFormed]
    simp only [covers]

private theorem wellFormed_foldl_paint (base : Address) (state : Bool) (spans : List AddressSpan)
    {map : UnitMap} (wellFormed : map.WellFormed) :
    (spans.foldl (fun map span => map.paint base state span) map).WellFormed := by
  induction spans generalizing map with
  | nil => exact wellFormed
  | cons span rest inductionHypothesis =>
      exact inductionHypothesis (wellFormed_paint wellFormed base state span)

private theorem get_foldl_paint (base : Address) (state : Bool) {spans : List AddressSpan}
    (ordered : ∀ span ∈ spans, span.start ≤ span.stop) {map : UnitMap}
    (wellFormed : map.WellFormed) (unit : UInt64) :
    (spans.foldl (fun map span => map.paint base state span) map).get unit =
      if (∃ span ∈ spans, span.Covers base unit) ∧ unit < map.size then state
      else map.get unit := by
  induction spans generalizing map with
  | nil => simp
  | cons span rest inductionHypothesis =>
      have headOrdered : span.start ≤ span.stop := ordered span (by simp)
      have restOrdered : ∀ other ∈ rest, other.start ≤ other.stop := by
        intro other member
        exact ordered other (List.mem_cons_of_mem span member)
      rw [List.foldl_cons,
        inductionHypothesis restOrdered (wellFormed_paint wellFormed base state span),
        get_paint wellFormed base state headOrdered, size_paint]
      by_cases covered : span.Covers base unit
      · by_cases inside : unit < map.size <;> simp [covered, inside]
      · simp [covered]

theorem wellFormed_ofSpans (image : Image) (included excluded : List AddressSpan) :
    (ofSpans image included excluded).WellFormed := by
  unfold ofSpans
  apply wellFormed_foldl_paint
  split
  · exact wellFormed_full image.size
  · exact wellFormed_foldl_paint image.base true included (wellFormed_blank image.size)

/-- A painted map has a unit set exactly if the unit lies in the image, some span includes it or
none is given to include, and no span excludes it. -/
theorem get_ofSpans (image : Image) {included excluded : List AddressSpan}
    (includedOrdered : ∀ span ∈ included, span.start ≤ span.stop)
    (excludedOrdered : ∀ span ∈ excluded, span.start ≤ span.stop) (unit : UInt64) :
    (ofSpans image included excluded).get unit = true ↔
      unit < image.size ∧
        (included = [] ∨ ∃ span ∈ included, span.Covers image.base unit) ∧
        ¬ ∃ span ∈ excluded, span.Covers image.base unit := by
  have blankWellFormed := wellFormed_blank image.size
  unfold ofSpans
  by_cases whole : included = []
  · subst whole
    simp only [List.isEmpty_nil, if_true]
    rw [get_foldl_paint image.base false excludedOrdered (wellFormed_full image.size), get_full]
    by_cases inside : unit < image.size <;> simp [inside]
  · have notEmpty : included.isEmpty = false := by simpa using whole
    simp only [notEmpty, Bool.false_eq_true, if_false]
    rw [get_foldl_paint image.base false excludedOrdered
        (wellFormed_foldl_paint image.base true included blankWellFormed),
      get_foldl_paint image.base true includedOrdered blankWellFormed, size_foldl_paint]
    by_cases inside : unit < image.size
    · simp only [inside, size_blank, whole]
      by_cases removed : ∃ span ∈ excluded, span.Covers image.base unit <;> simp [removed]
    · simp [inside]

end UnitMap

end InstrumentScope
