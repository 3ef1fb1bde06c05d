import InstrumentScope.Image.Basic
import InstrumentScope.UnitMap.Fill

/-!
Contract: a map is painted from spans to include and spans to exclude.

Everything included is set first and everything excluded is cleared afterwards,
so an exclusion wins wherever the two overlap, whatever the order of the lists.
No span to include at all stands for the whole image. Spans are not validated
here: a span that starts below the image has no effect, and what reaches past
the image is clipped.

Owns:
- painting one span and painting a map from two lists of spans.
-/

namespace InstrumentScope

namespace UnitMap

/-- Gives the units of `span` in an image at `base` the flag `state`. -/
def paint (map : UnitMap) (base : Address) (state : Bool) (span : AddressSpan) : UnitMap :=
  match Word.sub? span.start base with
  | none => map
  | some offset => map.fill offset span.length state

/-- The map of an image in which the included spans are set, less the excluded ones. -/
def ofSpans (image : Image) (included excluded : List AddressSpan) : UnitMap :=
  let chosen :=
    if included.isEmpty then full image.size
    else included.foldl (fun map span => map.paint image.base true span) (blank image.size)
  excluded.foldl (fun map span => map.paint image.base false span) chosen

@[simp]
theorem size_paint (map : UnitMap) (base : Address) (state : Bool) (span : AddressSpan) :
    (map.paint base state span).size = map.size := by
  unfold paint
  split <;> simp

theorem size_foldl_paint (base : Address) (state : Bool) (spans : List AddressSpan)
    (map : UnitMap) :
    (spans.foldl (fun map span => map.paint base state span) map).size = map.size := by
  induction spans generalizing map with
  | nil => rfl
  | cons span rest inductionHypothesis => simp [inductionHypothesis]

@[simp]
theorem size_ofSpans (image : Image) (included excluded : List AddressSpan) :
    (ofSpans image included excluded).size = image.size := by
  simp only [ofSpans, size_foldl_paint]
  split <;> simp [size_foldl_paint]

end UnitMap

end InstrumentScope
