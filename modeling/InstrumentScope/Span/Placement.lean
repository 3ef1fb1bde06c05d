import InstrumentScope.Fault
import InstrumentScope.Span.Basic

/-!
Contract: spans of offsets are placed in a module image, or refused.

A list is refused as a whole if the image does not fit into the address space.
Otherwise its spans are placed in order and the first that cannot be placed
gives the fault. Nothing is clamped.

Owns:
- placement of one span and of a list.
-/

namespace InstrumentScope

namespace OffsetSpan

/-- A span can be placed if it is not empty, ends within the image, and its end has an address. -/
def Placeable (image : Image) (span : OffsetSpan) : Prop :=
  span.start < span.stop ∧ span.stop ≤ image.size ∧
    image.base.toNat + span.stop.toNat < UInt64.size

instance (image : Image) (span : OffsetSpan) : Decidable (span.Placeable image) := by
  unfold Placeable
  infer_instance

/-- The absolute span of a placeable span. For any other span it wraps. -/
def rebase (image : Image) (span : OffsetSpan) : AddressSpan :=
  ⟨image.base + span.start, image.base + span.stop⟩

/-- Places one span in an image that fits. An empty span is refused as such wherever it lies. -/
def place (image : Image) (span : OffsetSpan) : Except Fault AddressSpan :=
  let placed := span.rebase image
  if span.stop ≤ span.start then
    .error (.emptySpan placed.start placed.stop)
  else if image.size < span.stop then
    .error (.outsideImage placed.start placed.stop image)
  else match Word.add? image.base span.stop with
    | none => .error (.outsideImage placed.start placed.stop image)
    | some stop => .ok ⟨image.base + span.start, stop⟩

def placementFault (image : Image) (span : OffsetSpan) : Fault :=
  if span.start < span.stop then
    .outsideImage (image.base + span.start) (image.base + span.stop) image
  else
    .emptySpan (image.base + span.start) (image.base + span.stop)

theorem place_of_placeable {image : Image} {span : OffsetSpan} (placeable : span.Placeable image) :
    span.place image = .ok (span.rebase image) := by
  obtain ⟨nonempty, inside, addressable⟩ := placeable
  have stop : Word.add? image.base span.stop = some (image.base + span.stop) := by
    simp [Word.add?, addressable]
  simp [place, rebase, stop, UInt64.not_le.mpr nonempty, UInt64.not_lt.mpr inside]

theorem place_of_not_placeable {image : Image} {span : OffsetSpan}
    (unplaceable : ¬ span.Placeable image) :
    span.place image = .error (span.placementFault image) := by
  unfold place placementFault
  by_cases nonempty : span.start < span.stop
  · by_cases inside : span.stop ≤ image.size
    · have unaddressable : Word.add? image.base span.stop = none := by
        rw [Word.add?_eq_none_iff]
        exact Nat.le_of_not_lt fun addressable => unplaceable ⟨nonempty, inside, addressable⟩
      simp [nonempty, unaddressable, rebase, UInt64.not_le.mpr nonempty,
        UInt64.not_lt.mpr inside]
    · simp [nonempty, rebase, UInt64.not_le.mpr nonempty, UInt64.not_le.mp inside]
  · simp [nonempty, rebase, UInt64.not_lt.mp nonempty]

/-- The ends of a placed span are reached without leaving the address space. -/
theorem toNat_rebase {image : Image} {span : OffsetSpan} (placeable : span.Placeable image) :
    (span.rebase image).start.toNat = image.base.toNat + span.start.toNat ∧
      (span.rebase image).stop.toNat = image.base.toNat + span.stop.toNat := by
  obtain ⟨nonempty, _, addressable⟩ := placeable
  have nonempty := UInt64.lt_iff_toNat_lt.mp nonempty
  simp only [UInt64.size] at addressable
  simp only [rebase, UInt64.toNat_add]
  constructor <;> exact Nat.mod_eq_of_lt (by omega)

end OffsetSpan

namespace Image

/-- Places spans in list order. The first span that cannot be placed gives the fault. -/
def placeEach (image : Image) : List OffsetSpan → Except Fault (List AddressSpan)
  | [] => .ok []
  | span :: rest => do
      let placed ← span.place image
      let placedRest ← image.placeEach rest
      return placed :: placedRest

/-- Places a list of spans in an image, which itself has to fit, even for the empty list. -/
def place (image : Image) (spans : List OffsetSpan) : Except Fault (List AddressSpan) :=
  if image.Fits then image.placeEach spans else .error (.imageOverflow image)

@[simp]
theorem placeEach_nil (image : Image) : image.placeEach [] = .ok [] := rfl

theorem placeEach_cons_of_placeable {image : Image} {span : OffsetSpan}
    (placeable : span.Placeable image) (rest : List OffsetSpan) :
    image.placeEach (span :: rest) = (image.placeEach rest).map (span.rebase image :: ·) := by
  simp only [placeEach, OffsetSpan.place_of_placeable placeable]
  cases image.placeEach rest <;> rfl

theorem placeEach_cons_of_not_placeable {image : Image} {span : OffsetSpan}
    (unplaceable : ¬ span.Placeable image) (rest : List OffsetSpan) :
    image.placeEach (span :: rest) = .error (span.placementFault image) := by
  simp only [placeEach, OffsetSpan.place_of_not_placeable unplaceable]
  rfl

theorem place_of_fits {image : Image} (fits : image.Fits) (spans : List OffsetSpan) :
    image.place spans = image.placeEach spans := by
  simp [place, fits]

theorem place_of_not_fits {image : Image} (overflows : ¬ image.Fits) (spans : List OffsetSpan) :
    image.place spans = .error (.imageOverflow image) := by
  simp [place, overflows]

end Image

end InstrumentScope
