import InstrumentScope.Word

/-!
Contract: the static picture of a module: the address its code is written
against and the number of units it spans.

Owns:
- the image of a module and when it fits into the address space.

Does not own:
- where a process maps the image (`Mapping`).
-/

namespace InstrumentScope

/-- The code of a module as it was linked: `size` units from `base` on. -/
structure Image where
  base : Address
  size : UInt64
deriving DecidableEq, Repr

namespace Image

/-- An image fits if its last unit has an address. An image without units always fits; one that
ends exactly at the top of the address space fits too, although its end has no address. -/
def Fits (image : Image) : Prop :=
  image.base.toNat + image.size.toNat ≤ UInt64.size

instance (image : Image) : Decidable image.Fits := by
  unfold Fits
  infer_instance

end Image

end InstrumentScope
