import InstrumentScope.Image.Basic
import Std.Data.ExtTreeMap

/-!
Contract: the table that tells the image of a module from its name.

Owns:
- insertion, where a later image replaces an earlier one of the same module;
- lookup.
-/

namespace InstrumentScope

structure Catalog where
  images : Std.ExtTreeMap String Image

namespace Catalog

def empty : Catalog :=
  ⟨∅⟩

def insert (catalog : Catalog) (module : String) (image : Image) : Catalog :=
  ⟨catalog.images.insert module image⟩

def image? (catalog : Catalog) (module : String) : Option Image :=
  catalog.images[module]?

end Catalog

end InstrumentScope
