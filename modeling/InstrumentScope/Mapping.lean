import InstrumentScope.Image.Basic

/-!
Contract: a module as it is mapped into one execution context.

The same module may be mapped many times, under several contexts and at several
addresses. Every mapping translates run-time addresses to offsets into the
module and, through its image, to the addresses the module was linked at.

Owns:
- the mapping, its order and its text;
- the translation of addresses.
-/

namespace InstrumentScope

/-- The image of `module`, linked at `base`, is mapped into `context` at `loadBase`. -/
structure Mapping where
  module : String
  context : String
  base : Address
  loadBase : Address
  size : UInt64
deriving DecidableEq, Repr

namespace Mapping

def unmoved (module context : String) (image : Image) : Mapping :=
  ⟨module, context, image.base, image.base, image.size⟩

def moveTo (mapping : Mapping) (loadBase : Address) : Mapping :=
  { mapping with loadBase }

def image (mapping : Mapping) : Image :=
  ⟨mapping.base, mapping.size⟩

/-- The distance of `pc` from the start of the mapping, unless `pc` lies below it. It may exceed
the size of the mapping. -/
def offset? (mapping : Mapping) (pc : Address) : Option UInt64 :=
  Word.sub? pc mapping.loadBase

/-- The address at which the code at `pc` was linked. -/
def native? (mapping : Mapping) (pc : Address) : Option Address :=
  (mapping.offset? pc).bind (Word.add? mapping.base)

def contains (mapping : Mapping) (pc : Address) : Bool :=
  (mapping.offset? pc).any (· < mapping.size)

/-- Mappings are ordered by module, context, link address, load address and size, in this order. -/
def order : Mapping → Mapping → Ordering :=
  compareLex (compareOn Mapping.module) <|
  compareLex (compareOn Mapping.context) <|
  compareLex (compareOn Mapping.base) <|
  compareLex (compareOn Mapping.loadBase) (compareOn Mapping.size)

instance : Ord Mapping :=
  ⟨order⟩

instance : Std.TransOrd Mapping :=
  inferInstanceAs (Std.TransCmp <|
    compareLex (compareOn Mapping.module) <|
    compareLex (compareOn Mapping.context) <|
    compareLex (compareOn Mapping.base) <|
    compareLex (compareOn Mapping.loadBase) (compareOn Mapping.size))

instance : Std.LawfulEqOrd Mapping where
  eq_of_compare {left right} same := by
    have same : order left right = .eq := same
    simp only [order, compareLex_eq_eq, compareOn, Std.LawfulEqCmp.compare_eq_iff_eq] at same
    cases left
    cases right
    simp_all

/-- Module, context, and the load address and size in hexadecimal. -/
def text (mapping : Mapping) : String :=
  s!"{mapping.module}@{mapping.context} " ++
    s!"[{Word.hex mapping.loadBase}+{Word.hex mapping.size}]"

end Mapping

end InstrumentScope
