import InstrumentScope.UnitMap.Basic

/-!
Contract: a map takes over the units that another map has set.

The two maps may differ in size. The result has the size of the first; what the
second has set past that size is dropped.

Owns:
- the union of a map with another, and the clearing of bits past the size.
-/

namespace InstrumentScope

namespace UnitMap

/-- Clears the bits of the last word that lie past the size. -/
def trim (map : UnitMap) : UnitMap :=
  let used := map.size % Word.width
  if used = 0 then map
  else
    { map with words := map.words.modify (map.words.size - 1) (· &&& ((1 <<< used) - 1)) }

/-- Sets, in addition, the units that `other` has set, as far as the map has them. -/
def union (map other : UnitMap) : UnitMap :=
  trim
    { map with
      words := map.words.mapIdx fun index word => word ||| other.words[index]?.getD 0 }

@[simp]
theorem size_trim (map : UnitMap) : map.trim.size = map.size := by
  unfold trim
  simp only
  split <;> rfl

@[simp]
theorem size_union (map other : UnitMap) : (map.union other).size = map.size := by
  simp [union]

end UnitMap

end InstrumentScope
