import InstrumentScope.Span.Basic

/-!
Contract: a dense map with one flag per unit of a module image.

The flags are packed into 64-bit words, unit `u` at bit `u % 64` of word
`u / 64`. `get` is the meaning of a map; a unit past its size is never set.
The counting observers read whole words, so they agree with `get` only while
the bits past the size are clear. `WellFormed` says so.

Owns:
- the map, its invariant and its observers.

Does not own:
- the operations that change flags (`UnitMap.Fill`, `UnitMap.Union`).
-/

namespace InstrumentScope

namespace Word

abbrev width : UInt64 := 64

/-- The bit of `word` with value `2 ^ bit`. -/
def testBit (word bit : UInt64) : Bool :=
  (word >>> bit) &&& 1 != 0

def ones (word : UInt64) : Nat :=
  (List.range width.toNat).countP fun bit => testBit word bit.toUInt64

theorem testBit_eq (word bit : UInt64) :
    testBit word bit = word.toNat.testBit (bit.toNat % 64) := by
  unfold testBit
  rw [Bool.eq_iff_iff, bne_iff_ne, ne_eq, ← UInt64.toNat_inj, UInt64.toNat_and,
    UInt64.toNat_shiftRight, UInt64.toNat_one, UInt64.toNat_zero, Nat.and_one_is_mod,
    Nat.testBit_eq_decide_div_mod_eq, Nat.shiftRight_eq_div_pow, decide_eq_true_eq]
  omega

end Word

/-- Flags for the units `0, 1, …` below `size`. -/
structure UnitMap where
  size : UInt64
  words : Array UInt64
deriving DecidableEq, Repr

namespace UnitMap

def wordCount (size : UInt64) : Nat :=
  (size.toNat + 63) / 64

/-- The map of `size` units of which none is set. -/
def blank (size : UInt64) : UnitMap :=
  ⟨size, Array.replicate (wordCount size) 0⟩

/-- The flag of `unit`. Units past the size are not set. -/
def get (map : UnitMap) (unit : UInt64) : Bool :=
  if unit < map.size then
    match map.words[(unit / Word.width).toNat]? with
    | some word => Word.testBit word (unit % Word.width)
    | none => false
  else
    false

/-- The bit at a position of the words taken as one row of bits. There is none past the words. -/
def bit (map : UnitMap) (position : Nat) : Bool :=
  match map.words[position / 64]? with
  | some word => word.toNat.testBit (position % 64)
  | none => false

/-- There are as many words as the size needs, and no bit past the size is set. -/
structure WellFormed (map : UnitMap) : Prop where
  size_words : map.words.size = wordCount map.size
  clear_past_size : ∀ position, map.size.toNat ≤ position → map.bit position = false

def isEmpty (map : UnitMap) : Bool :=
  map.size == 0

def count (map : UnitMap) : Nat :=
  map.words.foldl (fun total word => total + Word.ones word) 0

def any (map : UnitMap) : Bool :=
  map.words.any (· != 0)

def toList (map : UnitMap) : List UInt64 :=
  ((List.range map.size.toNat).map Nat.toUInt64).filter map.get

/-- Puts a unit in front of spans that start above it, extending the first span it touches. -/
def consUnit (unit : UInt64) : List OffsetSpan → List OffsetSpan
  | [] => [⟨unit, unit + 1⟩]
  | span :: rest =>
      if span.start = unit + 1 then ⟨unit, span.stop⟩ :: rest
      else ⟨unit, unit + 1⟩ :: span :: rest

/-- The units that are set, as the fewest spans, in ascending order. -/
def runs (map : UnitMap) : List OffsetSpan :=
  map.toList.foldr consUnit []

/-- The size of the map and the number of units set, both in decimal. -/
def summary (map : UnitMap) : String :=
  "InstrumentationMap \x7b len: " ++ toString map.size.toNat ++
    ", instrumented: " ++ toString map.count ++ " \x7d"

@[simp]
theorem size_blank (size : UInt64) : (blank size).size = size := rfl

theorem get_of_size_le {map : UnitMap} {unit : UInt64} (past : map.size ≤ unit) :
    map.get unit = false := by
  simp [get, UInt64.not_lt.mpr past]

theorem lt_size_of_get {map : UnitMap} {unit : UInt64} (isSet : map.get unit = true) :
    unit < map.size := by
  apply UInt64.not_le.mp
  intro past
  rw [get_of_size_le past] at isSet
  contradiction

/-- Below the size the flags are the bits of the row of words. -/
theorem get_eq_bit (map : UnitMap) (unit : UInt64) :
    map.get unit = (decide (unit < map.size) && map.bit unit.toNat) := by
  have index : (unit / Word.width).toNat = unit.toNat / 64 := UInt64.toNat_div unit Word.width
  have offset : (unit % Word.width).toNat = unit.toNat % 64 := UInt64.toNat_mod unit Word.width
  unfold get bit
  rw [index]
  by_cases inside : unit < map.size
  · cases map.words[unit.toNat / 64]? <;> simp [inside, Word.testBit_eq, offset]
  · simp [inside]

@[simp]
theorem bit_blank (size : UInt64) (position : Nat) : (blank size).bit position = false := by
  unfold bit
  split
  case h_1 word present =>
    obtain ⟨_, rfl⟩ := Array.getElem?_eq_some_iff.mp present
    simp [blank]
  case h_2 => rfl

@[simp]
theorem get_blank (size unit : UInt64) : (blank size).get unit = false := by
  simp [get_eq_bit]

theorem wellFormed_blank (size : UInt64) : (blank size).WellFormed where
  size_words := by simp [blank]
  clear_past_size := by simp

theorem mem_toList {map : UnitMap} {unit : UInt64} : unit ∈ map.toList ↔ map.get unit = true := by
  simp only [toList, List.mem_filter, List.mem_map, List.mem_range]
  constructor
  · exact And.right
  · intro isSet
    have inside : unit < map.size := UInt64.not_le.mp fun past => by
      simp [get_of_size_le past] at isSet
    exact ⟨⟨unit.toNat, UInt64.lt_iff_toNat_lt.mp inside, by simp⟩, isSet⟩

end UnitMap

end InstrumentScope
