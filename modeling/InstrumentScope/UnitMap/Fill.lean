import InstrumentScope.UnitMap.Basic

/-!
Contract: a run of units is set or cleared one word at a time.

A run is cut into chunks, none of which crosses a word boundary, and every
chunk is painted with one mask. The run is clipped to the size of the map
first, and its end saturates, so no run is too long or too far out.

Owns:
- chunks, their masks and the cutting of a run into chunks;
- `fill` for a run and `set` for one unit;
- the map of which every unit is set.
-/

namespace InstrumentScope

namespace UnitMap

/-- The `span` units from `start` on, all in one word. -/
structure Chunk where
  start : UInt64
  span : UInt64
deriving DecidableEq, Repr

namespace Chunk

/-- The longest chunk at the front of the units from `unit` up to `stop`. -/
def first (unit stop : UInt64) : Chunk :=
  ⟨unit, Word.least (Word.width - unit % Word.width) (stop - unit)⟩

def stop (chunk : Chunk) : UInt64 :=
  chunk.start + chunk.span

def word (chunk : Chunk) : Nat :=
  (chunk.start / Word.width).toNat

/-- The position of the chunk's first unit within its word. -/
def bit (chunk : Chunk) : UInt64 :=
  chunk.start % Word.width

/-- The bits of the chunk within its word. A whole word is told apart because a shift by the
width of a word is no shift. -/
def mask (chunk : Chunk) : UInt64 :=
  if chunk.span = Word.width then ~~~0 else ((1 <<< chunk.span) - 1) <<< chunk.bit

/-- Gives the units of the chunk the flag `state` in the word that holds them. -/
def paint (chunk : Chunk) (state : Bool) (word : UInt64) : UInt64 :=
  if state then word ||| chunk.mask else word &&& ~~~chunk.mask

/-- A chunk has a unit and ends within the word it starts in. -/
def InWord (chunk : Chunk) : Prop :=
  0 < chunk.span.toNat ∧ chunk.start.toNat % 64 + chunk.span.toNat ≤ 64

private theorem toNat_span_first {unit stop : UInt64} (before : unit < stop) :
    (first unit stop).span.toNat =
      if 64 - unit.toNat % 64 ≤ stop.toNat - unit.toNat then 64 - unit.toNat % 64
      else stop.toNat - unit.toNat := by
  have offset : (unit % Word.width).toNat = unit.toNat % 64 := UInt64.toNat_mod unit Word.width
  have within : unit.toNat % 64 ≤ Word.width.toNat := Nat.le_of_lt (Nat.mod_lt _ (by decide))
  have rest : (Word.width - unit % Word.width).toNat = 64 - unit.toNat % 64 := by
    rw [UInt64.toNat_sub_of_le _ _ (UInt64.le_iff_toNat_le.mpr (offset ▸ within)), offset]
    rfl
  rw [first, Word.toNat_least, rest, UInt64.toNat_sub_of_le _ _ (UInt64.le_of_lt before)]

theorem inWord_first {unit stop : UInt64} (before : unit < stop) : (first unit stop).InWord := by
  have span := toNat_span_first before
  have before := UInt64.lt_iff_toNat_lt.mp before
  have start : (first unit stop).start.toNat = unit.toNat := rfl
  unfold InWord
  split at span <;> omega

/-- The first chunk ends after it starts, no later than the run, and its end does not wrap. -/
theorem toNat_stop_first {unit stop : UInt64} (before : unit < stop) :
    (first unit stop).stop.toNat = unit.toNat + (first unit stop).span.toNat ∧
      unit.toNat < (first unit stop).stop.toNat ∧
      (first unit stop).stop.toNat ≤ stop.toNat := by
  have span := toNat_span_first before
  have before := UInt64.lt_iff_toNat_lt.mp before
  have stopBound := stop.toNat_lt
  have exact : (first unit stop).stop.toNat = unit.toNat + (first unit stop).span.toNat := by
    rw [Chunk.stop, UInt64.toNat_add]
    refine Nat.mod_eq_of_lt ?_
    show unit.toNat + (first unit stop).span.toNat < _
    split at span <;> omega
  split at span <;> omega

end Chunk

/-- Cuts the units from `unit` up to `stop` into chunks, in ascending order. -/
def chunks (unit stop : UInt64) : List Chunk :=
  if unit < stop then
    Chunk.first unit stop :: chunks (Chunk.first unit stop).stop stop
  else
    []
termination_by stop.toNat - unit.toNat
decreasing_by
  rename_i before
  have := Chunk.toNat_stop_first before
  omega

/-- Gives `count` units from `start` on the flag `state`. Units past the size are left out. -/
def fill (map : UnitMap) (start count : UInt64) (state : Bool) : UnitMap :=
  let stop := Word.least (Word.addSaturating start count) map.size
  { map with
    words := (chunks start stop).foldl
      (fun words chunk => words.modify chunk.word (chunk.paint state)) map.words }

def set (map : UnitMap) (unit : UInt64) (state : Bool) : UnitMap :=
  map.fill unit 1 state

def full (size : UInt64) : UnitMap :=
  (blank size).fill 0 size true

@[simp]
theorem size_fill (map : UnitMap) (start count : UInt64) (state : Bool) :
    (map.fill start count state).size = map.size := rfl

@[simp]
theorem size_set (map : UnitMap) (unit : UInt64) (state : Bool) :
    (map.set unit state).size = map.size := rfl

@[simp]
theorem size_full (size : UInt64) : (full size).size = size := rfl

end UnitMap

end InstrumentScope
