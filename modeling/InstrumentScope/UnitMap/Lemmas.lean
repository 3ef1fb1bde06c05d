import InstrumentScope.UnitMap.Painting
import InstrumentScope.UnitMap.Union

/-!
Contract: what every operation on a map does to its bits.

Owns:
- the values of a word with one bit and of a word with ones up to a bit;
- the bits of a mask and the effect of painting one chunk;
- the bits, the flags and the invariant after `fill`, `set`, `full` and `union`.
-/

namespace InstrumentScope

namespace Word

theorem toNat_one_shiftLeft {amount : UInt64} (short : amount.toNat < 64) :
    (1 <<< amount : UInt64).toNat = 1 <<< amount.toNat := by
  rw [UInt64.toNat_shiftLeft, UInt64.toNat_one, Nat.mod_eq_of_lt short, Nat.one_shiftLeft]
  exact Nat.mod_eq_of_lt (Nat.pow_lt_pow_right (by decide) short)

theorem one_le_one_shiftLeft {amount : UInt64} (short : amount.toNat < 64) :
    (1 : UInt64) ≤ 1 <<< amount := by
  rw [UInt64.le_iff_toNat_le, toNat_one_shiftLeft short, UInt64.toNat_one, Nat.one_shiftLeft]
  exact Nat.one_le_two_pow

theorem toNat_one_shiftLeft_sub_one {amount : UInt64} (short : amount.toNat < 64) :
    ((1 <<< amount : UInt64) - 1).toNat = 1 <<< amount.toNat - 1 := by
  rw [UInt64.toNat_sub_of_le _ _ (one_le_one_shiftLeft short), toNat_one_shiftLeft short,
    UInt64.toNat_one]

end Word

namespace UnitMap

namespace Chunk

theorem toNat_bit (chunk : Chunk) : chunk.bit.toNat = chunk.start.toNat % 64 :=
  UInt64.toNat_mod chunk.start Word.width

theorem word_eq (chunk : Chunk) : chunk.word = chunk.start.toNat / 64 :=
  UInt64.toNat_div chunk.start Word.width

theorem testBit_mask {chunk : Chunk} (inWord : chunk.InWord) {position : Nat}
    (inside : position < 64) :
    chunk.mask.toNat.testBit position =
      decide (chunk.start.toNat % 64 ≤ position ∧
        position < chunk.start.toNat % 64 + chunk.span.toNat) := by
  obtain ⟨positive, bounded⟩ := inWord
  unfold mask
  split
  case isTrue whole =>
    have whole : chunk.span.toNat = 64 := congrArg UInt64.toNat whole
    rw [UInt64.toNat_not, UInt64.toNat_zero,
      show UInt64.size - 1 - 0 = 2 ^ 64 - 1 from rfl, Nat.testBit_two_pow_sub_one]
    exact decide_eq_decide.mpr (by omega)
  case isFalse partly =>
    have short : chunk.span.toNat < 64 := by
      have : chunk.span.toNat ≠ 64 := fun whole => partly (UInt64.toNat_inj.mp whole)
      omega
    rw [UInt64.toNat_shiftLeft, Word.toNat_one_shiftLeft_sub_one short, Nat.one_shiftLeft,
      toNat_bit, Nat.mod_mod, Nat.testBit_mod_two_pow, Nat.testBit_shiftLeft,
      Nat.testBit_two_pow_sub_one]
    simp only [inside, decide_true, Bool.true_and]
    rw [Bool.eq_iff_iff]
    simp only [Bool.and_eq_true, decide_eq_true_eq, ge_iff_le]
    omega

theorem testBit_paint {chunk : Chunk} (inWord : chunk.InWord) (state : Bool) (word : UInt64)
    {position : Nat} (inside : position < 64) :
    (chunk.paint state word).toNat.testBit position =
      if chunk.start.toNat % 64 ≤ position ∧
          position < chunk.start.toNat % 64 + chunk.span.toNat
      then state else word.toNat.testBit position := by
  have not : (~~~chunk.mask).toNat.testBit position = !chunk.mask.toNat.testBit position := by
    rw [UInt64.toNat_not, show UInt64.size - 1 = 2 ^ 64 - 1 from rfl, Nat.sub_sub, Nat.add_comm,
      Nat.testBit_two_pow_sub_succ chunk.mask.toNat_lt]
    simp [inside]
  unfold paint
  cases state
  · simp only [Bool.false_eq_true, if_false, UInt64.toNat_and, Nat.testBit_and, not,
      testBit_mask inWord inside]
    split
    case isTrue covered => simp [covered]
    case isFalse uncovered => simp only [uncovered, decide_false, Bool.not_false, Bool.and_true]
  · simp only [if_true, UInt64.toNat_or, Nat.testBit_or, testBit_mask inWord inside]
    split
    case isTrue covered => simp [covered]
    case isFalse uncovered => simp only [uncovered, decide_false, Bool.or_false]

end Chunk

/-- Painting a chunk changes the bits of its units and no others. -/
private theorem bit_modify {chunk : Chunk} (inWord : chunk.InWord) (state : Bool)
    (size : UInt64) (words : Array UInt64)
    (stored : chunk.start.toNat + chunk.span.toNat ≤ 64 * words.size) (position : Nat) :
    bit ⟨size, words.modify chunk.word (chunk.paint state)⟩ position =
      if chunk.start.toNat ≤ position ∧ position < chunk.start.toNat + chunk.span.toNat
      then state else bit ⟨size, words⟩ position := by
  have bounds := inWord
  obtain ⟨positive, bounded⟩ := bounds
  simp only [bit, Array.getElem?_modify, Chunk.word_eq]
  by_cases sameWord : chunk.start.toNat / 64 = position / 64
  · have present : position / 64 < words.size := by omega
    simp only [sameWord, if_true, Array.getElem?_eq_getElem present, Option.map_some,
      Chunk.testBit_paint inWord state _ (Nat.mod_lt position (by decide : 0 < 64))]
    congr 1
    exact propext (by omega)
  · have outside : ¬ (chunk.start.toNat ≤ position ∧
        position < chunk.start.toNat + chunk.span.toNat) := by omega
    simp only [sameWord, if_false, if_neg outside]

/-- Painting the chunks of a run changes the bits of its units and no others. -/
private theorem bit_foldl_chunks (state : Bool) (size unit stop : UInt64) (words : Array UInt64)
    (stored : stop.toNat ≤ 64 * words.size) (position : Nat) :
    bit ⟨size, (chunks unit stop).foldl
        (fun words chunk => words.modify chunk.word (chunk.paint state)) words⟩ position =
      if unit.toNat ≤ position ∧ position < stop.toNat
      then state else bit ⟨size, words⟩ position := by
  fun_induction chunks unit stop generalizing words with
  | case1 unit before inductionHypothesis =>
      have inWord := Chunk.inWord_first before
      have reach := Chunk.toNat_stop_first before
      have start : (Chunk.first unit stop).start.toNat = unit.toNat := rfl
      rw [List.foldl_cons, inductionHypothesis _ (by simpa using stored),
        bit_modify inWord state size words (by omega) position, start]
      by_cases inRest : (Chunk.first unit stop).stop.toNat ≤ position ∧ position < stop.toNat
      · rw [if_pos inRest, if_pos (by omega)]
      · rw [if_neg inRest]
        congr 1
        exact propext (by omega)
  | case2 unit after =>
      have after : ¬ unit.toNat < stop.toNat := fun before => after (UInt64.lt_iff_toNat_lt.mpr before)
      rw [List.foldl_nil, if_neg (by omega)]

private theorem size_foldl_modify (state : Bool) (run : List Chunk) (words : Array UInt64) :
    (run.foldl (fun words chunk => words.modify chunk.word (chunk.paint state)) words).size =
      words.size := by
  induction run generalizing words with
  | nil => rfl
  | cons chunk rest inductionHypothesis => simp [inductionHypothesis]

/-- The units of a run lie at or above its start, at a distance less than its length. -/
def InRun (start count : UInt64) (position : Nat) : Prop :=
  start.toNat ≤ position ∧ position - start.toNat < count.toNat

instance (start count : UInt64) (position : Nat) : Decidable (InRun start count position) := by
  unfold InRun
  infer_instance

theorem bit_fill {map : UnitMap} (wellFormed : map.WellFormed) (start count : UInt64)
    (state : Bool) (position : Nat) :
    (map.fill start count state).bit position =
      if InRun start count position ∧ position < map.size.toNat then state
      else map.bit position := by
  have words := wellFormed.size_words
  have sizeBound := map.size.toNat_lt
  have startBound := start.toNat_lt
  have stop : (Word.least (Word.addSaturating start count) map.size).toNat ≤ map.size.toNat := by
    rw [Word.toNat_least]
    split <;> omega
  unfold fill
  rw [bit_foldl_chunks state map.size _ _ map.words (by simp only [wordCount] at words; omega)]
  congr 1
  rw [Word.toNat_least, Word.toNat_addSaturating]
  simp only [InRun, UInt64.size]
  refine propext ?_
  split <;> split <;> omega

theorem wellFormed_fill {map : UnitMap} (wellFormed : map.WellFormed) (start count : UInt64)
    (state : Bool) : (map.fill start count state).WellFormed where
  size_words := by
    rw [size_fill, fill, size_foldl_modify]
    exact wellFormed.size_words
  clear_past_size position past := by
    rw [size_fill] at past
    rw [bit_fill wellFormed, if_neg (by omega), wellFormed.clear_past_size position past]

theorem get_fill {map : UnitMap} (wellFormed : map.WellFormed) (start count : UInt64)
    (state : Bool) (unit : UInt64) :
    (map.fill start count state).get unit =
      if InRun start count unit.toNat ∧ unit < map.size then state else map.get unit := by
  simp only [get_eq_bit, size_fill, bit_fill wellFormed, UInt64.lt_iff_toNat_lt]
  by_cases inside : unit.toNat < map.size.toNat <;> simp [inside]

theorem wellFormed_full (size : UInt64) : (full size).WellFormed :=
  wellFormed_fill (wellFormed_blank size) 0 size true

@[simp]
theorem get_full (size unit : UInt64) : (full size).get unit = decide (unit < size) := by
  rw [full, get_fill (wellFormed_blank size)]
  simp only [InRun, UInt64.toNat_zero, size_blank, get_blank, UInt64.lt_iff_toNat_lt]
  by_cases inside : unit.toNat < size.toNat <;> simp [inside]

private theorem bit_trim (map : UnitMap) (words : map.words.size = wordCount map.size)
    (position : Nat) :
    map.trim.bit position = (decide (position < map.size.toNat) && map.bit position) := by
  have used : (map.size % Word.width).toNat = map.size.toNat % 64 :=
    UInt64.toNat_mod map.size Word.width
  have sizeBound := map.size.toNat_lt
  simp only [wordCount] at words
  unfold trim
  simp only
  split
  case isTrue whole =>
    have whole : map.size.toNat % 64 = 0 := by rw [← used, whole, UInt64.toNat_zero]
    by_cases inside : position < map.size.toNat
    · simp [inside]
    · have absent : map.words[position / 64]? = none := by
        rw [Array.getElem?_eq_none_iff]
        omega
      simp [inside, bit, absent]
  case isFalse partly =>
    have positive : map.size.toNat % 64 ≠ 0 := fun zero =>
      partly (UInt64.toNat_inj.mp (by rw [used, zero, UInt64.toNat_zero]))
    have short : (map.size % Word.width).toNat < 64 := used ▸ Nat.mod_lt _ (by decide)
    have mask : ((1 <<< (map.size % Word.width) : UInt64) - 1).toNat =
        2 ^ (map.size.toNat % 64) - 1 := by
      rw [Word.toNat_one_shiftLeft_sub_one short, used, Nat.one_shiftLeft]
    simp only [bit, Array.getElem?_modify]
    by_cases lastWord : map.words.size - 1 = position / 64
    · have present : position / 64 < map.words.size := by omega
      simp only [lastWord, if_true, Array.getElem?_eq_getElem present, Option.map_some,
        UInt64.toNat_and, Nat.testBit_and, mask, Nat.testBit_two_pow_sub_one]
      rw [Bool.and_comm]
      congr 1
      exact decide_eq_decide.mpr (by omega)
    · simp only [lastWord, if_false]
      by_cases inside : position < map.size.toNat
      · simp [inside]
      · have absent : map.words[position / 64]? = none := by
          rw [Array.getElem?_eq_none_iff]
          omega
        simp [inside, absent]

theorem bit_union {map : UnitMap} (wellFormed : map.WellFormed) (other : UnitMap)
    (position : Nat) :
    (map.union other).bit position =
      (decide (position < map.size.toNat) && (map.bit position || other.bit position)) := by
  have words := wellFormed.size_words
  unfold union
  rw [bit_trim _ (by simpa using words)]
  by_cases inside : position < map.size.toNat
  · have present : position / 64 < map.words.size := by
      simp only [wordCount] at words
      omega
    simp only [inside, decide_true, Bool.true_and, bit, Array.getElem?_mapIdx,
      Array.getElem?_eq_getElem present, Option.map_some, UInt64.toNat_or, Nat.testBit_or]
    cases other.words[position / 64]? <;> simp
  · simp [inside]

theorem wellFormed_union {map : UnitMap} (wellFormed : map.WellFormed) (other : UnitMap) :
    (map.union other).WellFormed where
  size_words := by
    rw [size_union, ← wellFormed.size_words, union, trim]
    simp only
    split <;> simp
  clear_past_size position past := by
    rw [size_union] at past
    rw [bit_union wellFormed, decide_eq_false (Nat.not_lt.mpr past), Bool.false_and]

theorem get_union {map : UnitMap} (wellFormed : map.WellFormed) {other : UnitMap}
    (otherWellFormed : other.WellFormed) (unit : UInt64) :
    (map.union other).get unit =
      (decide (unit < map.size) && (map.get unit || other.get unit)) := by
  simp only [get_eq_bit, size_union, bit_union wellFormed, UInt64.lt_iff_toNat_lt]
  by_cases inside : unit.toNat < map.size.toNat
  · by_cases otherInside : unit.toNat < other.size.toNat
    · simp [inside, otherInside]
    · simp [inside, otherInside,
        otherWellFormed.clear_past_size unit.toNat (Nat.le_of_not_lt otherInside)]
  · simp [inside]

end UnitMap

end InstrumentScope
