import InstrumentScope.UnitMap.Lemmas

/-!
Contract: the words of a map hold its flags and nothing else.

Some observers of a map read whole words and others read one flag below the
size. They tell the same story only while no bit is set past the size. Every
operation keeps it so, whatever the sizes involved, and then the flags are all
there is to know of a map.

Owns:
- the maps that the operations lead to, and what holds of their words;
- the agreement of the whole-word observers with the flags;
- equality of maps by size and flags.
-/

namespace InstrumentScope

namespace Word

/-- A number below a word is itself a word. -/
theorem toNat_toUInt64 {number : Nat} {bound : UInt64} (below : number < bound.toNat) :
    number.toUInt64.toNat = number :=
  UInt64.toNat_ofNat_of_lt' (Nat.lt_trans below bound.toNat_lt)

theorem toUInt64_lt {number : Nat} {bound : UInt64} (below : number < bound.toNat) :
    number.toUInt64 < bound := by
  rw [UInt64.lt_iff_toNat_lt, toNat_toUInt64 below]
  exact below

end Word

namespace UnitMap

/-- The maps that the operations lead to. A copy needs no case of its own: it is the same map. -/
inductive Reachable : UnitMap → Prop where
  | blank (size : UInt64) : Reachable (blank size)
  | full (size : UInt64) : Reachable (full size)
  | set {map : UnitMap} (unit : UInt64) (state : Bool) (before : Reachable map) :
      Reachable (map.set unit state)
  | fill {map : UnitMap} (start count : UInt64) (state : Bool) (before : Reachable map) :
      Reachable (map.fill start count state)
  | union {map other : UnitMap} (before : Reachable map) (merged : Reachable other) :
      Reachable (map.union other)

theorem wellFormed_set {map : UnitMap} (wellFormed : map.WellFormed) (unit : UInt64)
    (state : Bool) : (map.set unit state).WellFormed :=
  wellFormed_fill wellFormed unit 1 state

theorem wellFormed_of_reachable {map : UnitMap} (reachable : map.Reachable) :
    map.WellFormed := by
  induction reachable with
  | blank size => exact wellFormed_blank size
  | full size => exact wellFormed_full size
  | set unit state _ inductionHypothesis => exact wellFormed_set inductionHypothesis unit state
  | fill start count state _ inductionHypothesis =>
      exact wellFormed_fill inductionHypothesis start count state
  | union _ _ inductionHypothesis _ => exact wellFormed_union inductionHypothesis _

theorem get_eq_bit_of_wellFormed {map : UnitMap} (wellFormed : map.WellFormed) (unit : UInt64) :
    map.get unit = map.bit unit.toNat := by
  rw [get_eq_bit]
  by_cases inside : unit < map.size
  · simp [inside]
  · have past := UInt64.le_iff_toNat_le.mp (UInt64.not_lt.mp inside)
    simp [inside, wellFormed.clear_past_size unit.toNat past]

/-- A position below the size is the number of a unit, and its bit is the flag of that unit. -/
theorem bit_eq_get {map : UnitMap} {position : Nat} (inside : position < map.size.toNat) :
    map.bit position = map.get position.toUInt64 := by
  rw [get_eq_bit, Word.toNat_toUInt64 inside, decide_eq_true (Word.toUInt64_lt inside),
    Bool.true_and]

private theorem bit_word {map : UnitMap} {index offset : Nat} (stored : index < map.words.size)
    (inWord : offset < 64) :
    map.bit (64 * index + offset) = (map.words[index]).toNat.testBit offset := by
  have word : (64 * index + offset) / 64 = index := by omega
  have place : (64 * index + offset) % 64 = offset := by omega
  simp [bit, word, place, Array.getElem?_eq_getElem stored]

section Words

private theorem exists_testBit_of_ne_zero {word : UInt64} (nonzero : word ≠ 0) :
    ∃ offset < 64, word.toNat.testBit offset = true := by
  have nonzero : word.toNat ≠ 0 := by
    intro zero
    exact nonzero (UInt64.toNat_inj.mp zero)
  obtain ⟨offset, isSet⟩ := Nat.exists_testBit_of_ne_zero nonzero
  refine ⟨offset, ?_, isSet⟩
  apply Nat.lt_of_not_le
  intro past
  have small : word.toNat < 2 ^ offset :=
    Nat.lt_of_lt_of_le word.toNat_lt (Nat.pow_le_pow_right (by decide) past)
  rw [Nat.testBit_lt_two_pow small] at isSet
  contradiction

/-- Words are equal if their 64 bits are. -/
private theorem eq_of_testBit {left right : UInt64}
    (same : ∀ offset < 64, left.toNat.testBit offset = right.toNat.testBit offset) :
    left = right := by
  apply UInt64.toNat_inj.mp
  apply Nat.eq_of_testBit_eq
  intro offset
  by_cases inWord : offset < 64
  · exact same offset inWord
  · have past : 2 ^ 64 ≤ 2 ^ offset := Nat.pow_le_pow_right (by decide) (Nat.le_of_not_lt inWord)
    rw [Nat.testBit_lt_two_pow (Nat.lt_of_lt_of_le left.toNat_lt past),
      Nat.testBit_lt_two_pow (Nat.lt_of_lt_of_le right.toNat_lt past)]

end Words

/-- Some word is not zero exactly if some unit is set. -/
theorem any_eq_true_iff {map : UnitMap} (wellFormed : map.WellFormed) :
    map.any = true ↔ ∃ unit, map.get unit = true := by
  unfold any
  rw [Array.any_eq_true]
  constructor
  · intro someWord
    rcases someWord with ⟨index, stored, nonzero⟩
    obtain ⟨offset, inWord, isSet⟩ := exists_testBit_of_ne_zero (bne_iff_ne.mp nonzero)
    have bitSet : map.bit (64 * index + offset) = true := by
      rw [bit_word stored inWord]
      exact isSet
    have inside : 64 * index + offset < map.size.toNat := by
      apply Nat.lt_of_not_le
      intro past
      rw [wellFormed.clear_past_size _ past] at bitSet
      contradiction
    rw [bit_eq_get inside] at bitSet
    exact ⟨(64 * index + offset).toUInt64, bitSet⟩
  · intro someUnit
    rcases someUnit with ⟨unit, isSet⟩
    rw [get_eq_bit_of_wellFormed wellFormed] at isSet
    unfold bit at isSet
    split at isSet
    case h_1 word present =>
      obtain ⟨stored, rfl⟩ := Array.getElem?_eq_some_iff.mp present
      refine ⟨unit.toNat / 64, stored, ?_⟩
      rw [bne_iff_ne]
      intro zero
      simp [zero] at isSet
    case h_2 => contradiction

/-- The ones of a word are the set bits among its 64 positions. -/
private theorem ones_word {map : UnitMap} {index : Nat} (stored : index < map.words.size) :
    Word.ones map.words[index] =
      (List.range 64).countP fun offset => map.bit (64 * index + offset) := by
  unfold Word.ones
  apply List.countP_congr
  intro offset member
  have inWord : offset < 64 := List.mem_range.mp member
  have below : offset < Word.width.toNat := inWord
  rw [Word.testBit_eq, Word.toNat_toUInt64 below, Nat.mod_eq_of_lt inWord, bit_word stored inWord]

/-- Counting word by word is counting position by position. -/
private theorem foldl_ones_take {map : UnitMap} {count : Nat} (stored : count ≤ map.words.size) :
    (map.words.toList.take count).foldl (fun total word => total + Word.ones word) 0 =
      (List.range (64 * count)).countP map.bit := by
  induction count with
  | zero => rfl
  | succ count inductionHypothesis =>
      have present : count < map.words.toList.length := stored
      rw [List.take_succ_eq_append_getElem present, List.foldl_append,
        inductionHypothesis (Nat.le_of_succ_le stored), List.foldl_cons, List.foldl_nil,
        Array.getElem_toList, ones_word stored, Nat.mul_succ, List.range_add, List.countP_append,
        List.countP_map]
      rfl

/-- The ones of all words together are the units that are set. -/
theorem count_eq {map : UnitMap} (wellFormed : map.WellFormed) :
    map.count = (List.range map.size.toNat).countP fun unit => map.get unit.toUInt64 := by
  have wide : map.size.toNat ≤ 64 * map.words.size := by
    rw [wellFormed.size_words, wordCount]
    omega
  obtain ⟨rest, padded⟩ := Nat.exists_eq_add_of_le wide
  have clear : ((List.range rest).map (map.size.toNat + ·)).countP map.bit = 0 := by
    rw [List.countP_eq_zero]
    intro position member
    obtain ⟨excess, _, rfl⟩ := List.mem_map.mp member
    rw [wellFormed.clear_past_size _ (Nat.le_add_right _ excess)]
    exact Bool.false_ne_true
  calc
    map.count = (List.range (64 * map.words.size)).countP map.bit := by
      have whole := foldl_ones_take (Nat.le_refl map.words.size)
      rw [List.take_of_length_le (Nat.le_of_eq Array.length_toList), Array.foldl_toList] at whole
      exact whole
    _ = (List.range map.size.toNat).countP map.bit := by
      rw [padded, List.range_add, List.countP_append, clear, Nat.add_zero]
    _ = (List.range map.size.toNat).countP fun unit => map.get unit.toUInt64 := by
      apply List.countP_congr
      intro position member
      rw [bit_eq_get (List.mem_range.mp member)]

/-- The units that are set are listed in ascending order. -/
theorem pairwise_toList (map : UnitMap) : map.toList.Pairwise (· < ·) := by
  apply List.Pairwise.filter
  rw [List.pairwise_map]
  apply List.Pairwise.imp_of_mem _ List.pairwise_lt_range
  intro lesser greater lesserMember greaterMember below
  rw [UInt64.lt_iff_toNat_lt, Word.toNat_toUInt64 (List.mem_range.mp lesserMember),
    Word.toNat_toUInt64 (List.mem_range.mp greaterMember)]
  exact below

theorem length_toList {map : UnitMap} (wellFormed : map.WellFormed) :
    map.toList.length = map.count := by
  rw [count_eq wellFormed, toList, ← List.countP_eq_length_filter, List.countP_map]
  rfl

theorem count_pos_iff {map : UnitMap} (wellFormed : map.WellFormed) :
    0 < map.count ↔ ∃ unit, map.get unit = true := by
  rw [← length_toList wellFormed, List.length_pos_iff_exists_mem]
  simp only [mem_toList]

/-- Maps of one size with the same flags have the same bits, also past the size. -/
private theorem bit_eq_of_get {map other : UnitMap} (wellFormed : map.WellFormed)
    (otherWellFormed : other.WellFormed) (sameSize : map.size = other.size)
    (sameFlags : ∀ unit, map.get unit = other.get unit) (position : Nat) :
    map.bit position = other.bit position := by
  by_cases inside : position < map.size.toNat
  · have otherInside : position < other.size.toNat := sameSize ▸ inside
    rw [bit_eq_get inside, bit_eq_get otherInside, sameFlags]
  · have past : map.size.toNat ≤ position := Nat.le_of_not_lt inside
    have otherPast : other.size.toNat ≤ position := sameSize ▸ past
    rw [wellFormed.clear_past_size position past,
      otherWellFormed.clear_past_size position otherPast]

/-- A map is told by its size and its flags. -/
theorem eq_iff_get {map other : UnitMap} (wellFormed : map.WellFormed)
    (otherWellFormed : other.WellFormed) :
    map = other ↔ map.size = other.size ∧ ∀ unit, map.get unit = other.get unit := by
  constructor
  · intro same
    rw [same]
    exact ⟨rfl, fun _ => rfl⟩
  · rintro ⟨sameSize, sameFlags⟩
    have sameWords : map.words = other.words := by
      apply Array.ext
      · rw [wellFormed.size_words, otherWellFormed.size_words, sameSize]
      · intro index stored otherStored
        apply eq_of_testBit
        intro offset inWord
        rw [← bit_word stored inWord, ← bit_word otherStored inWord]
        exact bit_eq_of_get wellFormed otherWellFormed sameSize sameFlags _
    cases map
    cases other
    exact congr (congrArg UnitMap.mk sameSize) sameWords

/-- Whatever operations led to a map, it has just the words that its size needs and no bit is set
past the size. So its whole-word observers say what its flags say, the units it lists are those that
are set, in ascending order, nothing past the size is set, and no other map has its size and its
flags. -/
theorem words_hold_flags {map : UnitMap} (reachable : map.Reachable) :
    map.words.size = (map.size.toNat + 63) / 64 ∧
    (∀ position, map.size.toNat ≤ position → map.bit position = false) ∧
    map.count = ((List.range map.size.toNat).countP fun unit => map.get unit.toUInt64) ∧
    (map.any = true ↔ ∃ unit, map.get unit = true) ∧
    (∀ unit, unit ∈ map.toList ↔ map.get unit = true) ∧
    map.toList.Pairwise (· < ·) ∧
    (∀ unit, map.size ≤ unit → map.get unit = false) ∧
    ∀ other : UnitMap, other.Reachable →
      (map = other ↔ map.size = other.size ∧ ∀ unit, map.get unit = other.get unit) := by
  have wellFormed := wellFormed_of_reachable reachable
  refine ⟨wellFormed.size_words, wellFormed.clear_past_size, count_eq wellFormed,
    any_eq_true_iff wellFormed, fun unit => mem_toList, pairwise_toList map,
    fun unit => get_of_size_le, ?_⟩
  intro other otherReachable
  exact eq_iff_get wellFormed (wellFormed_of_reachable otherReachable)

/-- A map of 70 units with six of them set takes over all units of a longer map. -/
theorem words_hold_flags_sample :
    let map := ((blank 70).fill 62 6 true).union (full 130)
    map.Reachable ∧ map.count = 70 ∧ map.words = #[~~~0, 0x3f] ∧ map = full 70 := by
  intro map
  have reachable : map.Reachable := .union (.fill 62 6 true (.blank 70)) (.full 130)
  obtain ⟨_, _, counted, _, _, _, _, same⟩ := words_hold_flags reachable
  refine ⟨reachable, counted.trans (by decide +kernel), by decide +kernel, ?_⟩
  apply (same (full 70) (.full 70)).mpr
  refine ⟨rfl, ?_⟩
  intro unit
  rw [get_union (wellFormed_fill (wellFormed_blank 70) 62 6 true) (wellFormed_full 130), get_full,
    get_full, size_fill, size_blank]
  by_cases inside : unit < 70
  · have insideLonger : unit < 130 := UInt64.lt_trans inside (by decide)
    simp [inside, insideLonger]
  · simp [inside]

end UnitMap

end InstrumentScope
