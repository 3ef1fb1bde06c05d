import InstrumentScope.Proofs.CanonicalMaps

/-!
Contract: a run filled word by word is the run set unit by unit.

The filling loop takes the first chunk of what is left of a run, paints the word
that holds it and goes on behind it. `Fills` is that loop with nothing taken for
granted: a pass needs its word to be there, no sum or difference of a pass may
leave the word, and no shift may be as wide as a word. The loop always comes to
its end in this way, and the words that it leaves are those of `fill`.

Owns:
- the checked operations of a pass and the runs of the filling loop;
- the run that a filled map comes from;
- the flags after setting units one by one, and their agreement with `fill`.
-/

namespace InstrumentScope

/-- The word shifted to the left, unless the shift is as wide as a word or wider. -/
def Word.shiftLeft? (word amount : UInt64) : Option UInt64 :=
  if amount < width then some (word <<< amount) else none

namespace UnitMap

namespace Chunk

/-- The longest chunk at the front of the units from `unit` up to `stop`, with checked differences. -/
def first? (unit stop : UInt64) : Option Chunk := do
  let room ← Word.sub? Word.width (unit % Word.width)
  let rest ← Word.sub? stop unit
  return ⟨unit, Word.least room rest⟩

def stop? (chunk : Chunk) : Option UInt64 :=
  Word.add? chunk.start chunk.span

/-- The bits of the chunk within its word, with checked shifts. -/
def mask? (chunk : Chunk) : Option UInt64 :=
  if chunk.span = Word.width then some (~~~0)
  else do
    let power ← Word.shiftLeft? 1 chunk.span
    let ones ← Word.sub? power 1
    Word.shiftLeft? ones chunk.bit

def paint? (chunk : Chunk) (state : Bool) (word : UInt64) : Option UInt64 := do
  let mask ← chunk.mask?
  return if state then word ||| mask else word &&& ~~~mask

theorem first?_of_lt {unit stop : UInt64} (before : unit < stop) :
    first? unit stop = some (first unit stop) := by
  have offset : unit % Word.width ≤ Word.width := by
    rw [UInt64.le_iff_toNat_le, UInt64.toNat_mod]
    exact Nat.le_of_lt (Nat.mod_lt _ (by decide))
  have room : Word.sub? Word.width (unit % Word.width) =
      some (Word.width - unit % Word.width) := if_pos offset
  have rest : Word.sub? stop unit = some (stop - unit) := if_pos (UInt64.le_of_lt before)
  unfold first?
  rw [room, rest]
  rfl

/-- The end of the first chunk is a word, since the run itself ends no earlier. -/
theorem stop?_first {unit stop : UInt64} (before : unit < stop) :
    (first unit stop).stop? = some (first unit stop).stop := by
  have reach := toNat_stop_first before
  exact Word.add?_eq_some_iff.mpr reach.1.symm

theorem mask?_of_inWord {chunk : Chunk} (inWord : chunk.InWord) :
    chunk.mask? = some chunk.mask := by
  unfold mask? mask
  split
  case isTrue => rfl
  case isFalse partly =>
    have short : chunk.span.toNat < 64 := by
      have bounded := inWord.2
      have different : chunk.span.toNat ≠ 64 := fun whole => partly (UInt64.toNat_inj.mp whole)
      omega
    have within : chunk.bit < Word.width := by
      rw [UInt64.lt_iff_toNat_lt, toNat_bit]
      exact Nat.mod_lt _ (by decide)
    have power : Word.shiftLeft? 1 chunk.span = some (1 <<< chunk.span) :=
      if_pos (UInt64.lt_iff_toNat_lt.mpr short)
    have ones : Word.sub? (1 <<< chunk.span) 1 = some (1 <<< chunk.span - 1) :=
      if_pos (Word.one_le_one_shiftLeft short)
    have shifted : Word.shiftLeft? (1 <<< chunk.span - 1) chunk.bit =
        some ((1 <<< chunk.span - 1) <<< chunk.bit) := if_pos within
    simp only [power, ones, Option.bind_eq_bind, Option.bind_some]
    exact shifted

theorem paint?_of_inWord {chunk : Chunk} (inWord : chunk.InWord) (state : Bool)
    (word : UInt64) : chunk.paint? state word = some (chunk.paint state word) := by
  unfold paint?
  rw [mask?_of_inWord inWord]
  rfl

end Chunk

/-- The filling loop runs from `unit` up to `stop` and turns `words` into `filled`. -/
inductive Fills (state : Bool) (stop : UInt64) : UInt64 → Array UInt64 → Array UInt64 → Prop where
  | done {unit : UInt64} {words : Array UInt64} (reached : stop ≤ unit) :
      Fills state stop unit words words
  | pass {unit next word painted : UInt64} {chunk : Chunk} {words filled : Array UInt64}
      (before : unit < stop) (cut : Chunk.first? unit stop = some chunk)
      (present : words[chunk.word]? = some word)
      (painting : chunk.paint? state word = some painted)
      (advance : chunk.stop? = some next)
      (rest : Fills state stop next (words.set! chunk.word painted) filled) :
      Fills state stop unit words filled

/-- The loop leaves no choice. -/
theorem Fills.unique {state : Bool} {stop unit : UInt64} {words filled other : Array UInt64}
    (fills : Fills state stop unit words filled) (others : Fills state stop unit words other) :
    filled = other := by
  induction fills with
  | done reached =>
      cases others with
      | done => rfl
      | pass before => exact absurd reached (UInt64.not_le.mpr before)
  | pass before cut present painting advance _ inductionHypothesis =>
      cases others with
      | done reached => exact absurd reached (UInt64.not_le.mpr before)
      | pass _ otherCut otherPresent otherPainting otherAdvance rest =>
          obtain rfl := Option.some.inj (cut.symm.trans otherCut)
          obtain rfl := Option.some.inj (present.symm.trans otherPresent)
          obtain rfl := Option.some.inj (painting.symm.trans otherPainting)
          obtain rfl := Option.some.inj (advance.symm.trans otherAdvance)
          exact inductionHypothesis rest

private theorem modify_eq_set (words : Array UInt64) {index : Nat} (stored : index < words.size)
    (paint : UInt64 → UInt64) : words.modify index paint = words.set! index (paint words[index]) := by
  apply Array.ext_getElem?
  intro other
  rw [Array.getElem?_modify, Array.set!_eq_setIfInBounds, Array.getElem?_setIfInBounds]
  by_cases same : index = other
  · subst same
    simp [stored]
  · simp [same]

/-- Where all words of the run are there, the loop paints its chunks one after the other. -/
theorem fills_chunks (state : Bool) (stop unit : UInt64) {words : Array UInt64}
    (stored : stop.toNat ≤ 64 * words.size) :
    Fills state stop unit words
      ((chunks unit stop).foldl
        (fun words chunk => words.modify chunk.word (chunk.paint state)) words) := by
  fun_induction chunks unit stop generalizing words with
  | case1 unit before inductionHypothesis =>
      have inWord := Chunk.inWord_first before
      -- The run ends within the words, so the word of its first unit is one of them.
      have index : (Chunk.first unit stop).word < words.size := by
        have start : (Chunk.first unit stop).start.toNat = unit.toNat := rfl
        have below := UInt64.lt_iff_toNat_lt.mp before
        rw [Chunk.word_eq]
        omega
      rw [List.foldl_cons, modify_eq_set _ index]
      exact .pass before (Chunk.first?_of_lt before) (Array.getElem?_eq_getElem index)
        (Chunk.paint?_of_inWord inWord state _) (Chunk.stop?_first before)
        (inductionHypothesis (by simpa using stored))
  | case2 unit after => exact .done (UInt64.not_lt.mp after)

/-- Filling is the loop from the start of the run up to its end, which saturates, or to the size. -/
theorem fills_fill {map : UnitMap} (wellFormed : map.WellFormed) (start count : UInt64)
    (state : Bool) :
    Fills state (Word.least (Word.addSaturating start count) map.size) start map.words
      (map.fill start count state).words := by
  have words := wellFormed.size_words
  have clipped : (Word.least (Word.addSaturating start count) map.size).toNat ≤
      map.size.toNat := by
    rw [Word.toNat_least]
    split <;> omega
  apply fills_chunks
  rw [words, wordCount]
  omega

theorem inRun_iff {start count unit : UInt64} :
    InRun start count unit.toNat ↔ start ≤ unit ∧ unit - start < count := by
  unfold InRun
  rw [UInt64.le_iff_toNat_le, UInt64.lt_iff_toNat_lt]
  apply and_congr_right
  intro above
  rw [UInt64.toNat_sub_of_le _ _ (UInt64.le_iff_toNat_le.mpr above)]

theorem get_set {map : UnitMap} (wellFormed : map.WellFormed) (unit : UInt64) (state : Bool)
    (other : UInt64) :
    (map.set unit state).get other =
      if other = unit ∧ other < map.size then state else map.get other := by
  have one : InRun unit 1 other.toNat ↔ other = unit := by
    unfold InRun
    rw [← UInt64.toNat_inj, UInt64.toNat_one]
    omega
  rw [set, get_fill wellFormed]
  simp only [one]

/-- Gives each unit of a list the flag `state`, one after the other. -/
def setEach (map : UnitMap) (units : List UInt64) (state : Bool) : UnitMap :=
  units.foldl (fun map unit => map.set unit state) map

/-- The units of a run that a map of `size` units has, in ascending order. -/
def unitsOfRun (size start count : UInt64) : List UInt64 :=
  (full size).toList.filter fun unit => InRun start count unit.toNat

theorem mem_unitsOfRun {size start count unit : UInt64} :
    unit ∈ unitsOfRun size start count ↔ unit < size ∧ start ≤ unit ∧ unit - start < count := by
  rw [unitsOfRun, List.mem_filter, mem_toList, get_full, decide_eq_true_eq, decide_eq_true_eq,
    inRun_iff]

theorem get_fill_eq {map : UnitMap} (wellFormed : map.WellFormed) (start count : UInt64)
    (state : Bool) (unit : UInt64) :
    (map.fill start count state).get unit =
      if unit ∈ unitsOfRun map.size start count then state else map.get unit := by
  have members : InRun start count unit.toNat ∧ unit < map.size ↔
      unit ∈ unitsOfRun map.size start count := by
    rw [inRun_iff, mem_unitsOfRun, and_comm]
  rw [get_fill wellFormed]
  simp only [members]

theorem size_setEach (map : UnitMap) (units : List UInt64) (state : Bool) :
    (map.setEach units state).size = map.size := by
  unfold setEach
  induction units generalizing map with
  | nil => rfl
  | cons unit rest inductionHypothesis => rw [List.foldl_cons, inductionHypothesis, size_set]

theorem wellFormed_setEach {map : UnitMap} (wellFormed : map.WellFormed) (units : List UInt64)
    (state : Bool) : (map.setEach units state).WellFormed := by
  unfold setEach
  induction units generalizing map with
  | nil => exact wellFormed
  | cons unit rest inductionHypothesis =>
      exact inductionHypothesis (wellFormed_set wellFormed unit state)

theorem get_setEach {map : UnitMap} (wellFormed : map.WellFormed) (units : List UInt64)
    (state : Bool) (unit : UInt64) :
    (map.setEach units state).get unit =
      if unit ∈ units ∧ unit < map.size then state else map.get unit := by
  unfold setEach
  induction units generalizing map with
  | nil => simp
  | cons first rest inductionHypothesis =>
      rw [List.foldl_cons, inductionHypothesis (wellFormed_set wellFormed first state), size_set,
        get_set wellFormed]
      by_cases same : unit = first
      · subst same
        by_cases inside : unit < map.size <;> simp [inside]
      · simp [same]

/-- Setting the units of a run in any order, also repeatedly, gives the filled map. -/
theorem setEach_eq_fill {map : UnitMap} (wellFormed : map.WellFormed) {start count : UInt64}
    {units : List UInt64} (state : Bool)
    (same : ∀ unit, unit ∈ units ↔ unit ∈ unitsOfRun map.size start count) :
    map.setEach units state = map.fill start count state := by
  apply (eq_iff_get (wellFormed_setEach wellFormed units state)
    (wellFormed_fill wellFormed start count state)).mpr
  refine ⟨size_setEach map units state, ?_⟩
  intro unit
  have members : unit ∈ units ∧ unit < map.size ↔ unit ∈ unitsOfRun map.size start count := by
    rw [same]
    exact and_iff_left_of_imp fun member => (mem_unitsOfRun.mp member).1
  rw [get_setEach wellFormed, get_fill_eq wellFormed]
  simp only [members]

/-- Filling a run of any map that the operations lead to: the loop ends, with no sum, difference or
shift out of range and no word missing, and only with these words. The size stays, the units of the
run that the map has get the flag, no other unit changes, and setting just these units one by one, in
any order and however often, gives the same map. -/
theorem fill_is_unitwise {map : UnitMap} (reachable : map.Reachable) (start count : UInt64)
    (state : Bool) :
    let filled := map.fill start count state
    let stop := Word.least (Word.addSaturating start count) map.size
    let units := unitsOfRun map.size start count
    (∀ words, Fills state stop start map.words words ↔ words = filled.words) ∧
    filled.size = map.size ∧
    (∀ unit, unit ∈ units ↔ unit < map.size ∧ start ≤ unit ∧ unit - start < count) ∧
    (∀ unit, filled.get unit = if unit ∈ units then state else map.get unit) ∧
    ∀ sequence : List UInt64, (∀ unit, unit ∈ sequence ↔ unit ∈ units) →
      map.setEach sequence state = filled := by
  intro filled stop units
  have wellFormed := wellFormed_of_reachable reachable
  have fills : Fills state stop start map.words filled.words :=
    fills_fill wellFormed start count state
  refine ⟨?_, size_fill map start count state, fun unit => mem_unitsOfRun,
    get_fill_eq wellFormed start count state,
    fun sequence same => setEach_eq_fill wellFormed state same⟩
  intro words
  constructor
  · intro others
    exact others.unique fills
  · intro same
    rw [same]
    exact fills

/-- 69 units from unit 61 on: the end of a word, a whole word, and what is left of the map. -/
theorem fill_is_unitwise_sample :
    let map := (blank 130).set 129 true
    map.Reachable ∧
      Fills false 130 61 map.words (map.fill 61 (~~~0) false).words ∧
      (map.fill 61 (~~~0) false).get 129 = false ∧
      map.setEach ((unitsOfRun 130 61 (~~~0)).reverse) false = map.fill 61 (~~~0) false := by
  intro map
  have reachable : map.Reachable := .set 129 true (.blank 130)
  obtain ⟨fills, _, _, flags, unitwise⟩ := fill_is_unitwise reachable 61 (~~~0) false
  refine ⟨reachable, (fills _).mpr rfl, ?_, unitwise _ fun unit => List.mem_reverse⟩
  rw [flags, if_pos]
  rw [mem_unitsOfRun]
  decide

end UnitMap

end InstrumentScope
