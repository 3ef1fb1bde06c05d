/-!
Contract: arithmetic on 64-bit words that says when it leaves the word.

Addresses, sizes and offsets are all 64-bit words. Plain `+` and `-` wrap, so
everything that must notice the end of the address space goes through the
checked operations here. Each of them is characterised by one equation between
natural numbers, in which nothing wraps.

Owns:
- checked addition and subtraction, saturating addition;
- the hexadecimal text of a word.
-/

namespace InstrumentScope

/-- A position in the address space of a process. -/
abbrev Address := UInt64

namespace Word

/-- The sum of two words, if it is a word. -/
def add? (left right : UInt64) : Option UInt64 :=
  if left.toNat + right.toNat < UInt64.size then some (left + right) else none

/-- The distance from `base` up to `word`, unless `word` lies below `base`. -/
def sub? (word base : UInt64) : Option UInt64 :=
  if base ≤ word then some (word - base) else none

/-- The sum of two words, or the greatest word where the sum is larger. -/
def addSaturating (left right : UInt64) : UInt64 :=
  if left.toNat + right.toNat < UInt64.size then left + right else (UInt64.size - 1).toUInt64

def least (left right : UInt64) : UInt64 :=
  if left ≤ right then left else right

/-- Lower-case hexadecimal with the base mark; zero is `0x0`. -/
def hex (word : UInt64) : String :=
  "0x" ++ String.ofList (Nat.toDigits 16 word.toNat)

theorem add?_eq_some_iff {left right sum : UInt64} :
    add? left right = some sum ↔ left.toNat + right.toNat = sum.toNat := by
  have sumBound := sum.toNat_lt
  unfold add?
  split
  case isTrue fits =>
    have exact : (left + right).toNat = left.toNat + right.toNat := by
      rw [UInt64.toNat_add]
      exact Nat.mod_eq_of_lt fits
    rw [Option.some.injEq, ← UInt64.toNat_inj, exact]
  case isFalse overflows =>
    simp only [UInt64.size] at overflows
    simp only [reduceCtorEq, false_iff]
    omega

theorem add?_eq_none_iff {left right : UInt64} :
    add? left right = none ↔ UInt64.size ≤ left.toNat + right.toNat := by
  unfold add?
  split <;> simp_all

theorem sub?_eq_some_iff {word base offset : UInt64} :
    sub? word base = some offset ↔ base.toNat + offset.toNat = word.toNat := by
  have wordBound := word.toNat_lt
  unfold sub?
  split
  case isTrue above =>
    have exact := UInt64.toNat_sub_of_le word base above
    have above := UInt64.le_iff_toNat_le.mp above
    rw [Option.some.injEq, ← UInt64.toNat_inj, exact]
    omega
  case isFalse below =>
    have below : ¬ base.toNat ≤ word.toNat := fun above => below (UInt64.le_iff_toNat_le.mpr above)
    simp only [reduceCtorEq, false_iff]
    omega

theorem sub?_eq_none_iff {word base : UInt64} :
    sub? word base = none ↔ word.toNat < base.toNat := by
  unfold sub?
  split <;> simp_all [UInt64.le_iff_toNat_le]

theorem toNat_addSaturating (left right : UInt64) :
    (addSaturating left right).toNat =
      if left.toNat + right.toNat < UInt64.size then left.toNat + right.toNat
      else UInt64.size - 1 := by
  unfold addSaturating
  split
  case isTrue fits =>
    rw [UInt64.toNat_add]
    exact Nat.mod_eq_of_lt fits
  case isFalse => rfl

theorem toNat_least (left right : UInt64) :
    (least left right).toNat = if left.toNat ≤ right.toNat then left.toNat else right.toNat := by
  unfold least
  simp only [UInt64.le_iff_toNat_le]
  split <;> rfl

end Word

end InstrumentScope
