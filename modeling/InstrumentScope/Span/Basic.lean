import InstrumentScope.Word

/-!
Contract: half-open spans, relative to a module image or absolute.

An `OffsetSpan` is what a user writes: offsets from the start of a module. An
`AddressSpan` is what the same span becomes once it is placed in an image:
addresses. The two are kept apart so that no offset is taken for an address.

Owns:
- membership, emptiness, length, order and text of spans.

Does not own:
- the placement of spans in an image (`Span.Placement`).
-/

namespace InstrumentScope

/-- The offsets from `start` up to but not including `stop`. -/
structure OffsetSpan where
  start : UInt64
  stop : UInt64
deriving DecidableEq, Repr

namespace OffsetSpan

def Contains (span : OffsetSpan) (offset : UInt64) : Prop :=
  span.start ≤ offset ∧ offset < span.stop

instance (span : OffsetSpan) (offset : UInt64) : Decidable (span.Contains offset) := by
  unfold Contains
  infer_instance

end OffsetSpan

/-- The addresses from `start` up to but not including `stop`. -/
structure AddressSpan where
  start : Address
  stop : Address
deriving DecidableEq, Repr

namespace AddressSpan

def Contains (span : AddressSpan) (address : Address) : Prop :=
  span.start ≤ address ∧ address < span.stop

instance (span : AddressSpan) (address : Address) : Decidable (span.Contains address) := by
  unfold Contains
  infer_instance

/-- The span covers no address: its start is not below its stop. -/
def isEmpty (span : AddressSpan) : Bool :=
  span.stop ≤ span.start

/-- The number of addresses covered by a span that starts no later than it stops. -/
def length (span : AddressSpan) : UInt64 :=
  span.stop - span.start

/-- The length of a span, or nothing for a span that stops before it starts. -/
def length? (span : AddressSpan) : Option UInt64 :=
  Word.sub? span.stop span.start

/-- Spans are ordered by start, spans with one start by stop. -/
instance : Ord AddressSpan where
  compare := compareLex (compareOn AddressSpan.start) (compareOn AddressSpan.stop)

/-- Both ends in hexadecimal, the closed end square and the open end round. -/
def text (span : AddressSpan) : String :=
  "[" ++ Word.hex span.start ++ ", " ++ Word.hex span.stop ++ ")"

theorem length?_eq_some_iff {span : AddressSpan} {length : UInt64} :
    span.length? = some length ↔ span.start.toNat + length.toNat = span.stop.toNat :=
  Word.sub?_eq_some_iff

end AddressSpan

end InstrumentScope
