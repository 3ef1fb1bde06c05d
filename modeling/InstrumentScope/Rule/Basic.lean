import InstrumentScope.ContextPattern
import InstrumentScope.Span.Placement
import InstrumentScope.UnitMap.Painting

/-!
Contract: a rule says which units of one module are instrumented, and in which
contexts.

A `RuleSource` is what a user writes. Compiling it validates its spans and
paints them into a dense map. `RuleSource.Selects` says, without placing or
painting anything, what the map of the compiled rule has to hold.

Owns:
- sources, rules and compilation;
- lookup in a rule and the text of a rule.

Does not own:
- reading a source from settings (`Rule.Loading`);
- the choice among several rules (`RuleSet`).
-/

namespace InstrumentScope

/-- A rule as written: a module, the contexts meant, and spans of offsets into the module. -/
structure RuleSource where
  name : String
  module : String
  context : ContextPattern
  image : Image
  included : List OffsetSpan
  excluded : List OffsetSpan
deriving DecidableEq, Repr

/-- A compiled rule: one flag per unit of the module's image. -/
structure Rule where
  name : String
  module : String
  context : ContextPattern
  image : Image
  units : UnitMap
deriving DecidableEq, Repr

namespace RuleSource

/-- The source asks for `offset`: some span includes it, or none is given at all, and no span
excludes it. -/
def Selects (source : RuleSource) (offset : UInt64) : Prop :=
  (source.included = [] ∨ ∃ span ∈ source.included, span.Contains offset) ∧
    ¬ ∃ span ∈ source.excluded, span.Contains offset

instance (source : RuleSource) (offset : UInt64) : Decidable (source.Selects offset) := by
  unfold Selects
  infer_instance

/-- Compiles a source. Faults of the spans to include come before those of the spans to exclude. -/
def compile (source : RuleSource) : Except Fault Rule := do
  let included ← source.image.place source.included
  let excluded ← source.image.place source.excluded
  return {
    name := source.name
    module := source.module
    context := source.context
    image := source.image
    units := UnitMap.ofSpans source.image included excluded }

end RuleSource

namespace Rule

/-- Two rules are the same rule if they have the same name. -/
def sameAs (rule other : Rule) : Bool :=
  rule.name == other.name

/-- The rules left when of each name only the first is kept. -/
def distinct (rules : List Rule) : List Rule :=
  rules.eraseDupsBy sameAs

def appliesTo (rule : Rule) (module context : String) : Bool :=
  rule.module == module && rule.context.accepts context

/-- The flag of the unit at `offset`, or nothing if the offset lies outside the module. -/
def lookup (rule : Rule) (offset : UInt64) : Option Bool :=
  if rule.image.size ≤ offset then none else some (rule.units.get offset)

def selectedUnits (rule : Rule) : Nat :=
  rule.units.count

/-- Name, target and the share of units selected, in decimal. -/
def text (rule : Rule) : String :=
  s!"{rule.name} -> {rule.module}@{rule.context.text} " ++
    s!"({rule.selectedUnits}/{rule.image.size.toNat} units)"

theorem lookup_eq_none_iff {rule : Rule} {offset : UInt64} :
    rule.lookup offset = none ↔ rule.image.size ≤ offset := by
  simp [lookup]

end Rule

end InstrumentScope
