import InstrumentScope.RuleSet.Basic
import InstrumentScope.UnitMap.Union

/-!
Contract: which code of a module is selected in any context at all.

The footprint of a module is the union of the maps of all its rules. It is what
can be decided before it is known who runs the code.

Owns:
- footprints and the table of all footprints of a rule set.
-/

namespace InstrumentScope

/-- The units of a module that some rule selects. -/
structure Footprint where
  size : UInt64
  units : UnitMap
deriving DecidableEq, Repr

namespace Footprint

/-- The greatest of some words, zero if there is none. -/
def greatest (words : List UInt64) : UInt64 :=
  words.foldl (fun best word => if best < word then word else best) 0

/-- The footprint of the rules of one module, as large as the largest of them. A module without
rules has none. -/
def ofRules? : List Rule → Option Footprint
  | [] => none
  | rule :: rest =>
      let rules := rule :: rest
      some {
        size := greatest (rules.map (·.image.size))
        units := rules.foldl (fun units rule => units.union rule.units)
          (.blank (greatest (rules.map (·.units.size)))) }

/-- Some rule selects the unit at `offset`. -/
def get (footprint : Footprint) (offset : UInt64) : Bool :=
  footprint.units.get offset

end Footprint

/-- The footprints of all modules that rules are for. -/
structure Coverage where
  footprints : Std.ExtTreeMap String Footprint

namespace Coverage

def ofRuleSet (set : RuleSet) : Coverage :=
  ⟨set.byModule.filterMap fun _ ids => Footprint.ofRules? (ids.filterMap set.get?)⟩

/-- The footprint of a module. Without one, none of its code is ever instrumented. -/
def footprint? (coverage : Coverage) (module : String) : Option Footprint :=
  coverage.footprints[module]?

/-- Some rule selects some unit of the module. -/
def isSelected (coverage : Coverage) (module : String) : Bool :=
  (coverage.footprint? module).any (·.units.any)

/-- Some rule for the mapped module selects the code at `pc`. -/
def selects (coverage : Coverage) (mapping : Mapping) (pc : Address) : Bool :=
  (coverage.footprint? mapping.module).any fun footprint =>
    (mapping.offset? pc).any footprint.get

def size (coverage : Coverage) : Nat :=
  coverage.footprints.size

def isEmpty (coverage : Coverage) : Bool :=
  coverage.footprints.isEmpty

end Coverage

end InstrumentScope
