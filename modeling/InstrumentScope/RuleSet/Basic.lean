import InstrumentScope.Mapping
import InstrumentScope.Rule.Basic
import Std.Data.ExtTreeMap

/-!
Contract: the rules in the order they were registered, with two tables over
them.

A name stands for at most one rule. Of the rules that apply to a mapping, the
first that names the mapping's context governs it, and failing that the first
that applies in every context. Resolution consults the table of the mapping's
module only; a set never forgets or renumbers a rule.

A set is a value, so whatever may change it hands over the set afterwards,
also when it fails.

Owns:
- rule numbers, registration, lookup by number, name and module;
- the choice of the rule that governs a mapping, and the count of searches.

Does not own:
- the loading of entries into a set (`RuleSet.Enrollment`).
-/

namespace InstrumentScope

/-- The number of a rule within the set that registered it. -/
structure RuleId where
  index : Nat
deriving DecidableEq, Repr

def RuleId.text (id : RuleId) : String :=
  "#" ++ toString id.index

/-- Registered rules, and tables that find them by name and by module. Nothing depends on the order
of the tables but the order in which modules are shown. -/
structure RuleSet where
  rules : Array Rule
  byName : Std.ExtTreeMap String RuleId
  byModule : Std.ExtTreeMap String (List RuleId)

namespace RuleSet

def empty : RuleSet :=
  ⟨#[], ∅, ∅⟩

def size (set : RuleSet) : Nat :=
  set.rules.size

def isEmpty (set : RuleSet) : Bool :=
  set.rules.isEmpty

def get? (set : RuleSet) (id : RuleId) : Option Rule :=
  set.rules[id.index]?

def find? (set : RuleSet) (name : String) : Option RuleId :=
  set.byName[name]?

/-- The numbers of the rules for a module, in the order of registration. -/
def forModule (set : RuleSet) (module : String) : List RuleId :=
  set.byModule[module]?.getD []

/-- The modules that some rule is for, in ascending order. -/
def modules (set : RuleSet) : List String :=
  set.byModule.keys

/-- Appends a rule and enters it into both tables. -/
def append (set : RuleSet) (rule : Rule) : RuleSet :=
  let id : RuleId := ⟨set.rules.size⟩
  { rules := set.rules.push rule
    byName := set.byName.insert rule.name id
    byModule := set.byModule.insert rule.module (set.forModule rule.module ++ [id]) }

/-- The outcome of a registration: the number of the rule or why there is none, and the set
afterwards. -/
structure Registration where
  answer : Except Fault RuleId
  rules : RuleSet

/-- Registers a rule under the next number, unless its name is taken. -/
def register (set : RuleSet) (rule : Rule) : Registration :=
  if set.byName.contains rule.name then ⟨.error (.duplicateRule rule.name), set⟩
  else ⟨.ok ⟨set.rules.size⟩, set.append rule⟩

/-- Registers what came of compiling or loading a rule, if that is a rule. -/
def settle (set : RuleSet) : Except Fault Rule → Registration
  | .error fault => ⟨.error fault, set⟩
  | .ok rule => set.register rule

def appliesTo (set : RuleSet) (mapping : Mapping) (id : RuleId) : Bool :=
  (set.get? id).any fun rule => rule.appliesTo mapping.module mapping.context

def namesContext (set : RuleSet) (id : RuleId) : Bool :=
  (set.get? id).any fun rule => !rule.context.isAny

/-- The number of the rule that governs a mapping. -/
def resolve (set : RuleSet) (mapping : Mapping) : Option RuleId :=
  let applying := (set.forModule mapping.module).filter (set.appliesTo mapping)
  (applying.find? set.namesContext).or applying.head?

/-- What a search through the rules finds, and what it counts as. -/
structure Search where
  rule : Option RuleId
  scans : Nat

/-- Searches the rules for the one that governs a mapping, which counts as one search whatever is
found. -/
def search (set : RuleSet) (mapping : Mapping) : Search :=
  ⟨set.resolve mapping, 1⟩

theorem get?_append (set : RuleSet) (rule : Rule) (id : RuleId) :
    (set.append rule).get? id = if id.index = set.size then some rule else set.get? id := by
  unfold get? append size
  rw [Array.getElem?_push]

theorem find?_append (set : RuleSet) (rule : Rule) (name : String) :
    (set.append rule).find? name = if rule.name = name then some ⟨set.size⟩ else set.find? name := by
  simp [find?, append, size, Std.ExtTreeMap.getElem?_insert]

theorem forModule_append (set : RuleSet) (rule : Rule) (module : String) :
    (set.append rule).forModule module =
      if rule.module = module then set.forModule module ++ [⟨set.size⟩]
      else set.forModule module := by
  by_cases sameModule : rule.module = module
  · subst sameModule
    simp [forModule, append, size]
  · simp [forModule, append, Std.ExtTreeMap.getElem?_insert, sameModule]

theorem register_of_taken {set : RuleSet} {rule : Rule} (taken : (set.find? rule.name).isSome) :
    set.register rule = ⟨.error (.duplicateRule rule.name), set⟩ := by
  have taken : set.byName.contains rule.name = true := by
    simpa [find?, Std.ExtTreeMap.isSome_getElem?_eq_contains] using taken
  simp [register, taken]

theorem register_of_free {set : RuleSet} {rule : Rule} (free : set.find? rule.name = none) :
    set.register rule = ⟨.ok ⟨set.size⟩, set.append rule⟩ := by
  have free : set.byName.contains rule.name = false := by
    rw [Std.ExtTreeMap.contains_eq_isSome_getElem?]
    exact congrArg Option.isSome free
  simp [register, free, size]

end RuleSet

end InstrumentScope
