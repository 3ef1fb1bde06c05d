import InstrumentScope.RuleSet.Basic

/-!
Contract: what one path of execution knows about the code it runs in.

A path resolves every mapping at most once. The outcome is kept even when no
rule applies, survives leaving the mapping, and is copied when the path forks.
The mapping activated last is kept apart, so that asking about it again touches
nothing.

Owns:
- the state of a path, activation, entering and leaving;
- the decision for the code a path is in.

Does not own:
- translation of blocks (`Monitor`).
-/

namespace InstrumentScope

/-- The state of one path. A path is a value: a fork is a copy. -/
structure Path where
  /-- The mapping being executed; none outside every module. -/
  current : Option Mapping
  /-- Every mapping resolved on this path, with the number of its rule if one applies. The map
  stands for a persistent one whose copies share structure. Only what it holds is ever seen: it is
  looked up, inserted into, and its keys are counted. -/
  resolved : Std.ExtTreeMap Mapping (Option RuleId)
  /-- The mapping activated last, with the number of its rule. -/
  active : Option (Mapping × Option RuleId)

namespace Path

def fresh : Path :=
  ⟨none, ∅, none⟩

/-- The outcome of activating a mapping: its rule, the path afterwards, and the number of searches
through the rules that it took. -/
structure Activation where
  rule : Option RuleId
  path : Path
  scans : Nat

/-- Finds the rule of a mapping, from memory if the mapping is known, and makes it the active
mapping. -/
def activate (rules : RuleSet) (path : Path) (mapping : Mapping) : Activation :=
  match path.active.filter (·.1 == mapping) with
  | some (_, rule) => ⟨rule, path, 0⟩
  | none =>
      match path.resolved[mapping]? with
      | some rule => ⟨rule, { path with active := some (mapping, rule) }, 0⟩
      | none =>
          let found := rules.search mapping
          { rule := found.rule
            path := { path with
              resolved := path.resolved.insert mapping found.rule
              active := some (mapping, found.rule) }
            scans := found.scans }

/-- Activates a mapping and makes it the current one. -/
def enter (rules : RuleSet) (path : Path) (mapping : Mapping) : Activation :=
  let activation := path.activate rules mapping
  { activation with path := { activation.path with current := some mapping } }

/-- Leaves the current mapping for code outside every module. -/
def leave (path : Path) : Path :=
  { path with current := none }

/-- What the path knows about a mapping: nothing, that no rule applies, or the rule's number. -/
def cached (path : Path) (mapping : Mapping) : Option (Option RuleId) :=
  path.resolved[mapping]?

/-- The number of the rule of a mapping, as far as the path knows. -/
def ruleOf (path : Path) (mapping : Mapping) : Option RuleId :=
  match path.active.filter (·.1 == mapping) with
  | some (_, rule) => rule
  | none => (path.cached mapping).join

/-- The code at `pc` of the current mapping is instrumented. It is not, if the path is outside every
module, no rule applies to the current mapping, or the address lies outside the rule's image. -/
def isInstrumented (rules : RuleSet) (path : Path) (pc : Address) : Bool :=
  match path.current with
  | none => false
  | some mapping =>
      match (path.ruleOf mapping).bind rules.get? with
      | none => false
      | some rule => ((mapping.offset? pc).bind rule.lookup).getD false

def activeMapping (path : Path) : Option Mapping :=
  path.active.map Prod.fst

def activeRule (path : Path) : Option RuleId :=
  (path.active.map Prod.snd).join

def knownMappings (path : Path) : Nat :=
  path.resolved.size

@[simp]
theorem current_activate (rules : RuleSet) (path : Path) (mapping : Mapping) :
    (path.activate rules mapping).path.current = path.current := by
  unfold activate
  split
  · rfl
  · split <;> rfl

end Path

end InstrumentScope
