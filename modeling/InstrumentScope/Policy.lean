import InstrumentScope.Coverage
import InstrumentScope.Options
import InstrumentScope.RuleSet.Enrollment
import InstrumentScope.Workers

/-!
Contract: the rules, their coverage and the options, settled once and only read
afterwards.

Owns:
- the policy of a given rule set;
- the policy that a store of settings describes.
-/

namespace InstrumentScope

/-- Everything that decisions are taken from. -/
structure Policy where
  rules : RuleSet
  coverage : Coverage
  options : Options

namespace Policy

def ofRules (rules : RuleSet) (options : Options) : Policy :=
  ⟨rules, .ofRuleSet rules, options⟩

/-- A policy as it was loaded, and what there is to say about it. -/
structure Loading where
  policy : Policy
  notices : List Notice

/-- Loads every entry on its own, by the workers or one after the other. -/
def loadEach (workers : Workers) (store : Store) (catalog : Catalog) (options : Options)
    (entries : List String) : List (String × Except Fault Rule) :=
  let loadEntry := fun entry => (entry, Rule.load store catalog entry)
  if options.parallelCompile then workers.collect loadEntry entries else entries.map loadEntry

/-- Loads the entries listed under the root of the options. Entries that fail are skipped. Without
a list nothing is ever instrumented. -/
def load (workers : Workers) (store : Store) (catalog : Catalog) (options : Options) : Loading :=
  let listKey := Store.key options.root .selections
  let listed := store.names? listKey
  let compiled := loadEach workers store catalog options (listed.getD [])
  let enrolled := RuleSet.empty.enrollAll compiled
  let policy := ofRules enrolled.rules options
  let opening := if listed.isNone then [.noEntries listKey] else []
  let closing := .ready enrolled.rules.size compiled.length policy.coverage.size
  ⟨policy, opening ++ enrolled.notices ++ [closing]⟩

end Policy

end InstrumentScope
