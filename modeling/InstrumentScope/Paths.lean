import InstrumentScope.Hook
import InstrumentScope.Path
import InstrumentScope.Signal

/-!
Contract: several paths over one rule set, each under a name.

A name that was never used stands for a fresh path, so that no path has to be
created. An event on one path leaves the others alone; a fork writes the copy
and nothing else.

Owns:
- the table of paths and the events that need no more than rules.

Does not own:
- events that involve the open block or complaints (`Fleet`).
-/

namespace InstrumentScope

structure Paths where
  table : Std.ExtTreeMap String Path

inductive PathEvent where
  | activate (path : String) (mapping : Mapping)
  /-- Make a mapping the current one as well. -/
  | enter (path : String) (mapping : Mapping)
  | leave (path : String)
  /-- Ask whether the code at an address of the current mapping is instrumented. -/
  | inquire (path : String) (pc : Address)
  /-- Make `copy` a copy of `path`. -/
  | fork (path copy : String)
  | restart (path : String)
deriving DecidableEq, Repr

inductive Answer where
  | done
  | rule (id : Option RuleId)
  | decision (instrumented : Bool)
  | signal (signal : Option Signal)
  | hooks (set : HookSet)
deriving DecidableEq, Repr

namespace Paths

def empty : Paths :=
  ⟨∅⟩

def get (paths : Paths) (name : String) : Path :=
  paths.table[name]?.getD .fresh

def set (paths : Paths) (name : String) (path : Path) : Paths :=
  ⟨paths.table.insert name path⟩

/-- What an event leads to: the answer, the paths afterwards, and searches through the rules. -/
structure Outcome where
  answer : Answer
  paths : Paths
  scans : Nat

/-- The outcome of an activation on the path of a name. -/
def activated (paths : Paths) (name : String) (activation : Path.Activation) : Outcome :=
  ⟨.rule activation.rule, paths.set name activation.path, activation.scans⟩

def step (rules : RuleSet) (paths : Paths) : PathEvent → Outcome
  | .activate path mapping => paths.activated path ((paths.get path).activate rules mapping)
  | .enter path mapping => paths.activated path ((paths.get path).enter rules mapping)
  | .leave path => ⟨.done, paths.set path (paths.get path).leave, 0⟩
  | .inquire path pc => ⟨.decision ((paths.get path).isInstrumented rules pc), paths, 0⟩
  | .fork path copy => ⟨.done, paths.set copy (paths.get path), 0⟩
  | .restart path => ⟨.done, paths.set path .fresh, 0⟩

@[simp]
theorem get_empty (name : String) : empty.get name = .fresh := by
  simp [get, empty]

theorem get_set (paths : Paths) (written name : String) (path : Path) :
    (paths.set written path).get name = if written = name then path else paths.get name := by
  simp only [get, set, Std.ExtTreeMap.getElem?_insert, Std.LawfulEqCmp.compare_eq_iff_eq]
  split <;> rfl

@[simp]
theorem get_set_self (paths : Paths) (name : String) (path : Path) :
    (paths.set name path).get name = path := by
  rw [get_set, if_pos rfl]

end Paths

end InstrumentScope
