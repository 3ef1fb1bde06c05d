import InstrumentScope.Monitor
import InstrumentScope.Paths

/-!
Contract: one monitor that serves several paths, driven by a sequence of events.

Owns:
- the events of an engine that runs several paths;
- single steps and runs.
-/

namespace InstrumentScope

inductive Event where
  /-- An event that concerns paths alone. -/
  | onPaths (event : PathEvent)
  /-- A path moves from one mapping to another; none is outside every module. -/
  | transition (path : String) (origin destination : Option Mapping)
  | needed (path : String) (mapping : Mapping) (pc : Address)
  | execute (path : String) (pc : Address)
  | blockStart (path : String) (mapping : Option Mapping) (block : BlockId) (pc : Address)
  | instructionStart (path : String) (block : BlockId) (pc : Address)
  | blockEnd (block : BlockId) (pc : Address)
deriving DecidableEq, Repr

/-- A monitor and the paths it serves. -/
structure Fleet where
  monitor : Monitor
  paths : Paths

namespace Fleet

def fresh : Fleet :=
  ⟨.fresh, .empty⟩

structure Outcome where
  answer : Answer
  fleet : Fleet
  effects : Effects

/-- Puts the outcome of an event on one path back into the fleet. -/
def Outcome.ofPath {α : Type} (fleet : Fleet) (path : String) (wrap : α → Answer)
    (outcome : Monitor.Outcome α) : Outcome where
  answer := wrap outcome.answer
  fleet := ⟨outcome.monitor, fleet.paths.set path outcome.path⟩
  effects := outcome.effects

def step (policy : Policy) (fleet : Fleet) : Event → Outcome
  | .onPaths event =>
      let outcome := fleet.paths.step policy.rules event
      ⟨outcome.answer, { fleet with paths := outcome.paths }, ⟨outcome.scans, [], []⟩⟩
  | .transition path origin destination =>
      .ofPath fleet path .rule
        (fleet.monitor.transition policy (fleet.paths.get path) origin destination)
  | .needed path mapping pc =>
      .ofPath fleet path .decision
        (fleet.monitor.needed policy (fleet.paths.get path) mapping pc)
  | .execute path pc =>
      ⟨.signal (some (Monitor.execute policy (fleet.paths.get path) pc)), fleet, .none⟩
  | .blockStart path mapping block pc =>
      .ofPath fleet path .hooks
        (fleet.monitor.blockStart policy (fleet.paths.get path) mapping block pc)
  | .instructionStart path block pc =>
      .ofPath fleet path .signal
        (fleet.monitor.instructionStart policy (fleet.paths.get path) block pc)
  | .blockEnd block pc =>
      let closing := fleet.monitor.blockEnd policy block pc
      ⟨.signal closing.answer, { fleet with monitor := closing.monitor }, ⟨0, [], closing.marks⟩⟩

/-- What a sequence of events leads to: one answer for each, and all effects in order. -/
structure Run where
  answers : List Answer
  fleet : Fleet
  effects : Effects

def run (policy : Policy) (fleet : Fleet) : List Event → Run
  | [] => ⟨[], fleet, .none⟩
  | event :: rest =>
      let outcome := fleet.step policy event
      let later := outcome.fleet.run policy rest
      ⟨outcome.answer :: later.answers, later.fleet, outcome.effects ++ later.effects⟩

theorem run_append (policy : Policy) (fleet : Fleet) (events later : List Event) :
    fleet.run policy (events ++ later) =
      let first := fleet.run policy events
      let second := first.fleet.run policy later
      ⟨first.answers ++ second.answers, second.fleet, first.effects ++ second.effects⟩ := by
  induction events generalizing fleet with
  | nil => simp [run]
  | cons event rest inductionHypothesis =>
      simp only [List.cons_append, run, inductionHypothesis, Effects.append_assoc]

end Fleet

end InstrumentScope
