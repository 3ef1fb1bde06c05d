import InstrumentScope.Proofs.PathKnowledge

/-!
Contract: an event concerns one path, and knows of one path only.

The paths of a fleet share a monitor, and a fork copies one of them. Still an
event changes at most one path, its subject, and unless it translates a block,
its answer and what it does to its subject depend on a single path, its source.
The monitor has no part in either.

Owns:
- the subject and the source of an event;
- what an event leaves alone, and what its outcome depends on.

Does not own:
- the open block and the complaints of the monitor (`OpenBlock`, `Complaints`).
-/

namespace InstrumentScope

/-- The path that the event changes or asks about. For a fork this is the copy. -/
def PathEvent.subject : PathEvent → String
  | activate path _ => path
  | enter path _ => path
  | leave path => path
  | inquire path _ => path
  | fork _ copy => copy
  | restart path => path

/-- The path whose state the subject goes on from; none if it begins anew. -/
def PathEvent.source? : PathEvent → Option String
  | fork path _ => some path
  | restart _ => none
  | event => some event.subject

namespace Event

/-- The path that the event changes or asks about. The end of a block concerns none. -/
def subject? : Event → Option String
  | onPaths event => some event.subject
  | transition path .. => some path
  | needed path .. => some path
  | execute path _ => some path
  | blockStart path .. => some path
  | instructionStart path .. => some path
  | blockEnd .. => none

/-- The path whose state the subject goes on from. -/
def source? : Event → Option String
  | onPaths event => event.source?
  | event => event.subject?

/-- The event belongs to the translation of a block. -/
def isTranslation : Event → Bool
  | blockStart .. | instructionStart .. | blockEnd .. => true
  | _ => false

end Event

namespace Fleet

variable {policy : Policy} {fleet left right : Fleet}

/-- An event leaves every path but its subject alone. -/
theorem get_step_of_ne {event : Event} {name : String} (other : event.subject? ≠ some name) :
    (fleet.step policy event).fleet.paths.get name = fleet.paths.get name := by
  have untouched : ∀ {subject : String} (path : Path), some subject ≠ some name →
      (fleet.paths.set subject path).get name = fleet.paths.get name := by
    intro subject path different
    rw [Paths.get_set, if_neg (fun same => different (congrArg some same))]
  cases event with
  | onPaths event =>
      cases event with
      | inquire path pc => rfl
      | activate | enter | leave | fork | restart => exact untouched _ other
  | execute | blockEnd => rfl
  | transition | needed | blockStart | instructionStart => exact untouched _ other

/-- Outside the translation of blocks the outcome of an event depends on its source alone. -/
theorem step_congr {event : Event} (plain : event.isTranslation = false)
    (same : ∀ name, event.source? = some name → left.paths.get name = right.paths.get name) :
    (left.step policy event).answer = (right.step policy event).answer ∧
      (left.step policy event).effects.scans = (right.step policy event).effects.scans ∧
      ∀ name, event.subject? = some name →
        (left.step policy event).fleet.paths.get name =
          (right.step policy event).fleet.paths.get name := by
  have written : ∀ (subject : String) (path : Path), ∀ name, some subject = some name →
      (left.paths.set subject path).get name = (right.paths.set subject path).get name := by
    intro subject path name isSubject
    obtain rfl := Option.some.inj isSubject
    rw [Paths.get_set, Paths.get_set, if_pos rfl, if_pos rfl]
  cases event with
  | onPaths event =>
      cases event with
      | activate path | enter path | leave path | fork path =>
          unfold step Paths.step
          dsimp only
          rw [same path rfl]
          exact ⟨rfl, rfl, written _ _⟩
      | inquire path pc =>
          unfold step Paths.step
          dsimp only
          rw [same path rfl]
          exact ⟨rfl, rfl, same⟩
      | restart path => exact ⟨rfl, rfl, written path _⟩
  | transition path origin destination =>
      unfold step Outcome.ofPath
      dsimp only
      rw [same path rfl, Monitor.answer_transition, Monitor.answer_transition,
        Monitor.scans_transition, Monitor.scans_transition, Monitor.path_transition,
        Monitor.path_transition]
      exact ⟨rfl, rfl, written path _⟩
  | needed path mapping pc =>
      unfold step Outcome.ofPath
      dsimp only
      rw [same path rfl, Monitor.answer_needed_eq, Monitor.answer_needed_eq,
        Monitor.scans_needed, Monitor.scans_needed, Monitor.path_needed, Monitor.path_needed]
      exact ⟨rfl, rfl, written path _⟩
  | execute path pc =>
      unfold step
      dsimp only
      rw [same path rfl]
      exact ⟨rfl, rfl, same⟩
  | blockStart | instructionStart | blockEnd => contradiction

/-- An event outside the translation of blocks keeps alike what is alike, if its source is. -/
theorem get_step_congr {event : Event} (plain : event.isTranslation = false)
    (sameSource : ∀ name, event.source? = some name →
      left.paths.get name = right.paths.get name)
    {name : String} (same : left.paths.get name = right.paths.get name) :
    (left.step policy event).fleet.paths.get name =
      (right.step policy event).fleet.paths.get name := by
  by_cases isSubject : event.subject? = some name
  · exact (step_congr plain sameSource).2.2 name isSubject
  · rw [get_step_of_ne isSubject, get_step_of_ne isSubject]
    exact same

end Fleet

end InstrumentScope
