import InstrumentScope.Proofs.Locality

/-!
Contract: events, whichever monitor they reach and under whatever rules.

Several monitors may serve the same paths, and from one event to the next the
rules may be others. For the paths an event is never more than one of the events
on paths alone: it activates, enters, leaves, copies or begins anew, or it does
nothing to them. The rules are searched as often as that event searches them.

Owns:
- deliveries, and the paths and searches after a sequence of them;
- the event on paths that a delivery amounts to;
- the deliveries of a run of one monitor.

Does not own:
- the answers of paths whose rules stay the same (`PathKnowledge`, `Journeys`).
-/

namespace InstrumentScope

/-- The event makes its path enter a mapping, or leave the one it is in. -/
def PathEvent.moves : PathEvent → Bool
  | enter .. | leave _ => true
  | _ => false

/-- The event makes its path enter a mapping, or leave the one it is in. -/
def Event.moves : Event → Bool
  | onPaths event => event.moves
  | transition .. => true
  | _ => false

/-- An event, the monitor that it reaches, and the policy that the monitor follows. -/
structure Delivery where
  policy : Policy
  monitor : Monitor
  event : Event

namespace Delivery

def outcome (delivery : Delivery) (paths : Paths) : Fleet.Outcome :=
  Fleet.step delivery.policy ⟨delivery.monitor, paths⟩ delivery.event

/-- The event on paths that the delivery amounts to, if it does anything to a path. -/
def pathEvent? (delivery : Delivery) : Option PathEvent :=
  match delivery.event with
  | .onPaths event => some event
  | .transition path _ destination => some (destination.elim (.leave path) (.enter path))
  | .needed path mapping _ => some (.activate path mapping)
  | .execute .. => none
  -- A block of a module that no rule selects is not tracked.
  | .blockStart path mapping _ _ =>
      (mapping.filter fun mapping => delivery.policy.coverage.isSelected mapping.module).map
        (.activate path)
  -- An instruction of a block that is not open is ignored.
  | .instructionStart path block _ =>
      (delivery.monitor.openBlock.filter (·.block == block)).map fun opened =>
        .activate path opened.mapping
  | .blockEnd .. => none

end Delivery

namespace Paths

/-- The paths after the deliveries, made one after the other. -/
def after (paths : Paths) (deliveries : List Delivery) : Paths :=
  deliveries.foldl (fun paths delivery => (delivery.outcome paths).fleet.paths) paths

/-- The searches through the rules that the deliveries take. -/
def scans (paths : Paths) : List Delivery → Nat
  | [] => 0
  | delivery :: rest =>
      let outcome := delivery.outcome paths
      outcome.effects.scans + outcome.fleet.paths.scans rest

theorem after_cons (paths : Paths) (delivery : Delivery) (rest : List Delivery) :
    paths.after (delivery :: rest) = (delivery.outcome paths).fleet.paths.after rest := rfl

theorem after_concat (paths : Paths) (deliveries : List Delivery) (delivery : Delivery) :
    paths.after (deliveries ++ [delivery]) =
      (delivery.outcome (paths.after deliveries)).fleet.paths :=
  List.foldl_append

theorem scans_concat (paths : Paths) (deliveries : List Delivery) (delivery : Delivery) :
    paths.scans (deliveries ++ [delivery]) =
      paths.scans deliveries + (delivery.outcome (paths.after deliveries)).effects.scans := by
  induction deliveries generalizing paths with
  | nil => exact Nat.add_comm _ 0
  | cons first rest inductionHypothesis =>
      rw [List.cons_append, scans, inductionHypothesis, ← Nat.add_assoc]
      rfl

end Paths

namespace Monitor

variable {policy : Policy} {monitor : Monitor} {path : Path}

theorem scans_instructionStart_of_opened {block : BlockId} {opened : OpenBlock}
    (isOpened : monitor.openBlock.filter (·.block == block) = some opened) (pc : Address) :
    (monitor.instructionStart policy path block pc).effects.scans =
      (path.activate policy.rules opened.mapping).scans := by
  have asked : (monitor.needed policy path opened.mapping pc).effects.scans =
      (path.activate policy.rules opened.mapping).scans := scans_needed opened.mapping pc
  unfold instructionStart
  rw [isOpened, ← asked]
  dsimp only
  split <;> rfl

end Monitor

namespace Delivery

variable {delivery : Delivery} (paths : Paths)

/-- A delivery that amounts to an event on paths leaves the paths as that event does, and searches
as often. -/
theorem outcome_of_pathEvent {event : PathEvent} (amounts : delivery.pathEvent? = some event) :
    (delivery.outcome paths).fleet.paths =
        (paths.step delivery.policy.rules event).paths ∧
      (delivery.outcome paths).effects.scans =
        (paths.step delivery.policy.rules event).scans := by
  obtain ⟨policy, monitor, delivered⟩ := delivery
  unfold outcome Fleet.step
  cases delivered with
  | onPaths given =>
      obtain rfl := Option.some.inj amounts
      exact ⟨rfl, rfl⟩
  | transition path origin destination =>
      obtain rfl := Option.some.inj amounts
      have moved : (monitor.transition policy (paths.get path) origin destination).path = _ :=
        Monitor.path_transition origin destination
      have searched :
          (monitor.transition policy (paths.get path) origin destination).effects.scans = _ :=
        Monitor.scans_transition origin destination
      refine ⟨congrArg (paths.set path) moved |>.trans ?_, searched.trans ?_⟩
      · cases destination <;> rfl
      · cases destination <;> rfl
  | needed path mapping pc =>
      obtain rfl := Option.some.inj amounts
      exact ⟨congrArg (paths.set path) (Monitor.path_needed mapping pc),
        Monitor.scans_needed mapping pc⟩
  | execute path pc => contradiction
  | blockStart path mapping block pc =>
      obtain ⟨selected, isSelected, rfl⟩ := Option.map_eq_some_iff.mp amounts
      unfold Monitor.blockStart
      dsimp only
      rw [isSelected]
      exact ⟨rfl, rfl⟩
  | instructionStart path block pc =>
      obtain ⟨opened, isOpened, rfl⟩ := Option.map_eq_some_iff.mp amounts
      exact ⟨congrArg (paths.set path) (Monitor.path_instructionStart_of_opened isOpened pc),
        Monitor.scans_instructionStart_of_opened isOpened pc⟩
  | blockEnd block pc => contradiction

/-- A delivery that amounts to nothing leaves all paths as they are, and searches nothing. -/
theorem outcome_of_no_pathEvent (idle : delivery.pathEvent? = none) :
    (∀ name, (delivery.outcome paths).fleet.paths.get name = paths.get name) ∧
      (delivery.outcome paths).effects.scans = 0 := by
  obtain ⟨policy, monitor, delivered⟩ := delivery
  -- A path that is written back as it was is the same path, though the table may be another.
  have writtenBack : ∀ path name, (paths.set path (paths.get path)).get name = paths.get name := by
    intro path name
    rw [Paths.get_set]
    split
    case isTrue same => rw [same]
    case isFalse => rfl
  unfold outcome Fleet.step
  cases delivered with
  | onPaths given => contradiction
  | transition path origin destination => contradiction
  | needed path mapping pc => contradiction
  | execute path pc => exact ⟨fun _ => rfl, rfl⟩
  | blockStart path mapping block pc =>
      have unselected := Option.map_eq_none_iff.mp idle
      unfold Monitor.blockStart
      dsimp only
      rw [unselected]
      exact ⟨writtenBack path, rfl⟩
  | instructionStart path block pc =>
      have unopened := Option.map_eq_none_iff.mp idle
      dsimp only
      rw [Monitor.instructionStart_of_unopened unopened]
      exact ⟨writtenBack path, rfl⟩
  | blockEnd block pc => exact ⟨fun _ => rfl, rfl⟩

/-- The delivery concerns the paths that the event on paths concerns, and moves a path if that
event does. -/
theorem concerns_of_pathEvent {event : PathEvent} (amounts : delivery.pathEvent? = some event) :
    delivery.event.subject? = some event.subject ∧ delivery.event.source? = event.source? ∧
      delivery.event.moves = event.moves := by
  obtain ⟨policy, monitor, delivered⟩ := delivery
  cases delivered with
  | onPaths given =>
      obtain rfl := Option.some.inj amounts
      exact ⟨rfl, rfl, rfl⟩
  | transition path origin destination =>
      obtain rfl := Option.some.inj amounts
      cases destination <;> exact ⟨rfl, rfl, rfl⟩
  | needed path mapping pc =>
      obtain rfl := Option.some.inj amounts
      exact ⟨rfl, rfl, rfl⟩
  | blockStart path mapping block pc =>
      obtain ⟨_, _, rfl⟩ := Option.map_eq_some_iff.mp amounts
      exact ⟨rfl, rfl, rfl⟩
  | instructionStart path block pc =>
      obtain ⟨_, _, rfl⟩ := Option.map_eq_some_iff.mp amounts
      exact ⟨rfl, rfl, rfl⟩
  | execute path pc => contradiction
  | blockEnd block pc => contradiction

/-- A delivery that amounts to nothing begins no path. -/
theorem source_of_no_pathEvent (idle : delivery.pathEvent? = none) :
    delivery.event.source? = delivery.event.subject? := by
  obtain ⟨policy, monitor, delivered⟩ := delivery
  cases delivered with
  | onPaths given => contradiction
  | _ => rfl

end Delivery

namespace Fleet

/-- The events of a run, each with the monitor as the events before it left it. -/
def deliveries (policy : Policy) (fleet : Fleet) : List Event → List Delivery
  | [] => []
  | event :: rest =>
      ⟨policy, fleet.monitor, event⟩ :: (fleet.step policy event).fleet.deliveries policy rest

/-- A run of one monitor is the deliveries of its events. -/
theorem run_deliveries (policy : Policy) (fleet : Fleet) (events : List Event) :
    (fleet.run policy events).fleet.paths = fleet.paths.after (fleet.deliveries policy events) ∧
      (fleet.run policy events).effects.scans =
        fleet.paths.scans (fleet.deliveries policy events) := by
  induction events generalizing fleet with
  | nil => exact ⟨rfl, rfl⟩
  | cons event rest inductionHypothesis =>
      obtain ⟨samePaths, sameScans⟩ := inductionHypothesis (fleet.step policy event).fleet
      exact ⟨samePaths, congrArg ((fleet.step policy event).effects.scans + ·) sameScans⟩

end Fleet

end InstrumentScope
