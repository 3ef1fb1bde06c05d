import InstrumentScope.Proofs.PathKnowledge
import InstrumentScope.Transcript
import Mathlib.Data.List.Induction

/-!
Contract: the open block after a run, told by the history of the run alone.

Between the start of a block and its end anything may happen: events of other
blocks, of paths, and questions. Of all this only the instructions of the block
itself move the mode it is in, and they move it to what the rules decide.

Owns:
- the events that leave a block open, and the instructions of a block in a history;
- one law per event of the monitor: the open block and the marks after it;
- the open block after a run.

Does not own:
- the signals of a run (`BlockSignals`, `ClosedBlocks`).
-/

namespace InstrumentScope

namespace Event

/-- The event neither begins a block nor ends this one. -/
def StaysIn (block : BlockId) : Event → Prop
  | blockStart .. => False
  | blockEnd other _ => other ≠ block
  | _ => True

/-- The address of the instruction of the block that the event translates. -/
def addressIn (block : BlockId) : Event → Option Address
  | instructionStart _ other pc => if other = block then some pc else none
  | _ => none

/-- The addresses of the instructions of the block that the events translate, in order. -/
def translated (block : BlockId) (events : List Event) : List Address :=
  events.filterMap (addressIn block)

/-- After the events a block of a selected module is being translated: it was begun, and the events
`inside` since then neither ended it nor began another. -/
def Tracks (policy : Policy) (events : List Event) (block : BlockId) (mapping : Mapping)
    (inside : List Event) : Prop :=
  ∃ before starter start, events = before ++ blockStart starter (some mapping) block start :: inside ∧
    policy.coverage.isSelected mapping.module = true ∧ ∀ event ∈ inside, event.StaysIn block

theorem eq_instructionStart_of_addressIn {event : Event} {block : BlockId} {pc : Address}
    (addressed : event.addressIn block = some pc) :
    ∃ name, event = instructionStart name block pc := by
  cases event with
  | instructionStart name other address =>
      obtain ⟨rfl, same⟩ := Option.ite_none_right_eq_some.mp addressed
      obtain rfl := Option.some.inj same
      exact ⟨name, rfl⟩
  | _ => contradiction

/-- Only the end of the block and the start of a block take a block out of translation. -/
theorem cases_of_not_staysIn {event : Event} {block : BlockId}
    (leaves : ¬ event.StaysIn block) :
    (∃ name mapping other pc, event = blockStart name mapping other pc) ∨
      ∃ pc, event = blockEnd block pc := by
  cases event with
  | blockStart name mapping other pc => exact Or.inl ⟨name, mapping, other, pc, rfl⟩
  | blockEnd other pc =>
      have same : other = block := Decidable.not_not.mp leaves
      rw [same]
      exact Or.inr ⟨pc, rfl⟩
  | _ => exact absurd trivial leaves

end Event

/-- The mode that a block is in when it begins; none if it is unknown. -/
def Options.startMode (options : Options) : Option Bool :=
  if options.closeBlocks then some false else none

/-- The mode after instructions with these needs. -/
def modeAfter (mode : Option Bool) (needs : List Bool) : Option Bool :=
  needs.getLast?.or mode

theorem modeAfter_cons (mode : Option Bool) (need : Bool) (needs : List Bool) :
    modeAfter mode (need :: needs) = modeAfter (some need) needs := by
  unfold modeAfter
  rw [List.getLast?_cons]
  cases needs.getLast? <;> rfl

theorem modeAfter_concat (mode : Option Bool) (needs : List Bool) (need : Bool) :
    modeAfter mode (needs ++ [need]) = some need := by
  unfold modeAfter
  rw [List.getLast?_concat]
  rfl

namespace Monitor

variable {policy : Policy} {monitor : Monitor} {path : Path}

theorem openBlock_checkSize (mapping : Mapping) (rule : Rule) :
    (monitor.checkSize mapping rule).monitor.openBlock = monitor.openBlock := by
  unfold checkSize
  split <;> rfl

theorem openBlock_reportOutOfBounds (options : Options) (mapping : Mapping) (pc : Address) :
    (monitor.reportOutOfBounds options mapping pc).monitor.openBlock = monitor.openBlock := by
  unfold reportOutOfBounds
  split <;> rfl

theorem transition_tracking (origin destination : Option Mapping) :
    (monitor.transition policy path origin destination).monitor.openBlock = monitor.openBlock ∧
      (monitor.transition policy path origin destination).effects.marks = [] := by
  unfold transition
  cases destination with
  | none => exact ⟨rfl, rfl⟩
  | some mapping =>
      dsimp only
      split
      · exact ⟨rfl, rfl⟩
      · exact ⟨openBlock_checkSize mapping _, rfl⟩

theorem needed_tracking (mapping : Mapping) (pc : Address) :
    (monitor.needed policy path mapping pc).monitor.openBlock = monitor.openBlock ∧
      (monitor.needed policy path mapping pc).effects.marks = [] := by
  unfold needed
  dsimp only
  split
  · exact ⟨rfl, rfl⟩
  · split
    · exact ⟨openBlock_checkSize mapping _, rfl⟩
    · refine ⟨?_, rfl⟩
      rw [openBlock_reportOutOfBounds, openBlock_checkSize]

theorem blockStart_tracking (mapping : Option Mapping) (block : BlockId) (pc : Address) :
    (monitor.blockStart policy path mapping block pc).monitor.openBlock =
        (mapping.filter fun mapping => policy.coverage.isSelected mapping.module).map
          (⟨block, ·, policy.options.startMode⟩) ∧
      (monitor.blockStart policy path mapping block pc).effects.marks = [] := by
  unfold blockStart
  cases mapping.filter fun mapping => policy.coverage.isSelected mapping.module <;>
    exact ⟨rfl, rfl⟩

/-- The block is not the open one. -/
def Foreign (monitor : Monitor) (block : BlockId) : Prop :=
  ∀ opened, monitor.openBlock = some opened → opened.block ≠ block

theorem foreign_of_none (closed : monitor.openBlock = none) (block : BlockId) :
    monitor.Foreign block := by
  intro opened isOpen
  rw [closed] at isOpen
  contradiction

theorem foreign_of_ne {opened : OpenBlock} (isOpen : monitor.openBlock = some opened)
    {block : BlockId} (other : block ≠ opened.block) : monitor.Foreign block := by
  intro found isFound named
  obtain rfl := Option.some.inj (isOpen.symm.trans isFound)
  exact other named.symm

theorem filter_of_foreign {block : BlockId} (foreign : monitor.Foreign block) :
    monitor.openBlock.filter (·.block == block) = none := by
  rw [Option.filter_eq_none_iff]
  intro opened isOpen named
  exact foreign opened isOpen (eq_of_beq named)

theorem filter_of_open {opened : OpenBlock} (isOpen : monitor.openBlock = some opened) :
    monitor.openBlock.filter (·.block == opened.block) = some opened := by
  rw [isOpen, Option.filter_some, if_pos (beq_self_eq_true opened.block)]

theorem instructionStart_of_foreign {block : BlockId} (foreign : monitor.Foreign block)
    (pc : Address) :
    monitor.instructionStart policy path block pc = ⟨none, monitor, path, .none⟩ :=
  instructionStart_of_unopened (filter_of_foreign foreign) pc

/-- An instruction of the open block moves its mode to what the rules decide. It leaves a signal
toward that mode unless the block is in it already, and a check if the instruction is covered. -/
theorem instructionStart_of_open (coherent : path.Coherent policy.rules) {opened : OpenBlock}
    (isOpen : monitor.openBlock = some opened) (pc : Address) :
    let need := policy.rules.decides opened.mapping pc
    let outcome := monitor.instructionStart policy path opened.block pc
    outcome.answer = (if opened.mode = some need then none else some (.toward need)) ∧
      outcome.monitor.openBlock = some { opened with mode := some need } ∧
      Transcript.ofMarks outcome.effects.marks =
        { signals := if opened.mode = some need then [] else [⟨opened.block, pc, .toward need⟩]
          checks := if policy.coverage.selects opened.mapping pc then [⟨opened.block, pc⟩]
            else [] } := by
  have decided : (monitor.needed policy path opened.mapping pc).answer =
      policy.rules.decides opened.mapping pc := answer_needed coherent opened.mapping pc
  have kept : (monitor.needed policy path opened.mapping pc).monitor.openBlock =
      monitor.openBlock := (needed_tracking opened.mapping pc).1
  dsimp only
  unfold instructionStart
  rw [filter_of_open isOpen]
  dsimp only
  rw [decided]
  by_cases inMode : opened.mode = some (policy.rules.decides opened.mapping pc)
  · rw [if_pos inMode, if_pos inMode, if_pos inMode]
    refine ⟨rfl, ?_, ?_⟩
    · rw [kept, isOpen, ← inMode]
    · cases policy.coverage.selects opened.mapping pc <;> rfl
  · rw [if_neg inMode, if_neg inMode, if_neg inMode]
    refine ⟨rfl, rfl, ?_⟩
    cases policy.coverage.selects opened.mapping pc <;> rfl

/-- The end of a block that is not open changes nothing and leaves no mark. -/
theorem blockEnd_of_foreign {block : BlockId} (foreign : monitor.Foreign block) (pc : Address) :
    monitor.blockEnd policy block pc = ⟨none, monitor, []⟩ := by
  unfold blockEnd
  rw [filter_of_foreign foreign]

/-- The end of the open block closes it, with a signal if it is left instrumented and blocks are
to be closed. -/
theorem blockEnd_of_open {opened : OpenBlock} (isOpen : monitor.openBlock = some opened)
    (pc : Address) :
    monitor.blockEnd policy opened.block pc =
      if opened.mode = some true ∧ policy.options.closeBlocks then
        ⟨some .disable, { monitor with openBlock := none }, [.signal opened.block pc .disable]⟩
      else
        ⟨none, { monitor with openBlock := none }, []⟩ := by
  unfold blockEnd
  rw [filter_of_open isOpen]

end Monitor

namespace Fleet

/-- The signals that the receiver gets from an event. -/
def Outcome.signals (outcome : Outcome) : List SignalMark :=
  (Transcript.ofMarks outcome.effects.marks).signals

/-- The checks that the receiver gets from an event. -/
def Outcome.checks (outcome : Outcome) : List CheckMark :=
  (Transcript.ofMarks outcome.effects.marks).checks

/-- The signals that the receiver gets in a run. -/
def Run.signals (run : Run) : List SignalMark :=
  (Transcript.ofMarks run.effects.marks).signals

theorem signals_eq_nil {outcome : Outcome} (unmarked : outcome.effects.marks = []) :
    outcome.signals = [] := by
  unfold Outcome.signals
  rw [unmarked]
  rfl

variable {policy : Policy} {fleet : Fleet}

theorem fleet_run_append (events later : List Event) :
    (fleet.run policy (events ++ later)).fleet =
      ((fleet.run policy events).fleet.run policy later).fleet := by
  rw [run_append]

theorem signals_run_append (events later : List Event) :
    (fleet.run policy (events ++ later)).signals =
      (fleet.run policy events).signals ++
        ((fleet.run policy events).fleet.run policy later).signals := by
  rw [run_append]
  unfold Run.signals
  rw [Effects.marks_append, Transcript.ofMarks_append]
  rfl

theorem signals_run_cons (event : Event) (rest : List Event) :
    (fleet.run policy (event :: rest)).signals =
      (fleet.step policy event).signals ++
        ((fleet.step policy event).fleet.run policy rest).signals := by
  unfold Run.signals Outcome.signals
  rw [run, Effects.marks_append, Transcript.ofMarks_append]
  rfl

theorem signals_run_concat (events : List Event) (event : Event) :
    (fleet.run policy (events ++ [event])).signals =
      (fleet.run policy events).signals ++
        ((fleet.run policy events).fleet.step policy event).signals := by
  rw [signals_run_append, signals_run_cons]
  exact congrArg _ (List.append_nil _)

theorem fleet_run_concat (events : List Event) (event : Event) :
    (fleet.run policy (events ++ [event])).fleet =
      ((fleet.run policy events).fleet.step policy event).fleet :=
  fleet_run_append events [event]

/-- The block that begins is open, in the mode blocks begin in, if its module is selected; if it is
not, no block is open. -/
theorem openBlock_step_blockStart (name : String) (mapping : Option Mapping) (block : BlockId)
    (pc : Address) :
    (fleet.step policy (.blockStart name mapping block pc)).fleet.monitor.openBlock =
        (mapping.filter fun mapping => policy.coverage.isSelected mapping.module).map
          (⟨block, ·, policy.options.startMode⟩) ∧
      (fleet.step policy (.blockStart name mapping block pc)).effects.marks = [] :=
  Monitor.blockStart_tracking mapping block pc

theorem openBlock_step_blockStart_of_selected (name : String) {mapping : Mapping}
    (selected : policy.coverage.isSelected mapping.module = true) (block : BlockId)
    (pc : Address) :
    (fleet.step policy (.blockStart name (some mapping) block pc)).fleet.monitor.openBlock =
      some ⟨block, mapping, policy.options.startMode⟩ := by
  rw [(openBlock_step_blockStart name (some mapping) block pc).1, Option.filter_some,
    if_pos selected]
  rfl

/-- While a block stays open an event moves its mode only by translating one of its instructions. -/
theorem openBlock_step_of_stays (reachable : fleet.paths.Reachable policy.rules)
    {opened : OpenBlock} (isOpen : fleet.monitor.openBlock = some opened) {event : Event}
    (stays : event.StaysIn opened.block) :
    (fleet.step policy event).fleet.monitor.openBlock =
      some { opened with
        mode := ((event.addressIn opened.block).map
          (policy.rules.decides opened.mapping)).or opened.mode } := by
  cases event with
  | onPaths event => exact isOpen
  | transition name origin destination =>
      exact (Monitor.transition_tracking origin destination).1.trans isOpen
  | needed name mapping pc => exact (Monitor.needed_tracking mapping pc).1.trans isOpen
  | execute name pc => exact isOpen
  | blockStart name mapping block pc => exact stays.elim
  | instructionStart name block pc =>
      by_cases own : block = opened.block
      · subst own
        have coherent := Path.coherent_of_reachable (reachable name)
        obtain ⟨_, moved, _⟩ := Monitor.instructionStart_of_open coherent isOpen pc
        refine moved.trans ?_
        simp [Event.addressIn]
      · have foreign := Monitor.foreign_of_ne isOpen own
        show (fleet.monitor.instructionStart policy (fleet.paths.get name) block
          pc).monitor.openBlock = _
        rw [Monitor.instructionStart_of_foreign foreign, Event.addressIn, if_neg own]
        exact isOpen
  | blockEnd block pc =>
      have foreign := Monitor.foreign_of_ne isOpen stays
      show (fleet.monitor.blockEnd policy block pc).monitor.openBlock = _
      rw [Monitor.blockEnd_of_foreign foreign]
      exact isOpen

/-- A block that stays open is in the mode that its last instruction needed. -/
theorem openBlock_run_of_stays (reachable : fleet.paths.Reachable policy.rules)
    {opened : OpenBlock} (isOpen : fleet.monitor.openBlock = some opened) {events : List Event}
    (stays : ∀ event ∈ events, event.StaysIn opened.block) :
    (fleet.run policy events).fleet.monitor.openBlock =
      some { opened with
        mode := modeAfter opened.mode
          ((Event.translated opened.block events).map (policy.rules.decides opened.mapping)) } := by
  -- The open block is generalised as well: its mode changes from one event to the next.
  induction events generalizing fleet opened with
  | nil => exact isOpen
  | cons event rest inductionHypothesis =>
      have headStays : event.StaysIn opened.block := stays event List.mem_cons_self
      have restStays : ∀ other ∈ rest, other.StaysIn opened.block := by
        intro other member
        exact stays other (List.mem_cons_of_mem event member)
      have moved := openBlock_step_of_stays reachable isOpen headStays
      refine (inductionHypothesis (reachable_step reachable event) moved restStays).trans ?_
      unfold Event.translated
      rw [List.filterMap_cons]
      cases event.addressIn opened.block with
      | none => rfl
      | some pc =>
          dsimp only
          rw [List.map_cons, modeAfter_cons]
          rfl

/-- A block of a selected module is open once it begins, and stays open until an event ends it or
begins another. -/
theorem openBlock_run_of_tracks (reachable : fleet.paths.Reachable policy.rules)
    {events inside : List Event} {block : BlockId} {mapping : Mapping}
    (tracks : Event.Tracks policy events block mapping inside) :
    (fleet.run policy events).fleet.monitor.openBlock =
      some {
        block
        mapping
        mode := modeAfter policy.options.startMode
          ((Event.translated block inside).map (policy.rules.decides mapping)) } := by
  obtain ⟨before, starter, start, rfl, selected, stays⟩ := tracks
  have reached := reachable_step (reachable_run reachable before)
    (.blockStart starter (some mapping) block start)
  rw [fleet_run_append]
  exact openBlock_run_of_stays reached
    (openBlock_step_blockStart_of_selected starter selected block start) stays

/-- While no block is open only the start of a block opens one. -/
theorem openBlock_step_of_none (closed : fleet.monitor.openBlock = none) {event : Event}
    (starts : ∀ name mapping block pc, event ≠ .blockStart name mapping block pc) :
    (fleet.step policy event).fleet.monitor.openBlock = none := by
  cases event with
  | onPaths event => exact closed
  | transition name origin destination =>
      exact (Monitor.transition_tracking origin destination).1.trans closed
  | needed name mapping pc => exact (Monitor.needed_tracking mapping pc).1.trans closed
  | execute name pc => exact closed
  | blockStart name mapping block pc => exact absurd rfl (starts name mapping block pc)
  | instructionStart name block pc =>
      show (fleet.monitor.instructionStart policy (fleet.paths.get name) block
        pc).monitor.openBlock = none
      rw [Monitor.instructionStart_of_foreign (Monitor.foreign_of_none closed block)]
      exact closed
  | blockEnd block pc =>
      show (fleet.monitor.blockEnd policy block pc).monitor.openBlock = none
      rw [Monitor.blockEnd_of_foreign (Monitor.foreign_of_none closed block)]
      exact closed

/-- The end of the open block leaves none open. -/
theorem openBlock_step_blockEnd {opened : OpenBlock}
    (isOpen : fleet.monitor.openBlock = some opened) (pc : Address) :
    (fleet.step policy (.blockEnd opened.block pc)).fleet.monitor.openBlock = none := by
  show (fleet.monitor.blockEnd policy opened.block pc).monitor.openBlock = none
  rw [Monitor.blockEnd_of_open isOpen]
  split <;> rfl

/-- A block that is open after a start is the one that began. -/
theorem begins_of_openBlock_step {name : String} {mapping : Option Mapping} {block : BlockId}
    {pc : Address} {opened : OpenBlock}
    (isOpen : (fleet.step policy (.blockStart name mapping block pc)).fleet.monitor.openBlock =
      some opened) :
    mapping = some opened.mapping ∧ block = opened.block ∧
      policy.coverage.isSelected opened.mapping.module = true ∧
      opened.mode = policy.options.startMode := by
  rw [(openBlock_step_blockStart name mapping block pc).1] at isOpen
  obtain ⟨selected, filtered, rfl⟩ := Option.map_eq_some_iff.mp isOpen
  obtain ⟨rfl, holds⟩ := Option.filter_eq_some_iff.mp filtered
  exact ⟨rfl, rfl, holds, rfl⟩

/-- A block that is open after an event was open before it, unless the event began it. -/
theorem openBlock_step_cases (reachable : fleet.paths.Reachable policy.rules) {event : Event}
    {opened : OpenBlock}
    (isOpen : (fleet.step policy event).fleet.monitor.openBlock = some opened) :
    (∃ starter start, event = .blockStart starter (some opened.mapping) opened.block start ∧
      policy.coverage.isSelected opened.mapping.module = true ∧
      opened.mode = policy.options.startMode) ∨
    (event.StaysIn opened.block ∧ ∃ before, fleet.monitor.openBlock = some before ∧
      before.block = opened.block ∧ before.mapping = opened.mapping) := by
  by_cases starts : ∃ name mapping block pc, event = .blockStart name mapping block pc
  · left
    obtain ⟨name, mapping, block, pc, rfl⟩ := starts
    obtain ⟨rfl, rfl, selected, mode⟩ := begins_of_openBlock_step isOpen
    exact ⟨name, pc, rfl, selected, mode⟩
  · right
    cases before : fleet.monitor.openBlock with
    | none =>
        have closed : (fleet.step policy event).fleet.monitor.openBlock = none := by
          apply openBlock_step_of_none before
          intro name mapping block pc begins
          exact starts ⟨name, mapping, block, pc, begins⟩
        rw [closed] at isOpen
        contradiction
    | some other =>
        by_cases stays : event.StaysIn other.block
        · rw [openBlock_step_of_stays reachable before stays] at isOpen
          obtain rfl := Option.some.inj isOpen
          exact ⟨stays, other, rfl, rfl, rfl⟩
        · rcases Event.cases_of_not_staysIn stays with begins | ⟨pc, rfl⟩
          · exact absurd begins starts
          · rw [openBlock_step_blockEnd before] at isOpen
            contradiction

/-- In a run that began without an open block, a block that is open at the end has been begun and
not been ended since. -/
theorem tracks_of_openBlock_run (reachable : fleet.paths.Reachable policy.rules)
    (closed : fleet.monitor.openBlock = none) {events : List Event} {opened : OpenBlock}
    (isOpen : (fleet.run policy events).fleet.monitor.openBlock = some opened) :
    ∃ inside, Event.Tracks policy events opened.block opened.mapping inside := by
  -- A history grows at its end, so the last event is taken off and asked what it did.
  induction events using List.reverseRecOn generalizing opened with
  | nil =>
      rw [show (fleet.run policy []).fleet.monitor.openBlock = none from closed] at isOpen
      contradiction
  | append_singleton before event inductionHypothesis =>
      rw [fleet_run_append] at isOpen
      rcases openBlock_step_cases (reachable_run reachable before) isOpen with
        ⟨starter, start, rfl, selected, _⟩ | ⟨stays, previous, wasOpen, sameBlock, sameMapping⟩
      · exact ⟨[], before, starter, start, rfl, selected, by simp⟩
      · obtain ⟨inside, earlier, starter, start, rfl, selected, insideStays⟩ :=
          inductionHypothesis wasOpen
        rw [sameBlock] at insideStays ⊢
        rw [sameMapping] at selected ⊢
        refine ⟨inside ++ [event], earlier, starter, start, by simp, selected, ?_⟩
        intro other member
        rcases List.mem_append.mp member with inInside | last
        · exact insideStays other inInside
        · rw [List.mem_singleton.mp last]
          exact stays

end Fleet

end InstrumentScope
