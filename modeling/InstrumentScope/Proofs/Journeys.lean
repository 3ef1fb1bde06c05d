import InstrumentScope.Proofs.OpenBlock
import Mathlib.Data.Finset.Card
import Mathlib.Logic.Function.Basic

/-!
Contract: what a path remembers cannot be told from resolving anew.

A journey is a path without a memory for rules. It knows the mapping it is in,
the mapping it activated last and all it has activated, and for every answer the
rules are searched again. A path goes along with its journey: through every
event, under whichever monitor, the two give the same answers, and what the path
remembers is what the rules say about the mappings of the journey.

Owns:
- journeys, and the answers to events from journeys and rules alone;
- the relation between a path and its journey, and that every event keeps it;
- paths that several monitors serve in turn.

Does not own:
- which rule resolution picks (`RuleTables`).
-/

namespace InstrumentScope

/-- Where a path has been, without what it learned there. -/
@[ext]
structure Journey where
  current : Option Mapping
  /-- The mapping activated last. -/
  last : Option Mapping
  activated : Finset Mapping
  current_mem : ∀ mapping, current = some mapping → mapping ∈ activated
  last_mem : ∀ mapping, last = some mapping → mapping ∈ activated

namespace Journey

def fresh : Journey where
  current := none
  last := none
  activated := ∅
  current_mem := by simp
  last_mem := by simp

def activate (journey : Journey) (mapping : Mapping) : Journey where
  current := journey.current
  last := some mapping
  activated := insert mapping journey.activated
  current_mem other isCurrent := Finset.mem_insert_of_mem (journey.current_mem other isCurrent)
  last_mem other isLast := by
    rw [Option.some.inj isLast]
    exact Finset.mem_insert_self other journey.activated

def enter (journey : Journey) (mapping : Mapping) : Journey :=
  { journey.activate mapping with
    current := some mapping
    current_mem := fun other isCurrent => (journey.activate mapping).last_mem other isCurrent }

def leave (journey : Journey) : Journey :=
  { journey with
    current := none
    current_mem := by simp }

/-- The rules decide for the code at `pc` of the current mapping. -/
def isInstrumented (rules : RuleSet) (journey : Journey) (pc : Address) : Bool :=
  journey.current.any (rules.decides · pc)

theorem activate_of_last {journey : Journey} {mapping : Mapping}
    (isLast : journey.last = some mapping) : journey.activate mapping = journey := by
  have member := journey.last_mem mapping isLast
  ext1
  · rfl
  · exact isLast.symm
  · exact Finset.insert_eq_of_mem member

end Journey

/-- The journeys of several paths, each under the name of its path. -/
structure Journeys where
  of : String → Journey

namespace Journeys

def fresh : Journeys :=
  ⟨fun _ => .fresh⟩

def set (journeys : Journeys) (name : String) (journey : Journey) : Journeys :=
  ⟨Function.update journeys.of name journey⟩

structure Outcome where
  answer : Answer
  journeys : Journeys

/-- The answer to an event on paths, the rules searched anew wherever it takes a rule. -/
def step (rules : RuleSet) (journeys : Journeys) : PathEvent → Outcome
  | .activate path mapping =>
      ⟨.rule (rules.resolve mapping), journeys.set path ((journeys.of path).activate mapping)⟩
  | .enter path mapping =>
      ⟨.rule (rules.resolve mapping), journeys.set path ((journeys.of path).enter mapping)⟩
  | .leave path => ⟨.done, journeys.set path (journeys.of path).leave⟩
  | .inquire path pc => ⟨.decision ((journeys.of path).isInstrumented rules pc), journeys⟩
  | .fork path copy => ⟨.done, journeys.set copy (journeys.of path)⟩
  | .restart path => ⟨.done, journeys.set path .fresh⟩

end Journeys

/-- A fleet as it is reckoned from the rules: the open block, and where the paths have been. -/
structure Reckoning where
  openBlock : Option OpenBlock
  journeys : Journeys

namespace Reckoning

structure Outcome where
  answer : Answer
  reckoning : Reckoning

/-- The answer to an event, the rules searched anew wherever it takes a rule. -/
def step (policy : Policy) (reckoning : Reckoning) : Event → Outcome
  | .onPaths event =>
      let outcome := reckoning.journeys.step policy.rules event
      ⟨outcome.answer, reckoning.openBlock, outcome.journeys⟩
  | .transition path _ destination =>
      let journey := reckoning.journeys.of path
      ⟨.rule (destination.bind policy.rules.resolve), reckoning.openBlock,
        reckoning.journeys.set path (destination.elim journey.leave journey.enter)⟩
  | .needed path mapping pc =>
      ⟨.decision (policy.rules.decides mapping pc), reckoning.openBlock,
        reckoning.journeys.set path ((reckoning.journeys.of path).activate mapping)⟩
  | .execute path pc =>
      ⟨.signal (some (.toward ((reckoning.journeys.of path).isInstrumented policy.rules pc))),
        reckoning⟩
  | .blockStart path mapping block _ =>
      match mapping.filter fun mapping => policy.coverage.isSelected mapping.module with
      | none => ⟨.hooks .empty, none, reckoning.journeys⟩
      | some mapping =>
          ⟨.hooks Monitor.blockHooks, some ⟨block, mapping, policy.options.startMode⟩,
            reckoning.journeys.set path ((reckoning.journeys.of path).activate mapping)⟩
  | .instructionStart path block pc =>
      match reckoning.openBlock.filter (·.block == block) with
      | none => ⟨.signal none, reckoning⟩
      | some opened =>
          let need := policy.rules.decides opened.mapping pc
          ⟨.signal (if opened.mode = some need then none else some (.toward need)),
            some { opened with mode := some need },
            reckoning.journeys.set path ((reckoning.journeys.of path).activate opened.mapping)⟩
  | .blockEnd block _ =>
      match reckoning.openBlock.filter (·.block == block) with
      | none => ⟨.signal none, reckoning⟩
      | some opened =>
          let closes := opened.mode = some true ∧ policy.options.closeBlocks
          ⟨.signal (if closes then some .disable else none), none, reckoning.journeys⟩

structure Run where
  answers : List Answer
  reckoning : Reckoning

def run (policy : Policy) (reckoning : Reckoning) : List Event → Run
  | [] => ⟨[], reckoning⟩
  | event :: rest =>
      let outcome := reckoning.step policy event
      let later := outcome.reckoning.run policy rest
      ⟨outcome.answer :: later.answers, later.reckoning⟩

end Reckoning

namespace Path

variable {rules : RuleSet} {path : Path} {journey : Journey}

/-- The path is where the journey is, and remembers what the rules resolve to for exactly the
mappings that the journey has activated. -/
structure Follows (rules : RuleSet) (path : Path) (journey : Journey) : Prop where
  current : path.current = journey.current
  active : path.active = journey.last.map fun mapping => (mapping, rules.resolve mapping)
  cached : ∀ mapping, path.cached mapping =
    if mapping ∈ journey.activated then some (rules.resolve mapping) else none
  known : path.knownMappings = journey.activated.card

theorem follows_fresh (rules : RuleSet) : fresh.Follows rules .fresh where
  current := rfl
  active := rfl
  cached := by simp [fresh, cached, Journey.fresh]
  known := rfl

theorem Follows.mem_activated_iff (follows : path.Follows rules journey) {mapping : Mapping} :
    mapping ∈ journey.activated ↔ (path.cached mapping).isSome := by
  rw [follows.cached]
  split
  case isTrue member => exact iff_of_true member rfl
  case isFalse absent => exact iff_of_false absent (by simp)

theorem Follows.coherent (follows : path.Follows rules journey) : path.Coherent rules where
  resolved mapping rule known := by
    rw [follows.cached] at known
    exact (Option.some.inj (Option.ite_none_right_eq_some.mp known).2).symm
  active mapping rule isActive := by
    rw [follows.active] at isActive
    obtain ⟨found, isLast, same⟩ := Option.map_eq_some_iff.mp isActive
    obtain ⟨rfl, rfl⟩ := Prod.mk.inj same
    rw [follows.cached, if_pos (journey.last_mem found isLast)]
  current mapping isCurrent := by
    rw [follows.current] at isCurrent
    exact follows.mem_activated_iff.mp (journey.current_mem mapping isCurrent)

/-- A path that activates a mapping goes on along its journey. -/
theorem Follows.activate (follows : path.Follows rules journey) (mapping : Mapping) :
    (path.activate rules mapping).path.Follows rules (journey.activate mapping) := by
  -- The path has three ways to go on, the journey one: what it adds is new in the last case only.
  rcases activate_cases rules path mapping with
    ⟨rule, isActive, outcome⟩ | ⟨rule, known, outcome⟩ | ⟨unknown, outcome⟩
  · rw [follows.active] at isActive
    obtain ⟨found, isLast, same⟩ := Option.map_eq_some_iff.mp isActive
    obtain ⟨rfl, rfl⟩ := Prod.mk.inj same
    rw [outcome, Journey.activate_of_last isLast]
    exact follows
  · have member : mapping ∈ journey.activated :=
      follows.mem_activated_iff.mpr (Option.isSome_of_eq_some known)
    have unchanged : (journey.activate mapping).activated = journey.activated :=
      Finset.insert_eq_of_mem member
    rw [follows.cached, if_pos member] at known
    obtain rfl := Option.some.inj known
    rw [outcome]
    refine ⟨follows.current, rfl, ?_, ?_⟩
    · rw [unchanged]
      exact follows.cached
    · rw [unchanged]
      exact follows.known
  · have absent : mapping ∉ journey.activated := by
      intro member
      rw [follows.cached, if_pos member] at unknown
      contradiction
    rw [outcome]
    refine ⟨follows.current, rfl, ?_, ?_⟩
    · intro other
      rw [cached_insert, follows.cached]
      by_cases same : mapping = other
      · subst same
        rw [if_pos rfl]
        exact (if_pos (Finset.mem_insert_self mapping journey.activated)).symm
      · have sameMember : other ∈ (journey.activate mapping).activated ↔
            other ∈ journey.activated := Finset.mem_insert.trans (or_iff_right (Ne.symm same))
        rw [if_neg same]
        simp only [sameMember]
    · have unresolved : path.resolved.contains mapping = false := by
        rw [Std.ExtTreeMap.contains_eq_isSome_getElem?]
        exact congrArg Option.isSome unknown
      calc (path.resolved.insert mapping (rules.resolve mapping)).size
          = path.resolved.size + 1 := by
            rw [Std.ExtTreeMap.size_insert, unresolved]
            rfl
        _ = journey.activated.card + 1 := congrArg (· + 1) follows.known
        _ = (insert mapping journey.activated).card := (Finset.card_insert_of_notMem absent).symm

theorem Follows.enter (follows : path.Follows rules journey) (mapping : Mapping) :
    (path.enter rules mapping).path.Follows rules (journey.enter mapping) := by
  have activated := follows.activate mapping
  exact ⟨rfl, activated.active, activated.cached, activated.known⟩

theorem Follows.leave (follows : path.Follows rules journey) :
    path.leave.Follows rules journey.leave :=
  ⟨rfl, follows.active, follows.cached, follows.known⟩

theorem Follows.isInstrumented_eq (follows : path.Follows rules journey) (pc : Address) :
    path.isInstrumented rules pc = journey.isInstrumented rules pc := by
  rw [isInstrumented_of_coherent follows.coherent, follows.current]
  rfl

end Path

/-- Every path follows its journey. -/
def Paths.Follow (rules : RuleSet) (paths : Paths) (journeys : Journeys) : Prop :=
  ∀ name, (paths.get name).Follows rules (journeys.of name)

namespace Paths

variable {rules : RuleSet} {paths : Paths} {journeys : Journeys}

theorem follow_empty (rules : RuleSet) : empty.Follow rules .fresh := by
  intro name
  rw [get_empty]
  exact Path.follows_fresh rules

/-- The paths still follow when one of them and its journey go on together. -/
theorem Follow.set (follow : paths.Follow rules journeys) {path : Path} {journey : Journey}
    (goesOn : path.Follows rules journey) (name : String) :
    (paths.set name path).Follow rules (journeys.set name journey) := by
  intro other
  rw [get_set]
  show Path.Follows rules _ (Function.update journeys.of name journey other)
  by_cases same : name = other
  · subst same
    rw [if_pos rfl, Function.update_self]
    exact goesOn
  · rw [if_neg same, Function.update_of_ne (Ne.symm same)]
    exact follow other

/-- Writing a path back changes nothing. -/
theorem Follow.set_get (follow : paths.Follow rules journeys) (name : String) :
    (paths.set name (paths.get name)).Follow rules journeys := by
  intro other
  rw [get_set]
  split
  case isTrue same => exact same ▸ follow name
  case isFalse => exact follow other

theorem Follow.step (follow : paths.Follow rules journeys) (event : PathEvent) :
    (paths.step rules event).answer = (journeys.step rules event).answer ∧
      (paths.step rules event).paths.Follow rules (journeys.step rules event).journeys := by
  cases event with
  | activate path mapping =>
      have resolved := (Path.activate_of_coherent (follow path).coherent mapping).1
      exact ⟨congrArg Answer.rule resolved, follow.set ((follow path).activate mapping) path⟩
  | enter path mapping =>
      have resolved := (Path.activate_of_coherent (follow path).coherent mapping).1
      exact ⟨congrArg Answer.rule resolved, follow.set ((follow path).enter mapping) path⟩
  | leave path => exact ⟨rfl, follow.set (follow path).leave path⟩
  | inquire path pc => exact ⟨congrArg Answer.decision ((follow path).isInstrumented_eq pc), follow⟩
  | fork path copy => exact ⟨rfl, follow.set (follow path) copy⟩
  | restart path => exact ⟨rfl, follow.set (Path.follows_fresh rules) path⟩

end Paths

/-- Every path follows its journey, and the open block is the reckoned one. -/
structure Fleet.Follows (rules : RuleSet) (fleet : Fleet) (reckoning : Reckoning) : Prop where
  openBlock : fleet.monitor.openBlock = reckoning.openBlock
  paths : fleet.paths.Follow rules reckoning.journeys

namespace Fleet

variable {policy : Policy} {fleet : Fleet} {reckoning : Reckoning}

/-- An event is answered as reckoned, and leaves the fleet as reckoned. -/
theorem Follows.step (follows : fleet.Follows policy.rules reckoning) (event : Event) :
    (fleet.step policy event).answer = (reckoning.step policy event).answer ∧
      (fleet.step policy event).fleet.Follows policy.rules
        (reckoning.step policy event).reckoning := by
  cases event with
  | onPaths event =>
      obtain ⟨sameAnswer, follow⟩ := follows.paths.step event
      exact ⟨sameAnswer, follows.openBlock, follow⟩
  | transition path origin destination =>
      have follow := follows.paths path
      refine ⟨congrArg Answer.rule ?_, ?_, follows.paths.set ?_ path⟩
      · rw [Monitor.answer_transition]
        cases destination with
        | none => rfl
        | some mapping => exact (Path.activate_of_coherent follow.coherent mapping).1
      · exact (Monitor.transition_tracking origin destination).1.trans follows.openBlock
      · rw [Monitor.path_transition]
        cases destination with
        | none => exact follow.leave
        | some mapping => exact follow.enter mapping
  | needed path mapping pc =>
      have follow := follows.paths path
      refine ⟨congrArg Answer.decision ?_, ?_, follows.paths.set ?_ path⟩
      · exact Monitor.answer_needed follow.coherent mapping pc
      · exact (Monitor.needed_tracking mapping pc).1.trans follows.openBlock
      · rw [Monitor.path_needed]
        exact follow.activate mapping
  | execute path pc =>
      have decided := (follows.paths path).isInstrumented_eq pc
      exact ⟨congrArg (fun need => Answer.signal (some (.toward need))) decided, follows⟩
  | blockStart path mapping block pc =>
      unfold Fleet.step Reckoning.step Monitor.blockStart
      dsimp only
      cases mapping.filter fun mapping => policy.coverage.isSelected mapping.module with
      | none => exact ⟨rfl, rfl, follows.paths.set_get path⟩
      | some selected =>
          exact ⟨rfl, rfl, follows.paths.set ((follows.paths path).activate selected) path⟩
  | instructionStart path block pc =>
      have follow := follows.paths path
      unfold Fleet.step Reckoning.step
      dsimp only
      rw [← follows.openBlock]
      cases isOpened : fleet.monitor.openBlock.filter (·.block == block) with
      | none =>
          rw [Monitor.instructionStart_of_unopened isOpened]
          exact ⟨rfl, follows.openBlock, follows.paths.set_get path⟩
      | some opened =>
          obtain ⟨isOpen, named⟩ := Option.filter_eq_some_iff.mp isOpened
          obtain rfl := eq_of_beq named
          obtain ⟨answered, moved, _⟩ := Monitor.instructionStart_of_open follow.coherent isOpen pc
          refine ⟨congrArg Answer.signal answered, moved, follows.paths.set ?_ path⟩
          rw [Monitor.path_instructionStart_of_opened isOpened]
          exact follow.activate opened.mapping
  | blockEnd block pc =>
      unfold Fleet.step Reckoning.step Monitor.blockEnd
      dsimp only
      rw [follows.openBlock]
      cases reckoning.openBlock.filter (·.block == block) with
      | none => exact ⟨rfl, follows⟩
      | some opened =>
          dsimp only
          split <;> exact ⟨rfl, rfl, follows.paths⟩

/-- A whole run is answered as reckoned, and leaves the fleet as reckoned. -/
theorem Follows.run (follows : fleet.Follows policy.rules reckoning) (events : List Event) :
    (fleet.run policy events).answers = (reckoning.run policy events).answers ∧
      (fleet.run policy events).fleet.Follows policy.rules
        (reckoning.run policy events).reckoning := by
  induction events generalizing fleet reckoning with
  | nil => exact ⟨rfl, follows⟩
  | cons event rest inductionHypothesis =>
      obtain ⟨sameAnswer, goesOn⟩ := follows.step event
      obtain ⟨sameAnswers, ended⟩ := inductionHypothesis goesOn
      exact ⟨congrArg₂ List.cons sameAnswer sameAnswers, ended⟩

end Fleet

/-- The events that a monitor sees, from some state on, until another takes over. -/
structure Shift where
  options : Options
  monitor : Monitor
  events : List Event

/-- What several monitors over the same rules leave of the paths they serve in turn. -/
structure Paths.Service where
  answers : List Answer
  paths : Paths

def Paths.serve (rules : RuleSet) (paths : Paths) : List Shift → Service
  | [] => ⟨[], paths⟩
  | shift :: rest =>
      let run := Fleet.run (.ofRules rules shift.options) ⟨shift.monitor, paths⟩ shift.events
      let later := run.fleet.paths.serve rules rest
      ⟨run.answers ++ later.answers, later.paths⟩

structure Journeys.Service where
  answers : List Answer
  journeys : Journeys

def Journeys.serve (rules : RuleSet) (journeys : Journeys) : List Shift → Service
  | [] => ⟨[], journeys⟩
  | shift :: rest =>
      let run := Reckoning.run (.ofRules rules shift.options) ⟨shift.monitor.openBlock, journeys⟩
        shift.events
      let later := run.reckoning.journeys.serve rules rest
      ⟨run.answers ++ later.answers, later.journeys⟩

theorem Paths.Follow.serve {rules : RuleSet} {paths : Paths} {journeys : Journeys}
    (follow : paths.Follow rules journeys) (shifts : List Shift) :
    (paths.serve rules shifts).answers = (journeys.serve rules shifts).answers ∧
      (paths.serve rules shifts).paths.Follow rules (journeys.serve rules shifts).journeys := by
  induction shifts generalizing paths journeys with
  | nil => exact ⟨rfl, follow⟩
  | cons shift rest inductionHypothesis =>
      let policy := Policy.ofRules rules shift.options
      have follows : Fleet.Follows policy.rules ⟨shift.monitor, paths⟩
          ⟨shift.monitor.openBlock, journeys⟩ := ⟨rfl, follow⟩
      obtain ⟨sameAnswers, ended⟩ := follows.run shift.events
      obtain ⟨sameLater, endedLater⟩ := inductionHypothesis ended.paths
      exact ⟨congrArg₂ (· ++ ·) sameAnswers sameLater, endedLater⟩

/-- Paths that start afresh over one rule set, whatever monitors over it serve them, answer as their
journeys do. At every point they remember what the rules resolve to for exactly the mappings
activated on the way, and go on to answer from the rules alone. -/
theorem paths_follow_journeys (rules : RuleSet) (shifts : List Shift) :
    let actual := Paths.empty.serve rules shifts
    let reckoned := Journeys.fresh.serve rules shifts
    actual.answers = reckoned.answers ∧
    ∀ name,
      let path := actual.paths.get name
      let journey := reckoned.journeys.of name
      (∀ mapping, (path.activate rules mapping).rule = rules.resolve mapping ∧
        (path.enter rules mapping).rule = rules.resolve mapping ∧
        ∀ (options : Options) (monitor : Monitor) (origin : Option Mapping),
          (monitor.transition (.ofRules rules options) path origin (some mapping)).answer =
            rules.resolve mapping) ∧
      (∀ mapping, path.cached mapping =
        if mapping ∈ journey.activated then some (rules.resolve mapping) else none) ∧
      path.knownMappings = journey.activated.card ∧
      path.current = journey.current ∧ path.activeMapping = journey.last ∧
      path.activeRule = journey.last.bind rules.resolve ∧
      ∀ pc, path.isInstrumented rules pc = journey.isInstrumented rules pc := by
  intro actual reckoned
  obtain ⟨sameAnswers, follow⟩ := (Paths.follow_empty rules).serve shifts
  refine ⟨sameAnswers, ?_⟩
  intro name path journey
  have follows : path.Follows rules journey := follow name
  have resolved : ∀ mapping, (path.activate rules mapping).rule = rules.resolve mapping := by
    intro mapping
    exact (Path.activate_of_coherent follows.coherent mapping).1
  refine ⟨?_, follows.cached, follows.known, follows.current, ?_, ?_, follows.isInstrumented_eq⟩
  · intro mapping
    refine ⟨resolved mapping, resolved mapping, ?_⟩
    intro options monitor origin
    rw [Monitor.answer_transition]
    exact resolved mapping
  · unfold Path.activeMapping
    rw [follows.active]
    cases journey.last <;> rfl
  · unfold Path.activeRule
    rw [follows.active]
    cases journey.last <;> rfl

end InstrumentScope
