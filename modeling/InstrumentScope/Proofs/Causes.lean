import InstrumentScope.Proofs.Complaints
import InstrumentScope.Proofs.OpenBlock

/-!
Contract: what a run gives cause to complain about, told by its history alone.

An address is asked about directly, or by translating an instruction of the
block that is open. Which block that is follows from the events so far. So the
causes that a run gives can be read off its events and the rules, without the
monitor, and the complaints after the run are those with a cause.

Owns:
- the questions of a run, and the causes that they and the transitions give;
- the complaints after a run of a fresh monitor.

Does not own:
- the notices that complaints come with (`Warnings`).
-/

namespace InstrumentScope

/-- The address lies below the mapping, or beyond the image of the rule that governs it. -/
theorem RuleSet.liesOutside_iff {rules : RuleSet} {mapping : Mapping} {pc : Address} :
    rules.LiesOutside mapping pc ↔
      ∃ rule ∈ (rules.resolve mapping).bind rules.get?,
        pc < mapping.loadBase ∨ rule.image.size ≤ pc - mapping.loadBase := by
  have outside : ∀ rule : Rule, (mapping.offset? pc).bind rule.lookup = none ↔
      pc < mapping.loadBase ∨ rule.image.size ≤ pc - mapping.loadBase := by
    intro rule
    unfold Mapping.offset? Word.sub?
    split
    case isTrue above =>
      rw [Option.bind_some, Rule.lookup_eq_none_iff, or_iff_right (UInt64.not_lt.mpr above)]
    case isFalse below =>
      exact iff_of_true rfl (Or.inl (UInt64.not_le.mp below))
  unfold LiesOutside
  simp only [outside]

namespace Event

/-- Behind the history the event asks whether the code at `pc` of the mapping needs instrumentation:
outright, or by translating it in the block that the history has left open. -/
def Evaluates (policy : Policy) (history : List Event) (event : Event) (mapping : Mapping)
    (pc : Address) : Prop :=
  (∃ path, event = needed path mapping pc) ∨
    ∃ path block inside, event = instructionStart path block pc ∧
      Tracks policy history block mapping inside

/-- Behind the history the event brings up the mapping: a path moves there, or code of it is asked
about. -/
def BringsUp (policy : Policy) (history : List Event) (event : Event) (mapping : Mapping) : Prop :=
  (∃ path origin, event = transition path origin (some mapping)) ∨
    ∃ pc, event.Evaluates policy history mapping pc

/-- Some question among the events is about a mapping of the module, and about an address outside
the image of the rule that governs the mapping. -/
def AskedOutside (policy : Policy) (events : List Event) (module : String) : Prop :=
  Occurs events fun history event => ∃ mapping pc, event.Evaluates policy history mapping pc ∧
    (∃ rule ∈ (policy.rules.resolve mapping).bind policy.rules.get?,
      pc < mapping.loadBase ∨ rule.image.size ≤ pc - mapping.loadBase) ∧ mapping.module = module

/-- Some event brings up a mapping of the module whose size is not that of the image of the rule
that governs the mapping. -/
def WronglySized (policy : Policy) (events : List Event) (module : String) : Prop :=
  Occurs events fun history event => ∃ mapping, event.BringsUp policy history mapping ∧
    policy.rules.Mismatches mapping ∧ mapping.module = module

end Event

namespace Fleet

variable {policy : Policy} {fleet : Fleet}

/-- In a run that began without an open block, the block that is open behind a history is the one
that the history tracks. -/
theorem opened_run_iff (reachable : fleet.paths.Reachable policy.rules)
    (closed : fleet.monitor.openBlock = none) (history : List Event) (block : BlockId)
    (mapping : Mapping) :
    (∃ opened, (fleet.run policy history).fleet.monitor.openBlock = some opened ∧
        opened.block = block ∧ opened.mapping = mapping) ↔
      ∃ inside, Event.Tracks policy history block mapping inside := by
  constructor
  · rintro ⟨opened, isOpen, rfl, rfl⟩
    exact tracks_of_openBlock_run reachable closed isOpen
  · rintro ⟨inside, tracks⟩
    exact ⟨_, openBlock_run_of_tracks reachable tracks, rfl, rfl⟩

/-- What an event asks about is what the history says that it evaluates. -/
theorem asked?_run_iff (reachable : fleet.paths.Reachable policy.rules)
    (closed : fleet.monitor.openBlock = none) (history : List Event) (event : Event)
    (mapping : Mapping) (pc : Address) :
    event.asked? (fleet.run policy history).fleet.monitor.openBlock = some (mapping, pc) ↔
      event.Evaluates policy history mapping pc := by
  unfold Event.Evaluates
  cases event with
  | instructionStart path block address =>
      have opened := opened_run_iff reachable closed history block mapping
      simp only [Event.asked?, Option.map_eq_some_iff, Option.filter_eq_some_iff, beq_iff_eq,
        Prod.mk.injEq, Event.instructionStart.injEq, reduceCtorEq, exists_false, false_or]
      constructor
      · rintro ⟨found, ⟨isOpen, named⟩, placed, rfl⟩
        obtain ⟨inside, tracks⟩ := opened.mp ⟨found, isOpen, named, placed⟩
        exact ⟨path, block, inside, ⟨rfl, rfl, rfl⟩, tracks⟩
      · rintro ⟨_, _, inside, ⟨rfl, rfl, rfl⟩, tracks⟩
        obtain ⟨found, isOpen, named, placed⟩ := opened.mpr ⟨inside, tracks⟩
        exact ⟨found, ⟨isOpen, named⟩, placed, rfl⟩
  | needed path asked address => simp [Event.asked?]
  | _ => simp [Event.asked?]

/-- What an event compares is what the history says that it brings up. -/
theorem compared?_run_iff (reachable : fleet.paths.Reachable policy.rules)
    (closed : fleet.monitor.openBlock = none) (history : List Event) (event : Event)
    (mapping : Mapping) :
    event.compared? (fleet.run policy history).fleet.monitor.openBlock = some mapping ↔
      event.BringsUp policy history mapping := by
  unfold Event.BringsUp
  simp only [← asked?_run_iff reachable closed]
  cases event with
  | transition path origin destination => simp [Event.compared?, Event.asked?]
  | _ => simp [Event.compared?]

/-- A monitor that had no cause for a complaint before a run complains about the modules that the
events of the run and the rules tell. -/
theorem complaints_run_of_fresh {paths : Paths} (reachable : paths.Reachable policy.rules)
    (events : List Event) (module : String) :
    (module ∈ (run policy ⟨.fresh, paths⟩ events).fleet.monitor.outOfBounds ↔
        Event.AskedOutside policy events module) ∧
      (module ∈ (run policy ⟨.fresh, paths⟩ events).fleet.monitor.sizeMismatches ↔
        Event.WronglySized policy events module) := by
  let start : Fleet := ⟨.fresh, paths⟩
  have noneOutside : module ∉ start.monitor.outOfBounds := Std.ExtTreeSet.not_mem_empty
  have noneMismatched : module ∉ start.monitor.sizeMismatches := Std.ExtTreeSet.not_mem_empty
  have asked := @asked?_run_iff policy start reachable rfl
  have compared := @compared?_run_iff policy start reachable rfl
  obtain ⟨bounds, sizes⟩ := @complaints_run policy start reachable events module
  rw [or_iff_right noneOutside] at bounds
  rw [or_iff_right noneMismatched] at sizes
  refine ⟨bounds.trans (occurs_congr ?_), sizes.trans (occurs_congr ?_)⟩
  · intro history event
    unfold Event.StraysFrom
    simp only [asked, RuleSet.liesOutside_iff]
  · intro history event
    unfold Event.Misfits
    simp only [compared]

end Fleet

end InstrumentScope
