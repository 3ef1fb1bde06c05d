import InstrumentScope.Proofs.Locality
import Mathlib.Data.List.Induction

/-!
Contract: which modules a monitor has complained about.

A monitor complains about a module once. Which modules it has complained about
does not depend on when, or on which path, they gave cause: an event adds the
module that it gives cause about, or nothing.

Owns:
- the causes for a complaint, from the rules alone;
- the complaints after an event and after a run, in particular one that translates nothing.

Does not own:
- causes told by the history of a run (`Causes`);
- the notices that complaints come with (`Warnings`).
-/

namespace InstrumentScope

/-- Some item of the list, behind the items before it, is as told. -/
def Occurs {α : Type} (items : List α) (told : List α → α → Prop) : Prop :=
  ∃ history item later, items = history ++ item :: later ∧ told history item

theorem not_occurs_nil {α : Type} (told : List α → α → Prop) : ¬ Occurs [] told := by
  rintro ⟨history, item, later, split, _⟩
  exact List.append_ne_nil_of_right_ne_nil history (List.cons_ne_nil item later) split.symm

/-- The item that comes last is behind all the others, which stand as they stood without it. -/
theorem occurs_concat {α : Type} {items : List α} {last : α} {told : List α → α → Prop} :
    Occurs (items ++ [last]) told ↔ Occurs items told ∨ told items last := by
  constructor
  · rintro ⟨history, item, later, split, holds⟩
    rcases List.eq_nil_or_concat later with rfl | ⟨before, final, rfl⟩
    · obtain ⟨rfl, same⟩ := List.append_inj' split rfl
      obtain rfl := List.singleton_inj.mp same
      exact Or.inr holds
    · have regrouped : items ++ [last] = (history ++ item :: before) ++ [final] := by
        simpa using split
      exact Or.inl ⟨history, item, before, (List.append_inj' regrouped rfl).1, holds⟩
  · rintro (⟨history, item, later, rfl, holds⟩ | holds)
    · exact ⟨history, item, later ++ [last], by simp, holds⟩
    · exact ⟨items, last, [], rfl, holds⟩

theorem occurs_congr {α : Type} {items : List α} {told other : List α → α → Prop}
    (same : ∀ history item, told history item ↔ other history item) :
    Occurs items told ↔ Occurs items other := by
  unfold Occurs
  simp only [same]

/-- Where the history makes no difference, it is enough to look at the items. -/
theorem occurs_iff_exists_mem {α : Type} {items : List α} {told : List α → α → Prop}
    {isTold : α → Prop} (same : ∀ item ∈ items, ∀ history, told history item ↔ isTold item) :
    Occurs items told ↔ ∃ item ∈ items, isTold item := by
  constructor
  · rintro ⟨history, item, later, rfl, holds⟩
    have member : item ∈ history ++ item :: later := by simp
    exact ⟨item, member, (same item member history).mp holds⟩
  · rintro ⟨item, member, holds⟩
    obtain ⟨history, later, split⟩ := List.append_of_mem member
    exact ⟨history, item, later, split, (same item member history).mpr holds⟩

/-- A rule governs the mapping, and the address lies outside the image of that rule. -/
def RuleSet.LiesOutside (rules : RuleSet) (mapping : Mapping) (pc : Address) : Prop :=
  ∃ rule ∈ (rules.resolve mapping).bind rules.get?, (mapping.offset? pc).bind rule.lookup = none

instance (rules : RuleSet) (mapping : Mapping) (pc : Address) :
    Decidable (rules.LiesOutside mapping pc) :=
  inferInstanceAs (Decidable (∃ rule ∈ (rules.resolve mapping).bind rules.get?,
    (mapping.offset? pc).bind rule.lookup = none))

/-- A rule governs the mapping, and its image has another size. -/
def RuleSet.Mismatches (rules : RuleSet) (mapping : Mapping) : Prop :=
  ∃ rule ∈ (rules.resolve mapping).bind rules.get?, mapping.size ≠ rule.image.size

instance (rules : RuleSet) (mapping : Mapping) : Decidable (rules.Mismatches mapping) :=
  inferInstanceAs (Decidable (∃ rule ∈ (rules.resolve mapping).bind rules.get?,
    mapping.size ≠ rule.image.size))

namespace RuleSet

variable {rules : RuleSet} {mapping : Mapping}

theorem liesOutside_of_governed {rule : Rule}
    (governed : (rules.resolve mapping).bind rules.get? = some rule) (pc : Address) :
    rules.LiesOutside mapping pc ↔ (mapping.offset? pc).bind rule.lookup = none := by
  unfold LiesOutside
  rw [governed]
  simp only [Option.mem_some_iff, exists_eq_left']

theorem mismatches_of_governed {rule : Rule}
    (governed : (rules.resolve mapping).bind rules.get? = some rule) :
    rules.Mismatches mapping ↔ mapping.size ≠ rule.image.size := by
  unfold Mismatches
  rw [governed]
  simp only [Option.mem_some_iff, exists_eq_left']

/-- About a mapping that no rule governs there is nothing to complain. -/
theorem faultless_of_ungoverned (ungoverned : (rules.resolve mapping).bind rules.get? = none)
    (pc : Address) : ¬ rules.LiesOutside mapping pc ∧ ¬ rules.Mismatches mapping := by
  unfold LiesOutside Mismatches
  rw [ungoverned]
  simp

end RuleSet

namespace Event

/-- The address that the event asks about, and its mapping: that of the open block for one of its
instructions. -/
def asked? (opened : Option OpenBlock) : Event → Option (Mapping × Address)
  | needed _ mapping pc => some (mapping, pc)
  | instructionStart _ block pc =>
      (opened.filter (·.block == block)).map fun opened => (opened.mapping, pc)
  | _ => none

/-- The mapping whose size the event compares with that of its rule's image. -/
def compared? (opened : Option OpenBlock) : Event → Option Mapping
  | transition _ _ destination => destination
  | event => (event.asked? opened).map Prod.fst

/-- The event asks about an address outside the image of the rule for its mapping, which is a
mapping of `module`. -/
def StraysFrom (rules : RuleSet) (opened : Option OpenBlock) (event : Event)
    (module : String) : Prop :=
  ∃ mapping pc, event.asked? opened = some (mapping, pc) ∧ rules.LiesOutside mapping pc ∧
    mapping.module = module

/-- The event compares the size of a mapping of `module` and finds it to differ. -/
def Misfits (rules : RuleSet) (opened : Option OpenBlock) (event : Event)
    (module : String) : Prop :=
  ∃ mapping, event.compared? opened = some mapping ∧ rules.Mismatches mapping ∧
    mapping.module = module

variable {rules : RuleSet} {opened : Option OpenBlock} {event : Event}

theorem not_straysFrom_of_unasked (unasked : event.asked? opened = none) (module : String) :
    ¬ event.StraysFrom rules opened module := by
  unfold StraysFrom
  rw [unasked]
  simp

theorem not_misfits_of_uncompared (uncompared : event.compared? opened = none)
    (module : String) : ¬ event.Misfits rules opened module := by
  unfold Misfits
  rw [uncompared]
  simp

theorem straysFrom_of_asked {mapping : Mapping} {pc : Address}
    (asked : event.asked? opened = some (mapping, pc)) (module : String) :
    event.StraysFrom rules opened module ↔
      rules.LiesOutside mapping pc ∧ mapping.module = module := by
  unfold StraysFrom
  rw [asked]
  constructor
  · rintro ⟨found, address, same, outside, named⟩
    obtain ⟨rfl, rfl⟩ := Prod.mk.inj (Option.some.inj same)
    exact ⟨outside, named⟩
  · rintro ⟨outside, named⟩
    exact ⟨mapping, pc, rfl, outside, named⟩

theorem misfits_of_compared {mapping : Mapping}
    (compared : event.compared? opened = some mapping) (module : String) :
    event.Misfits rules opened module ↔ rules.Mismatches mapping ∧ mapping.module = module := by
  unfold Misfits
  rw [compared]
  simp

/-- Between the two monitors the event adds the modules it gives cause about, and no others. -/
structure AddsComplaints (rules : RuleSet) (event : Event) (before after : Monitor) : Prop where
  outOfBounds : ∀ module, module ∈ after.outOfBounds ↔
    module ∈ before.outOfBounds ∨ event.StraysFrom rules before.openBlock module
  sizeMismatches : ∀ module, module ∈ after.sizeMismatches ↔
    module ∈ before.sizeMismatches ∨ event.Misfits rules before.openBlock module

/-- An event that gives no cause leaves the complaints as they are. -/
theorem addsComplaints_of_quiet {before after : Monitor}
    (unasked : event.asked? before.openBlock = none)
    (uncompared : event.compared? before.openBlock = none)
    (sameBounds : after.outOfBounds = before.outOfBounds)
    (sameSizes : after.sizeMismatches = before.sizeMismatches) :
    event.AddsComplaints rules before after where
  outOfBounds module := by
    rw [sameBounds, or_iff_left (not_straysFrom_of_unasked unasked module)]
  sizeMismatches module := by
    rw [sameSizes, or_iff_left (not_misfits_of_uncompared uncompared module)]

/-- Outside the translation of blocks the causes are the same whichever block is open. -/
theorem causes_of_plain (plain : event.isTranslation = false) (rules : RuleSet)
    (opened : Option OpenBlock) (module : String) :
    (event.StraysFrom rules opened module ↔ event.StraysFrom rules none module) ∧
      (event.Misfits rules opened module ↔ event.Misfits rules none module) := by
  cases event with
  | instructionStart path block pc => contradiction
  | _ => exact ⟨Iff.rfl, Iff.rfl⟩

end Event

namespace Monitor

variable {policy : Policy} {path : Path} (monitor : Monitor)

/-- Comparing sizes adds the module if they differ, and is no question about an address. -/
theorem complaints_checkSize (mapping : Mapping) (rule : Rule) :
    (monitor.checkSize mapping rule).monitor.outOfBounds = monitor.outOfBounds ∧
      ∀ module, module ∈ (monitor.checkSize mapping rule).monitor.sizeMismatches ↔
        module ∈ monitor.sizeMismatches ∨
          mapping.size ≠ rule.image.size ∧ mapping.module = module := by
  unfold checkSize
  split
  case isTrue known =>
    refine ⟨rfl, ?_⟩
    intro module
    constructor
    · exact Or.inl
    · rintro (before | ⟨differs, rfl⟩)
      · exact before
      · exact Std.ExtTreeSet.contains_iff_mem.mp (known.resolve_left differs)
  case isFalse fresh =>
    refine ⟨rfl, ?_⟩
    intro module
    have differs : mapping.size ≠ rule.image.size := fun same => fresh (Or.inl same)
    show module ∈ monitor.sizeMismatches.insert mapping.module ↔ _
    rw [Std.ExtTreeSet.mem_insert, Std.LawfulEqCmp.compare_eq_iff_eq, or_comm,
      and_iff_right differs]

/-- Taking note of an address adds the module, and compares no sizes. -/
theorem complaints_reportOutOfBounds (options : Options) (mapping : Mapping) (pc : Address) :
    (monitor.reportOutOfBounds options mapping pc).monitor.sizeMismatches =
        monitor.sizeMismatches ∧
      ∀ module, module ∈ (monitor.reportOutOfBounds options mapping pc).monitor.outOfBounds ↔
        module ∈ monitor.outOfBounds ∨ mapping.module = module := by
  unfold reportOutOfBounds
  split
  case isTrue known =>
    refine ⟨rfl, ?_⟩
    intro module
    constructor
    · exact Or.inl
    · rintro (before | rfl)
      · exact before
      · exact Std.ExtTreeSet.contains_iff_mem.mp known
  case isFalse =>
    refine ⟨rfl, ?_⟩
    intro module
    show module ∈ monitor.outOfBounds.insert mapping.module ↔ _
    rw [Std.ExtTreeSet.mem_insert, Std.LawfulEqCmp.compare_eq_iff_eq, or_comm]

/-- A question adds the module if the address lies outside, and if its mapping's size differs. -/
theorem complaints_needed (coherent : path.Coherent policy.rules) (mapping : Mapping)
    (pc : Address) (module : String) :
    (module ∈ (monitor.needed policy path mapping pc).monitor.outOfBounds ↔
        module ∈ monitor.outOfBounds ∨
          policy.rules.LiesOutside mapping pc ∧ mapping.module = module) ∧
      (module ∈ (monitor.needed policy path mapping pc).monitor.sizeMismatches ↔
        module ∈ monitor.sizeMismatches ∨
          policy.rules.Mismatches mapping ∧ mapping.module = module) := by
  obtain ⟨resolved, _⟩ := Path.activate_of_coherent coherent mapping
  unfold needed
  dsimp only
  rw [resolved]
  cases governed : (policy.rules.resolve mapping).bind policy.rules.get? with
  | none =>
      obtain ⟨inside, fits⟩ := RuleSet.faultless_of_ungoverned governed pc
      simp [inside, fits]
  | some rule =>
      obtain ⟨unasked, compared⟩ := monitor.complaints_checkSize mapping rule
      rw [RuleSet.liesOutside_of_governed governed, RuleSet.mismatches_of_governed governed]
      dsimp only
      cases (mapping.offset? pc).bind rule.lookup with
      | some isSelected => simp [unasked, compared]
      -- The sizes are compared first, so one question may add the module to both sets.
      | none =>
          obtain ⟨kept, asked⟩ := (monitor.checkSize mapping rule).monitor
            |>.complaints_reportOutOfBounds policy.options mapping pc
          simp [kept, asked, unasked, compared]

/-- A transition adds the module of its destination if the size differs. -/
theorem complaints_transition (coherent : path.Coherent policy.rules)
    (origin destination : Option Mapping) (module : String) :
    (monitor.transition policy path origin destination).monitor.outOfBounds =
        monitor.outOfBounds ∧
      (module ∈ (monitor.transition policy path origin destination).monitor.sizeMismatches ↔
        module ∈ monitor.sizeMismatches ∨
          ∃ mapping ∈ destination, policy.rules.Mismatches mapping ∧ mapping.module = module) := by
  unfold transition
  cases destination with
  | none => simp
  | some mapping =>
      have entered : (path.enter policy.rules mapping).rule = policy.rules.resolve mapping :=
        (Path.activate_of_coherent coherent mapping).1
      dsimp only
      rw [entered]
      cases governed : (policy.rules.resolve mapping).bind policy.rules.get? with
      | none =>
          obtain ⟨_, fits⟩ := RuleSet.faultless_of_ungoverned governed 0
          simp [fits]
      | some rule =>
          obtain ⟨unasked, compared⟩ := monitor.complaints_checkSize mapping rule
          simp [unasked, compared, RuleSet.mismatches_of_governed governed]

theorem complaints_blockStart (mapping : Option Mapping) (block : BlockId) (pc : Address) :
    (monitor.blockStart policy path mapping block pc).monitor.outOfBounds =
        monitor.outOfBounds ∧
      (monitor.blockStart policy path mapping block pc).monitor.sizeMismatches =
        monitor.sizeMismatches := by
  unfold blockStart
  split <;> exact ⟨rfl, rfl⟩

theorem complaints_blockEnd (block : BlockId) (pc : Address) :
    (monitor.blockEnd policy block pc).monitor.outOfBounds = monitor.outOfBounds ∧
      (monitor.blockEnd policy block pc).monitor.sizeMismatches = monitor.sizeMismatches := by
  unfold blockEnd
  split
  · exact ⟨rfl, rfl⟩
  · dsimp only
    split <;> exact ⟨rfl, rfl⟩

/-- An instruction of the open block complains as the question that it asks. -/
theorem complaints_instructionStart_of_opened {block : BlockId} {opened : OpenBlock}
    (isOpened : monitor.openBlock.filter (·.block == block) = some opened) (pc : Address) :
    (monitor.instructionStart policy path block pc).monitor.outOfBounds =
        (monitor.needed policy path opened.mapping pc).monitor.outOfBounds ∧
      (monitor.instructionStart policy path block pc).monitor.sizeMismatches =
        (monitor.needed policy path opened.mapping pc).monitor.sizeMismatches := by
  unfold instructionStart
  rw [isOpened]
  dsimp only
  split <;> exact ⟨rfl, rfl⟩

end Monitor

namespace Fleet

variable {policy : Policy} {fleet : Fleet}

/-- A monitor complains about what the event gives cause for. -/
theorem addsComplaints_step (reachable : fleet.paths.Reachable policy.rules) (event : Event) :
    event.AddsComplaints policy.rules fleet.monitor
      (fleet.step policy event).fleet.monitor := by
  cases event with
  | onPaths event => exact Event.addsComplaints_of_quiet rfl rfl rfl rfl
  | transition path origin destination =>
      have coherent := Path.coherent_of_reachable (reachable path)
      have compared := fleet.monitor.complaints_transition coherent origin destination
      constructor
      · intro module
        rw [or_iff_left (Event.not_straysFrom_of_unasked rfl module)]
        exact Eq.to_iff (congrArg (module ∈ ·) (compared module).1)
      · intro module
        exact (compared module).2
  | needed path mapping pc =>
      have coherent := Path.coherent_of_reachable (reachable path)
      have asked := fleet.monitor.complaints_needed coherent mapping pc
      constructor
      · intro module
        rw [Event.straysFrom_of_asked rfl]
        exact (asked module).1
      · intro module
        rw [Event.misfits_of_compared rfl]
        exact (asked module).2
  | execute path pc => exact Event.addsComplaints_of_quiet rfl rfl rfl rfl
  | blockStart path mapping block pc =>
      apply Event.addsComplaints_of_quiet rfl rfl
      · exact (fleet.monitor.complaints_blockStart mapping block pc).1
      · exact (fleet.monitor.complaints_blockStart mapping block pc).2
  | instructionStart path block pc =>
      have coherent := Path.coherent_of_reachable (reachable path)
      cases isOpened : fleet.monitor.openBlock.filter (·.block == block) with
      | none =>
          have asked : (Event.instructionStart path block pc).asked?
              fleet.monitor.openBlock = none := congrArg (Option.map _) isOpened
          have ignored : fleet.monitor.instructionStart policy (fleet.paths.get path) block pc =
              ⟨none, fleet.monitor, fleet.paths.get path, .none⟩ :=
            Monitor.instructionStart_of_unopened isOpened pc
          apply Event.addsComplaints_of_quiet asked (congrArg (Option.map Prod.fst) asked)
          · exact congrArg (·.monitor.outOfBounds) ignored
          · exact congrArg (·.monitor.sizeMismatches) ignored
      | some opened =>
          have asked : (Event.instructionStart path block pc).asked? fleet.monitor.openBlock =
              some (opened.mapping, pc) := congrArg (Option.map _) isOpened
          have compared : (Event.instructionStart path block pc).compared?
              fleet.monitor.openBlock = some opened.mapping := congrArg (Option.map Prod.fst) asked
          have question := fleet.monitor.complaints_needed coherent opened.mapping pc
          obtain ⟨sameBounds, sameSizes⟩ :=
            fleet.monitor.complaints_instructionStart_of_opened isOpened pc
          constructor
          · intro module
            rw [Event.straysFrom_of_asked asked]
            exact (congrArg (module ∈ ·) sameBounds).to_iff.trans (question module).1
          · intro module
            rw [Event.misfits_of_compared compared]
            exact (congrArg (module ∈ ·) sameSizes).to_iff.trans (question module).2
  | blockEnd block pc =>
      apply Event.addsComplaints_of_quiet rfl rfl
      · exact (fleet.monitor.complaints_blockEnd block pc).1
      · exact (fleet.monitor.complaints_blockEnd block pc).2

/-- The modules complained about are those that some event of the run gave cause about, behind the
block that was open then. -/
theorem complaints_run (reachable : fleet.paths.Reachable policy.rules) (events : List Event)
    (module : String) :
    (module ∈ (fleet.run policy events).fleet.monitor.outOfBounds ↔
        module ∈ fleet.monitor.outOfBounds ∨ Occurs events fun history event =>
          event.StraysFrom policy.rules
            (fleet.run policy history).fleet.monitor.openBlock module) ∧
      (module ∈ (fleet.run policy events).fleet.monitor.sizeMismatches ↔
        module ∈ fleet.monitor.sizeMismatches ∨ Occurs events fun history event =>
          event.Misfits policy.rules
            (fleet.run policy history).fleet.monitor.openBlock module) := by
  -- The block that is open depends on all events so far, so the last event is taken off.
  induction events using List.reverseRecOn with
  | nil => simp [run, not_occurs_nil]
  | append_singleton events last inductionHypothesis =>
      have added := addsComplaints_step (reachable_run reachable events) last
      rw [run_append]
      dsimp only [run]
      rw [added.outOfBounds, added.sizeMismatches, inductionHypothesis.1, inductionHypothesis.2,
        or_assoc, or_assoc, occurs_concat, occurs_concat]
      exact ⟨Iff.rfl, Iff.rfl⟩

/-- After a run that translates nothing a monitor has complained about what it had complained about
before, and about what some event gave cause for. -/
theorem complaints_run_of_plain (reachable : fleet.paths.Reachable policy.rules)
    {events : List Event} (plain : ∀ event ∈ events, event.isTranslation = false)
    (module : String) :
    (module ∈ (fleet.run policy events).fleet.monitor.outOfBounds ↔
        module ∈ fleet.monitor.outOfBounds ∨
          ∃ event ∈ events, event.StraysFrom policy.rules none module) ∧
      (module ∈ (fleet.run policy events).fleet.monitor.sizeMismatches ↔
        module ∈ fleet.monitor.sizeMismatches ∨
          ∃ event ∈ events, event.Misfits policy.rules none module) := by
  obtain ⟨bounds, sizes⟩ := complaints_run reachable events module
  refine ⟨bounds.trans (or_congr_right (occurs_iff_exists_mem ?_)),
    sizes.trans (or_congr_right (occurs_iff_exists_mem ?_))⟩
  · intro event member history
    exact (Event.causes_of_plain (plain event member) policy.rules _ module).1
  · intro event member history
    exact (Event.causes_of_plain (plain event member) policy.rules _ module).2

end Fleet

end InstrumentScope
