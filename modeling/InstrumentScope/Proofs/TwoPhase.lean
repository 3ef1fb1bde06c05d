import InstrumentScope.Proofs.Decision
import InstrumentScope.Proofs.Footprints
import InstrumentScope.Proofs.OpenBlock

/-!
Contract: what translation passes over, no path ever needs.

Translation happens once and for every context, execution happens on a path in
one context. Translation consults the coverage, execution the rule that governs
the path's mapping. A governing rule is one of the rules for its module, so the
coverage errs on the safe side, wherever the module is mapped and whatever size
it is mapped with.

Owns:
- the decision of any mapping is covered;
- native blocks, and the checks left in blocks that are translated.
-/

namespace InstrumentScope

/-- Some rule for the mapped module, in whatever context, selects the code at `pc`. -/
def RuleSet.SelectsAnywhere (rules : RuleSet) (mapping : Mapping) (pc : Address) : Prop :=
  mapping.loadBase ≤ pc ∧ ∃ rule ∈ rules.rules.toList,
    rule.module = mapping.module ∧ rule.lookup (pc - mapping.loadBase) = some true

instance (rules : RuleSet) (mapping : Mapping) (pc : Address) :
    Decidable (rules.SelectsAnywhere mapping pc) := by
  unfold RuleSet.SelectsAnywhere
  infer_instance

namespace RuleSet

variable {rules : RuleSet} {kept : List RuleSource}

theorem selectsAnywhere_congr {mapping other : Mapping}
    (sameModule : other.module = mapping.module) (sameBase : other.loadBase = mapping.loadBase)
    (pc : Address) : rules.SelectsAnywhere other pc ↔ rules.SelectsAnywhere mapping pc := by
  unfold SelectsAnywhere
  rw [sameModule, sameBase]

/-- Code that the rules decide to instrument is selected by one of the rules for its module. -/
theorem selectsAnywhere_of_decides (holds : rules.Holds kept) {mapping : Mapping} {pc : Address}
    (decided : rules.decides mapping pc = true) : rules.SelectsAnywhere mapping pc := by
  obtain ⟨rule, governs, selects⟩ := decides_eq_true_iff.mp decided
  rw [get_resolve holds.wellFormed] at governs
  obtain ⟨member, sameModule, _⟩ := Mapping.governing?_eq_some governs
  obtain ⟨above, selected⟩ := Rule.selects_eq_true_iff.mp selects
  exact ⟨above, rule, member, sameModule, selected⟩

/-- No rule decides for code of a module that is not covered. -/
theorem decides_of_not_isSelected (holds : rules.Holds kept) {mapping : Mapping}
    (uncovered : (Coverage.ofRuleSet rules).isSelected mapping.module = false) (pc : Address) :
    rules.decides mapping pc = false := by
  cases decided : rules.decides mapping pc with
  | false => rfl
  | true =>
      obtain ⟨_, rule, member, sameModule, selected⟩ := selectsAnywhere_of_decides holds decided
      have covered := (Coverage.isSelected_iff holds mapping.module).mpr
        ⟨rule, member, sameModule, pc - mapping.loadBase, selected⟩
      rw [uncovered] at covered
      contradiction

theorem coverage_selects_iff (holds : rules.Holds kept) (mapping : Mapping) (pc : Address) :
    (Coverage.ofRuleSet rules).selects mapping pc = true ↔ rules.SelectsAnywhere mapping pc := by
  rw [Coverage.selects_iff holds]
  unfold SelectsAnywhere
  constructor
  · intro ruled
    rcases ruled with ⟨rule, member, sameModule, selects⟩
    obtain ⟨above, selected⟩ := Rule.selects_eq_true_iff.mp selects
    exact ⟨above, rule, member, sameModule, selected⟩
  · intro somewhere
    rcases somewhere with ⟨above, rule, member, sameModule, selected⟩
    exact ⟨rule, member, sameModule, Rule.selects_eq_true_iff.mpr ⟨above, selected⟩⟩

end RuleSet

theorem Monitor.answer_blockStart_eq_empty {policy : Policy} {monitor : Monitor} {path : Path}
    {mapping : Mapping} {block : BlockId} {pc : Address} :
    (monitor.blockStart policy path (some mapping) block pc).answer = .empty ↔
      policy.coverage.isSelected mapping.module = false := by
  unfold blockStart
  rw [Option.filter_some]
  cases policy.coverage.isSelected mapping.module with
  | false => simp
  | true =>
      simp only [if_true]
      exact iff_of_false (by decide) (by decide)

/-- In a block that is being translated, an instruction is checked, once, exactly if it is
covered. -/
theorem Fleet.checks_of_tracks {policy : Policy} {fleet : Fleet}
    (reachable : fleet.paths.Reachable policy.rules) {events inside : List Event}
    {block : BlockId} {mapping : Mapping}
    (tracks : Event.Tracks policy events block mapping inside) (name : String) (pc : Address) :
    ((fleet.run policy events).fleet.step policy (.instructionStart name block pc)).checks =
      if policy.coverage.selects mapping pc then [⟨block, pc⟩] else [] := by
  have isOpen := openBlock_run_of_tracks reachable tracks
  have coherent := Path.coherent_of_reachable (reachable_run reachable events name)
  obtain ⟨_, _, marks⟩ := Monitor.instructionStart_of_open coherent isOpen pc
  exact congrArg Transcript.checks marks

/-- A block that is left native belongs to a module of which no path ever needs any code. In a block
that is translated for a mapping an instruction is checked, once, exactly if some rule for the
module selects it; so it is checked if the translating path needs it, or if any path does whose
mapping of the module lies at the same address. -/
theorem no_instrumentation_missed {rules : RuleSet} (reachable : rules.Reachable)
    (options : Options) (mapping : Mapping) :
    let policy := Policy.ofRules rules options
    (∀ (monitor : Monitor) (path : Path) (block : BlockId) (start : Address),
      (monitor.blockStart policy path (some mapping) block start).answer = .empty →
      ∀ (other : Mapping) (asked : Monitor) (runner : Path) (pc : Address),
        other.module = mapping.module → runner.Reachable rules →
          (asked.needed policy runner other pc).answer = false ∧
            (runner.current = some other → runner.isInstrumented rules pc = false)) ∧
    (∀ (fleet : Fleet) (events inside : List Event) (block : BlockId) (translator : String)
      (pc : Address),
      fleet.paths.Reachable rules → Event.Tracks policy events block mapping inside →
        let reached := (fleet.run policy events).fleet
        let checks := (reached.step policy (.instructionStart translator block pc)).checks
        checks = (if rules.SelectsAnywhere mapping pc then [⟨block, pc⟩] else []) ∧
          (∀ (runner : Path) (other : Mapping), runner.Reachable rules →
            runner.current = some other → other.module = mapping.module →
            other.loadBase = mapping.loadBase → Monitor.execute policy runner pc = .enable →
              checks = [⟨block, pc⟩]) ∧
          ((reached.monitor.needed policy (reached.paths.get translator) mapping pc).answer =
              true → checks = [⟨block, pc⟩])) := by
  intro policy
  obtain ⟨kept, holds⟩ := reachable.exists_holds
  constructor
  · intro monitor path block start native other asked runner pc sameModule runs
    have uncovered := Monitor.answer_blockStart_eq_empty.mp native
    rw [← sameModule] at uncovered
    have undecided := RuleSet.decides_of_not_isSelected holds uncovered pc
    have coherent : runner.Coherent policy.rules := Path.coherent_of_reachable runs
    constructor
    · exact (Monitor.answer_needed coherent other pc).trans undecided
    · intro isCurrent
      refine (Path.isInstrumented_of_coherent coherent pc).trans ?_
      rw [isCurrent, Option.any_some]
      exact undecided
  · intro fleet events inside block translator pc paths tracks reached checks
    have recorded : checks =
        if rules.SelectsAnywhere mapping pc then [⟨block, pc⟩] else [] := by
      refine (Fleet.checks_of_tracks paths tracks translator pc).trans ?_
      simp only [← RuleSet.coverage_selects_iff holds]
      rfl
    refine ⟨recorded, ?_, ?_⟩
    · intro runner other runs isCurrent sameModule sameBase enabled
      have coherent : runner.Coherent rules := Path.coherent_of_reachable runs
      have decided : runner.isInstrumented rules pc = true :=
        Monitor.execute_eq_enable_iff.mp enabled
      rw [Path.isInstrumented_of_coherent coherent, isCurrent, Option.any_some] at decided
      have selected := (RuleSet.selectsAnywhere_congr sameModule sameBase pc).mp
        (RuleSet.selectsAnywhere_of_decides holds decided)
      rw [recorded, if_pos selected]
    · intro needed
      have reachedPaths : reached.paths.Reachable policy.rules := Fleet.reachable_run paths events
      have coherent := Path.coherent_of_reachable (reachedPaths translator)
      rw [Monitor.answer_needed coherent] at needed
      rw [recorded, if_pos (RuleSet.selectsAnywhere_of_decides holds needed)]

/-- A block of the sample module is translated on a fresh path, in a context other than the one that
runs it; a block of another module is left native. -/
theorem no_instrumentation_missed_sample :
    let rules := RuleSet.ofSources Sample.sources
    let policy := Policy.ofRules rules .standard
    let elsewhere := { Sample.mapping with context := "pid-2" }
    let foreign := { Sample.mapping with module := "lib" }
    let events := [.blockStart "p" (some elsewhere) ⟨1⟩ 0x7000, .instructionStart "p" ⟨1⟩ 0x7000]
    let reached := (Fleet.fresh.run policy events).fleet
    rules.Reachable ∧ Sample.path.Reachable rules ∧
      Event.Tracks policy events ⟨1⟩ elsewhere [.instructionStart "p" ⟨1⟩ 0x7000] ∧
      Monitor.execute policy Sample.path 0x7008 = .enable ∧
      (reached.step policy (.instructionStart "p" ⟨1⟩ 0x7008)).checks = [⟨⟨1⟩, 0x7008⟩] ∧
      (Monitor.fresh.blockStart policy Sample.path (some foreign) ⟨2⟩ 0x7000).answer = .empty ∧
      (Monitor.fresh.needed policy Sample.path foreign 0x7008).answer = false := by
  intro rules policy elsewhere foreign events reached
  have reachable : rules.Reachable := RuleSet.reachable_ofSources Sample.sources
  have tracks : Event.Tracks policy events ⟨1⟩ elsewhere [.instructionStart "p" ⟨1⟩ 0x7000] :=
    ⟨[], "p", 0x7000, rfl, by decide +kernel, by simp [Event.StaysIn]⟩
  have enabled : Monitor.execute policy Sample.path 0x7008 = .enable := by decide +kernel
  have native : (Monitor.fresh.blockStart policy Sample.path (some foreign) ⟨2⟩ 0x7000).answer =
      .empty := by decide +kernel
  have checked := ((no_instrumentation_missed reachable .standard elsewhere).2 .fresh events _ ⟨1⟩
    "p" 0x7008 (Paths.reachable_empty rules) tracks).2.1 Sample.path Sample.mapping
      Sample.path_reachable rfl rfl rfl enabled
  have unneeded := ((no_instrumentation_missed reachable .standard foreign).1 .fresh Sample.path
    ⟨2⟩ 0x7000 native foreign .fresh Sample.path 0x7008 rfl Sample.path_reachable).1
  exact ⟨reachable, Sample.path_reachable, tracks, enabled, checked, native, unneeded⟩

end InstrumentScope
