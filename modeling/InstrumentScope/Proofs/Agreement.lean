import InstrumentScope.Proofs.BlockSignals
import InstrumentScope.Proofs.TwoPhase

/-!
Contract: what a block was translated for is what running it decides.

A block is translated once, on some path, and its signals are left in the code.
It runs later, on any path, and an instruction that is checked is decided again
from what that path remembers. The two decisions are taken by different means,
at different times and from different memories, but for one mapping they are
the same.

Owns:
- the signals of a block, tracked or not, after each of its instructions;
- the agreement of a path that runs a block with the signals of the block, and
  with every question asked about its mapping.

Does not own:
- paths that run the block in another mapping of its module (`TwoPhase`).
-/

namespace InstrumentScope

/-- A path decides what the rules decide for the mapping it is in. -/
theorem Path.isInstrumented_of_current {rules : RuleSet} {path : Path}
    (reachable : path.Reachable rules) {mapping : Mapping} (isCurrent : path.current = some mapping)
    (pc : Address) : path.isInstrumented rules pc = rules.decides mapping pc := by
  rw [isInstrumented_of_coherent (coherent_of_reachable reachable), isCurrent, Option.any_some]

theorem block_of_mem_changes {block : BlockId} {need : Address → Bool} {mode : Option Bool}
    {addresses : List Address} {mark : SignalMark}
    (member : mark ∈ changes block need mode addresses) : mark.block = block := by
  induction addresses generalizing mode with
  | nil => simp [changes] at member
  | cons pc rest inductionHypothesis =>
      rw [changes] at member
      split at member
      case isTrue => exact inductionHypothesis member
      case isFalse =>
        rcases List.mem_cons.mp member with rfl | inRest
        · rfl
        · exact inductionHypothesis inRest

/-- If the changes of a block are all that was sent, all of it was sent for the block. -/
theorem Transcript.forBlock_of_changes {transcript : Transcript} {block : BlockId}
    {need : Address → Bool} {mode : Option Bool} {addresses : List Address}
    (sent : transcript.signals = changes block need mode addresses) :
    transcript.forBlock block = changes block need mode addresses := by
  rw [← sent]
  apply List.filter_eq_self.mpr
  intro mark member
  rw [sent] at member
  exact beq_iff_eq.mpr (block_of_mem_changes member)

/-- The mode that a block begins in is never the instrumented one. -/
theorem Options.startMode_ne_instrumented (options : Options) :
    options.startMode ≠ some true := by
  unfold startMode
  split <;> simp

namespace Fleet

variable {policy : Policy} {fleet : Fleet}

/-- While no block is open and none begins, no signal is left. -/
theorem signals_run_of_closed (closed : fleet.monitor.openBlock = none) {events : List Event}
    (unbegun : ∀ name mapping block pc, Event.blockStart name mapping block pc ∉ events) :
    (fleet.run policy events).signals = [] := by
  induction events generalizing fleet with
  | nil => rfl
  | cons event rest inductionHypothesis =>
      have unmarked : (fleet.step policy event).effects.marks = [] := by
        apply marks_step_of_ignored
        intro opened isOpen
        rw [closed] at isOpen
        contradiction
      have stillClosed : (fleet.step policy event).fleet.monitor.openBlock = none := by
        apply openBlock_step_of_none closed
        rintro name mapping block pc rfl
        exact unbegun name mapping block pc List.mem_cons_self
      have restUnbegun : ∀ name mapping block pc,
          Event.blockStart name mapping block pc ∉ rest := by
        intro name mapping block pc member
        exact unbegun name mapping block pc (List.mem_cons_of_mem event member)
      rw [signals_run_cons, signals_eq_nil unmarked, inductionHypothesis stillClosed restUnbegun]
      rfl

/-- All signals that the translation of a block leaves up to an instruction are signals of the
block, and they lead to what the instruction needs. The translation of a block of an unselected
module leaves none. -/
theorem replay_translation (reachable : fleet.paths.Reachable policy.rules)
    (starter translator : String) (mapping : Mapping) (block : BlockId) (start pc : Address)
    {before : List Event} (stays : ∀ event ∈ before, event.StaysIn block) :
    let translation := Event.blockStart starter (some mapping) block start ::
      (before ++ [.instructionStart translator block pc])
    let marks := (fleet.run policy translation).effects.marks
    let received := ((Transcript.ofMarks marks).forBlock block).map (·.signal)
    Signal.replay policy.options.startMode received =
      if policy.coverage.isSelected mapping.module = true then
        some (policy.rules.decides mapping pc)
      else policy.options.startMode := by
  intro translation marks received
  let opening := (fleet.step policy (.blockStart starter (some mapping) block start)).fleet
  let inside := before ++ [Event.instructionStart translator block pc]
  have insideStays : ∀ event ∈ inside, event.StaysIn block := by
    intro event member
    rcases List.mem_append.mp member with inBefore | last
    · exact stays event inBefore
    · rw [List.mem_singleton.mp last]
      exact trivial
  have sent : (Transcript.ofMarks marks).signals = (opening.run policy inside).signals := by
    refine (signals_run_cons _ inside).trans ?_
    rw [signals_eq_nil (openBlock_step_blockStart starter (some mapping) block start).2]
    exact List.nil_append _
  by_cases selected : policy.coverage.isSelected mapping.module = true
  · have begun : opening.monitor.openBlock = some ⟨block, mapping, policy.options.startMode⟩ :=
      openBlock_step_blockStart_of_selected starter selected block start
    rw [signals_run_of_stays (reachable_step reachable _) begun insideStays] at sent
    have last : Event.translated block inside = Event.translated block before ++ [pc] := by
      simp [Event.translated, inside, Event.addressIn]
    rw [if_pos selected]
    show Signal.replay policy.options.startMode
      (((Transcript.ofMarks marks).forBlock block).map (·.signal)) = _
    rw [Transcript.forBlock_of_changes sent, replay_changes, last, List.map_append,
      List.map_singleton, modeAfter_concat]
  · have closed : opening.monitor.openBlock = none := by
      rw [(openBlock_step_blockStart starter (some mapping) block start).1, Option.filter_some,
        if_neg selected]
      rfl
    have unbegun : ∀ name mapping block pc,
        Event.blockStart name mapping block pc ∉ inside := by
      intro name mapping other pc member
      exact insideStays _ member
    rw [signals_run_of_closed closed unbegun] at sent
    rw [if_neg selected]
    show Signal.replay policy.options.startMode
      (((Transcript.ofMarks marks).signals.filter (·.block == block)).map (·.signal)) = _
    rw [sent]
    rfl

end Fleet

/-- Let a block be translated for a mapping, in whatever state the monitor is and whatever happens
meanwhile, and let any path run it in that mapping. At each instruction that was translated the path
is told to run instrumented exactly if the signals of the block up to there lead to it. Indeed the
path instruments an address of the mapping exactly if the mapping needs it on any other path. -/
theorem execution_follows_translation {rules : RuleSet} (built : rules.Reachable)
    (options : Options) {fleet : Fleet} (reachable : fleet.paths.Reachable rules)
    (starter translator : String) (mapping : Mapping) (block : BlockId) (start pc : Address)
    {before : List Event} (stays : ∀ event ∈ before, event.StaysIn block) {runner : Path}
    (runs : runner.Reachable rules) (isCurrent : runner.current = some mapping) :
    let policy := Policy.ofRules rules options
    let translation := Event.blockStart starter (some mapping) block start ::
      (before ++ [.instructionStart translator block pc])
    let marks := (fleet.run policy translation).effects.marks
    let received := ((Transcript.ofMarks marks).forBlock block).map (·.signal)
    (Monitor.execute policy runner pc = .enable ↔
      Signal.replay options.startMode received = some true) ∧
    ∀ (monitor : Monitor) (other : Path) (address : Address), other.Reachable rules →
      runner.isInstrumented rules address =
        (monitor.needed policy other mapping address).answer := by
  intro policy translation marks received
  have policyReachable : fleet.paths.Reachable policy.rules := reachable
  have replayed : Signal.replay options.startMode received =
      if policy.coverage.isSelected mapping.module = true then some (rules.decides mapping pc)
      else options.startMode :=
    Fleet.replay_translation policyReachable starter translator mapping block start pc stays
  have executed : Monitor.execute policy runner pc = .enable ↔ rules.decides mapping pc = true := by
    rw [Monitor.execute_eq_enable_iff]
    exact Eq.to_iff (congrArg (· = true) (Path.isInstrumented_of_current runs isCurrent pc))
  constructor
  · rw [executed, replayed]
    by_cases selected : policy.coverage.isSelected mapping.module = true
    · rw [if_pos selected, Option.some.injEq]
    · rw [if_neg selected]
      obtain ⟨kept, holds⟩ := built.exists_holds
      have uncovered : (Coverage.ofRuleSet rules).isSelected mapping.module = false :=
        Bool.eq_false_iff.mpr selected
      have native := RuleSet.decides_of_not_isSelected holds uncovered pc
      exact iff_of_false (by rw [native]; decide) options.startMode_ne_instrumented
  · intro monitor other address otherReachable
    have needed : (monitor.needed policy other mapping address).answer =
        rules.decides mapping address :=
      Monitor.answer_needed (Path.coherent_of_reachable otherReachable) mapping address
    rw [needed]
    exact Path.isInstrumented_of_current runs isCurrent address

/-- A block of the sample module, translated on two paths neither of which runs it. -/
theorem execution_follows_translation_sample :
    let rules := RuleSet.ofSources Sample.sources
    let policy := Policy.ofRules rules .standard
    let elsewhere := { Sample.mapping with context := "pid-2" }
    let before := [.instructionStart "p" ⟨1⟩ 0x7008, .needed "q" elsewhere 0x7010,
      .blockEnd ⟨2⟩ 0x7010, .instructionStart "q" ⟨2⟩ 0x7010]
    let translation := Event.blockStart "p" (some Sample.mapping) ⟨1⟩ 0x7008 ::
      (before ++ [.instructionStart "q" ⟨1⟩ 0x7010])
    let marks := (Fleet.fresh.run policy translation).effects.marks
    let received := ((Transcript.ofMarks marks).forBlock ⟨1⟩).map (·.signal)
    rules.Reachable ∧ (∀ event ∈ before, event.StaysIn ⟨1⟩) ∧ Sample.path.Reachable rules ∧
      Sample.path.current = some Sample.mapping ∧ received = [.enable, .disable] ∧
      Monitor.execute policy Sample.path 0x7010 ≠ .enable ∧
      Sample.path.isInstrumented rules 0x7008 =
        (Monitor.fresh.needed policy .fresh Sample.mapping 0x7008).answer := by
  intro rules policy elsewhere before translation marks received
  have built : rules.Reachable := RuleSet.reachable_ofSources Sample.sources
  have stays : ∀ event ∈ before, event.StaysIn ⟨1⟩ := by simp [before, Event.StaysIn]
  have sent : received = [.enable, .disable] := by decide +kernel
  have reachable : Fleet.fresh.paths.Reachable rules := Paths.reachable_empty rules
  obtain ⟨executed, asked⟩ := execution_follows_translation built .standard reachable "p" "q"
    Sample.mapping ⟨1⟩ 0x7008 0x7010 stays Sample.path_reachable rfl
  refine ⟨built, stays, Sample.path_reachable, rfl, sent, ?_, asked .fresh .fresh 0x7008 .fresh⟩
  intro enabled
  have replayed : Signal.replay Options.standard.startMode received = some true :=
    executed.mp enabled
  rw [sent] at replayed
  exact absurd replayed (by decide)

end InstrumentScope
