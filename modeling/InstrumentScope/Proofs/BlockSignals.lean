import InstrumentScope.Proofs.Decision
import InstrumentScope.Proofs.OpenBlock
import Mathlib.Data.List.Chain

/-!
Contract: the signals of a block are the changes of what its instructions need.

Owns:
- the changes of a need along a list of addresses, and that replaying them is
  the need, that they alternate, and that no fewer signals do;
- the signals left while a block is open.

Does not own:
- the signal at the end of a block (`ClosedBlocks`).
-/

namespace InstrumentScope

/-- The mode after signals that are received in a mode. -/
def Signal.replay (mode : Option Bool) (signals : List Signal) : Option Bool :=
  signals.foldl (fun _ signal => some signal.isEnable) mode

/-- The modes after each of some instructions, of which some carry a signal. -/
def Signal.modesUnder (mode : Option Bool) : List (Option Signal) → List (Option Bool)
  | [] => []
  | signal :: rest =>
      let next := (signal.map isEnable).or mode
      next :: modesUnder next rest

/-- The instructions at which the need is another than the mode that the last one left, each with a
signal toward its need. -/
def changes (block : BlockId) (need : Address → Bool) (mode : Option Bool) :
    List Address → List SignalMark
  | [] => []
  | pc :: rest =>
      if mode = some (need pc) then changes block need mode rest
      else ⟨block, pc, .toward (need pc)⟩ :: changes block need (some (need pc)) rest

/-- A signal is due at an instruction if the one before it needed something else. At the first
instruction of a block it is due unless blocks are closed and the instruction is native. -/
def SignalDue (closing : Bool) (earlier : List Bool) (need : Bool) : Prop :=
  match earlier.getLast? with
  | some last => need ≠ last
  | none => need = true ∨ closing = false

instance (closing : Bool) (earlier : List Bool) (need : Bool) :
    Decidable (SignalDue closing earlier need) := by
  unfold SignalDue
  split <;> infer_instance

section Changes

variable (block : BlockId) (need : Address → Bool)

theorem changes_append (mode : Option Bool) (addresses later : List Address) :
    changes block need mode (addresses ++ later) =
      changes block need mode addresses ++
        changes block need (modeAfter mode (addresses.map need)) later := by
  induction addresses generalizing mode with
  | nil => rfl
  | cons pc rest inductionHypothesis =>
      rw [List.cons_append, List.map_cons, modeAfter_cons, changes, changes]
      by_cases inMode : mode = some (need pc)
      · rw [if_pos inMode, if_pos inMode, ← inMode]
        exact inductionHypothesis mode
      · rw [if_neg inMode, if_neg inMode, List.cons_append]
        exact congrArg _ (inductionHypothesis (some (need pc)))

theorem replay_changes (mode : Option Bool) (addresses : List Address) :
    Signal.replay mode ((changes block need mode addresses).map (·.signal)) =
      modeAfter mode (addresses.map need) := by
  induction addresses generalizing mode with
  | nil => rfl
  | cons pc rest inductionHypothesis =>
      rw [List.map_cons, modeAfter_cons, changes]
      by_cases inMode : mode = some (need pc)
      · rw [if_pos inMode, inductionHypothesis, inMode]
      · rw [if_neg inMode, ← inductionHypothesis]
        simp [Signal.replay]

/-- Consecutive changes differ, and the first one leaves the mode that was there before. -/
theorem isChain_changes (mode : Option Bool) (addresses : List Address) :
    ((changes block need mode addresses).map (·.signal)).IsChain (· ≠ ·) ∧
      ∀ first ∈ (changes block need mode addresses).head?,
        mode ≠ some first.signal.isEnable := by
  induction addresses generalizing mode with
  | nil => simp [changes]
  | cons pc rest inductionHypothesis =>
      rw [changes]
      by_cases inMode : mode = some (need pc)
      · rw [if_pos inMode]
        exact inductionHypothesis mode
      · rw [if_neg inMode]
        obtain ⟨chain, leaves⟩ := inductionHypothesis (some (need pc))
        constructor
        · rw [List.map_cons, List.isChain_cons]
          refine ⟨?_, chain⟩
          intro second isSecond same
          rw [List.head?_map] at isSecond
          obtain ⟨mark, isFirst, rfl⟩ := Option.map_eq_some_iff.mp isSecond
          apply leaves mark isFirst
          rw [← same, Signal.isEnable_toward]
        · intro first isFirst
          obtain rfl := Option.some.inj isFirst
          rw [Signal.isEnable_toward]
          exact inMode

/-- Whatever signals take the instructions through their needs, they are no fewer than the
changes. -/
theorem length_changes_le (mode : Option Bool) (addresses : List Address)
    (plan : List (Option Signal))
    (served : Signal.modesUnder mode plan = addresses.map fun pc => some (need pc)) :
    (changes block need mode addresses).length ≤ plan.countP Option.isSome := by
  induction addresses generalizing mode plan with
  | nil => exact Nat.zero_le _
  | cons pc rest inductionHypothesis =>
      cases plan with
      | nil => contradiction
      | cons signal planRest =>
          rw [List.map_cons, Signal.modesUnder, List.cons.injEq] at served
          obtain ⟨reached, servedRest⟩ := served
          rw [reached] at servedRest
          have restCount := inductionHypothesis (some (need pc)) planRest servedRest
          rw [changes, List.countP_cons]
          by_cases inMode : mode = some (need pc)
          · rw [if_pos inMode, inMode]
            exact Nat.le_add_right_of_le restCount
          · rw [if_neg inMode]
            -- The mode has to change here, so the plan cannot do without a signal either.
            cases signal with
            | none => exact absurd reached inMode
            | some signal => exact Nat.succ_le_succ restCount

end Changes

/-- The mode of a block differs from a need exactly if a signal is due. -/
theorem modeAfter_startMode (options : Options) (earlier : List Bool) (need : Bool) :
    modeAfter options.startMode earlier = some need ↔
      ¬ SignalDue options.closeBlocks earlier need := by
  unfold modeAfter SignalDue Options.startMode
  cases earlier.getLast? with
  | none => cases options.closeBlocks <;> cases need <;> simp
  | some last => cases last <;> cases need <;> simp

namespace Fleet

variable {policy : Policy} {fleet : Fleet} {opened : OpenBlock}

/-- An event that neither translates an instruction of the open block nor ends it leaves no mark. -/
theorem marks_step_of_ignored {event : Event}
    (ignored : ∀ opened, fleet.monitor.openBlock = some opened →
      event.StaysIn opened.block ∧ event.addressIn opened.block = none) :
    (fleet.step policy event).effects.marks = [] := by
  cases event with
  | onPaths event => rfl
  | transition name origin destination =>
      exact (Monitor.transition_tracking origin destination).2
  | needed name mapping pc => exact (Monitor.needed_tracking mapping pc).2
  | execute name pc => rfl
  | blockStart name mapping block pc => exact (openBlock_step_blockStart name mapping block pc).2
  | instructionStart name block pc =>
      have foreign : fleet.monitor.Foreign block := by
        intro other otherOpen named
        have unnamed := (ignored other otherOpen).2
        rw [Event.addressIn, if_pos named.symm] at unnamed
        contradiction
      show (fleet.monitor.instructionStart policy (fleet.paths.get name) block
        pc).effects.marks = []
      rw [Monitor.instructionStart_of_foreign foreign]
      rfl
  | blockEnd block pc =>
      have foreign : fleet.monitor.Foreign block := by
        intro other otherOpen named
        exact (ignored other otherOpen).1 named.symm
      show (fleet.monitor.blockEnd policy block pc).marks = []
      rw [Monitor.blockEnd_of_foreign foreign]

theorem marks_step_of_stays (isOpen : fleet.monitor.openBlock = some opened) {event : Event}
    (stays : event.StaysIn opened.block) (unaddressed : event.addressIn opened.block = none) :
    (fleet.step policy event).effects.marks = [] := by
  apply marks_step_of_ignored
  intro other otherOpen
  obtain rfl := Option.some.inj (isOpen.symm.trans otherOpen)
  exact ⟨stays, unaddressed⟩

/-- An instruction of the open block leaves a signal if the block is in another mode than it
needs. -/
theorem signals_step_of_open (reachable : fleet.paths.Reachable policy.rules)
    (isOpen : fleet.monitor.openBlock = some opened) (name : String) (pc : Address) :
    let need := policy.rules.decides opened.mapping pc
    let outcome := fleet.step policy (.instructionStart name opened.block pc)
    outcome.answer =
        .signal (if opened.mode = some need then none else some (.toward need)) ∧
      outcome.signals =
        if opened.mode = some need then [] else [⟨opened.block, pc, .toward need⟩] := by
  have coherent := Path.coherent_of_reachable (reachable name)
  obtain ⟨answered, _, marked⟩ := Monitor.instructionStart_of_open coherent isOpen pc
  exact ⟨congrArg Answer.signal answered, congrArg Transcript.signals marked⟩

/-- While a block stays open the signals of an event are the changes at its instructions. -/
theorem signals_step_of_stays (reachable : fleet.paths.Reachable policy.rules)
    (isOpen : fleet.monitor.openBlock = some opened) {event : Event}
    (stays : event.StaysIn opened.block) :
    (fleet.step policy event).signals =
      changes opened.block (policy.rules.decides opened.mapping) opened.mode
        (event.addressIn opened.block).toList := by
  cases addressed : event.addressIn opened.block with
  | none =>
      exact signals_eq_nil (marks_step_of_stays isOpen stays addressed)
  | some pc =>
      obtain ⟨name, rfl⟩ := Event.eq_instructionStart_of_addressIn addressed
      rw [(signals_step_of_open reachable isOpen name pc).2]
      rfl

/-- The signals left while a block stays open are the changes of what its instructions need. -/
theorem signals_run_of_stays (reachable : fleet.paths.Reachable policy.rules)
    (isOpen : fleet.monitor.openBlock = some opened) {events : List Event}
    (stays : ∀ event ∈ events, event.StaysIn opened.block) :
    (fleet.run policy events).signals =
      changes opened.block (policy.rules.decides opened.mapping) opened.mode
        (Event.translated opened.block events) := by
  induction events generalizing fleet opened with
  | nil => rfl
  | cons event rest inductionHypothesis =>
      have headStays : event.StaysIn opened.block := stays event List.mem_cons_self
      have restStays : ∀ other ∈ rest, other.StaysIn opened.block := by
        intro other member
        exact stays other (List.mem_cons_of_mem event member)
      have moved := openBlock_step_of_stays reachable isOpen headStays
      have later := inductionHypothesis (reachable_step reachable event) moved restStays
      rw [signals_run_cons, signals_step_of_stays reachable isOpen headStays, later]
      unfold Event.translated
      rw [List.filterMap_cons]
      cases event.addressIn opened.block with
      | none => rfl
      | some pc => exact (changes_append _ _ opened.mode [pc] _).symm

/-- An event that names a block which is not open is answered with no signal. -/
theorem answer_step_of_foreign {block : BlockId} (foreign : fleet.monitor.Foreign block)
    (name : String) (pc : Address) :
    (fleet.step policy (.instructionStart name block pc)).answer = .signal none ∧
      (fleet.step policy (.blockEnd block pc)).answer = .signal none := by
  constructor
  · exact congrArg (fun outcome => Answer.signal outcome.answer)
      (Monitor.instructionStart_of_foreign foreign pc)
  · exact congrArg (fun closing => Answer.signal closing.answer)
      (Monitor.blockEnd_of_foreign foreign pc)

/-- At an instruction of a block that has stayed open since it began, a signal is left exactly if it
is due, and the signals since then lead to what the instruction needs. -/
theorem signals_of_instruction (reachable : fleet.paths.Reachable policy.rules) {block : BlockId}
    {mapping : Mapping}
    (begun : fleet.monitor.openBlock = some ⟨block, mapping, policy.options.startMode⟩)
    {before : List Event} (stays : ∀ event ∈ before, event.StaysIn block) (name : String)
    (pc : Address) :
    let earlier := (Event.translated block before).map (policy.rules.decides mapping)
    let need := policy.rules.decides mapping pc
    let due := SignalDue policy.options.closeBlocks earlier need
    let event := Event.instructionStart name block pc
    let outcome := (fleet.run policy before).fleet.step policy event
    let received := (fleet.run policy (before ++ [event])).signals
    outcome.answer = .signal (if due then some (.toward need) else none) ∧
      outcome.signals = (if due then [⟨block, pc, .toward need⟩] else []) ∧
      Signal.replay policy.options.startMode (received.map (·.signal)) = some need := by
  intro earlier need due event outcome received
  have isOpen : (fleet.run policy before).fleet.monitor.openBlock =
      some ⟨block, mapping, modeAfter policy.options.startMode earlier⟩ :=
    openBlock_run_of_stays reachable begun stays
  obtain ⟨answered, signaled⟩ :=
    signals_step_of_open (reachable_run reachable before) isOpen name pc
  have inMode : modeAfter policy.options.startMode earlier = some need ↔ ¬ due :=
    modeAfter_startMode policy.options earlier need
  refine ⟨?_, ?_, ?_⟩
  · rw [← ite_not]
    refine answered.trans (congrArg Answer.signal ?_)
    exact if_congr inMode rfl rfl
  · rw [← ite_not]
    exact signaled.trans (if_congr inMode rfl rfl)
  · have bothStay : ∀ other ∈ before ++ [event], other.StaysIn block := by
      intro other member
      rcases List.mem_append.mp member with inBefore | last
      · exact stays other inBefore
      · rw [List.mem_singleton.mp last]
        exact trivial
    have last : (Event.translated block (before ++ [event])).map
        (policy.rules.decides mapping) = earlier ++ [need] := by
      simp [Event.translated, event, Event.addressIn, earlier, need]
    show Signal.replay policy.options.startMode
      ((fleet.run policy (before ++ [event])).signals.map (·.signal)) = some need
    rw [signals_run_of_stays reachable begun bothStay, replay_changes, last, modeAfter_concat]

/-- The signals of a block that has stayed open since it began alternate, and no plan that takes its
instructions through what they need has fewer. -/
theorem isChain_signals_of_stays (reachable : fleet.paths.Reachable policy.rules) {block : BlockId}
    {mapping : Mapping}
    (begun : fleet.monitor.openBlock = some ⟨block, mapping, policy.options.startMode⟩)
    {inside : List Event} (stays : ∀ event ∈ inside, event.StaysIn block) :
    let signals := (fleet.run policy inside).signals.map (·.signal)
    let needs := (Event.translated block inside).map (policy.rules.decides mapping)
    signals.IsChain (· ≠ ·) ∧
      ∀ plan, Signal.modesUnder policy.options.startMode plan = needs.map some →
        signals.length ≤ plan.countP Option.isSome := by
  intro signals needs
  have signalsEq : signals = (changes block (policy.rules.decides mapping)
      policy.options.startMode (Event.translated block inside)).map (·.signal) :=
    congrArg (List.map (·.signal)) (signals_run_of_stays reachable begun stays)
  constructor
  · rw [signalsEq]
    exact (isChain_changes block _ _ _).1
  · intro plan served
    rw [signalsEq, List.length_map]
    apply length_changes_le
    rw [served, List.map_map]
    rfl

end Fleet

/-- Let a block of a selected module begin, in whatever state, and let any events follow that
neither end it nor begin another. At each of its instructions a signal toward what the instruction
needs is left exactly if it is due, and the signals up to there lead to what the instruction needs.
Other events leave nothing. So the signals of the block alternate, and no plan that takes the
instructions through the same needs has fewer. -/
theorem block_signals_minimal {policy : Policy} {fleet : Fleet}
    (reachable : fleet.paths.Reachable policy.rules) (starter : String) {mapping : Mapping}
    (selected : policy.coverage.isSelected mapping.module = true) (block : BlockId)
    (start : Address) {inside : List Event} (stays : ∀ event ∈ inside, event.StaysIn block) :
    let opening := (fleet.step policy (.blockStart starter (some mapping) block start)).fleet
    let needs := fun events =>
      (Event.translated block events).map (policy.rules.decides mapping)
    let startMode := policy.options.startMode
    (∀ before event after, inside = before ++ event :: after →
      let reached := (opening.run policy before).fleet
      let outcome := reached.step policy event
      (∀ name pc, event = .instructionStart name block pc →
        let need := (reached.monitor.needed policy (reached.paths.get name) mapping pc).answer
        let due := SignalDue policy.options.closeBlocks (needs before) need
        let received := (opening.run policy (before ++ [event])).signals
        need = policy.rules.decides mapping pc ∧
          outcome.answer = .signal (if due then some (.toward need) else none) ∧
          outcome.signals = (if due then [⟨block, pc, .toward need⟩] else []) ∧
          Signal.replay startMode (received.map (·.signal)) = some need) ∧
      (event.addressIn block = none → outcome.effects.marks = []) ∧
      (∀ name other pc, other ≠ block →
        event = .instructionStart name other pc ∨ event = .blockEnd other pc →
          outcome.answer = .signal none)) ∧
    let signals := (opening.run policy inside).signals.map (·.signal)
    signals.IsChain (· ≠ ·) ∧
      ∀ plan, Signal.modesUnder startMode plan = (needs inside).map some →
        signals.length ≤ plan.countP Option.isSome := by
  intro opening needs startMode
  have openingPaths : opening.paths.Reachable policy.rules := Fleet.reachable_step reachable _
  have begun : opening.monitor.openBlock = some ⟨block, mapping, policy.options.startMode⟩ :=
    Fleet.openBlock_step_blockStart_of_selected starter selected block start
  constructor
  · intro before event after split reached outcome
    have beforeStays : ∀ other ∈ before, other.StaysIn block := by
      intro other member
      apply stays other
      rw [split]
      exact List.mem_append_left _ member
    have eventStays : event.StaysIn block := by
      apply stays event
      rw [split]
      exact List.mem_append_right _ List.mem_cons_self
    have reachedPaths : reached.paths.Reachable policy.rules :=
      Fleet.reachable_run openingPaths before
    have isOpen := Fleet.openBlock_run_of_stays openingPaths begun beforeStays
    refine ⟨?_, ?_, ?_⟩
    · intro name pc isInstruction need due received
      subst isInstruction
      have decided : need = policy.rules.decides mapping pc :=
        Monitor.answer_needed (Path.coherent_of_reachable (reachedPaths name)) mapping pc
      refine ⟨decided, ?_⟩
      have signaled := Fleet.signals_of_instruction openingPaths begun beforeStays name pc
      rw [← decided] at signaled
      exact signaled
    · intro unaddressed
      exact Fleet.marks_step_of_stays isOpen eventStays unaddressed
    · intro name other pc elsewhere named
      have foreign : reached.monitor.Foreign other := Monitor.foreign_of_ne isOpen elsewhere
      obtain ⟨instruction, ending⟩ := Fleet.answer_step_of_foreign foreign name pc
      rcases named with rfl | rfl
      · exact instruction
      · exact ending
  · exact Fleet.isChain_signals_of_stays openingPaths begun stays

/-- A block of the sample module, translated on two paths while other things happen. -/
theorem block_signals_minimal_sample :
    let policy := Policy.ofRules (.ofSources Sample.sources) .standard
    let opening :=
      (Fleet.fresh.step policy (.blockStart "p" (some Sample.mapping) ⟨1⟩ 0x7000)).fleet
    let inside := [.instructionStart "p" ⟨1⟩ 0x7000, .needed "q" Sample.mapping 0x7010,
      .instructionStart "p" ⟨2⟩ 0x7010, .instructionStart "q" ⟨1⟩ 0x7008, .blockEnd ⟨2⟩ 0x7010,
      .instructionStart "p" ⟨1⟩ 0x7010]
    policy.coverage.isSelected Sample.mapping.module = true ∧
      (∀ event ∈ inside, event.StaysIn ⟨1⟩) ∧
      ((opening.run policy (inside.take 5)).fleet.step policy
        (.instructionStart "p" ⟨1⟩ 0x7010)).answer = .signal (some .disable) ∧
      (opening.run policy inside).signals.length = 2 ∧
      ∀ plan, Signal.modesUnder (some false) plan = [some true, some true, some false] →
        2 ≤ plan.countP Option.isSome := by
  intro policy opening inside
  have selected : policy.coverage.isSelected Sample.mapping.module = true := by decide +kernel
  have stays : ∀ event ∈ inside, event.StaysIn ⟨1⟩ := by simp [inside, Event.StaysIn]
  have reachable : Fleet.fresh.paths.Reachable policy.rules := Paths.reachable_empty policy.rules
  obtain ⟨each, _, fewest⟩ := block_signals_minimal reachable "p" selected ⟨1⟩ 0x7000 stays
  refine ⟨selected, stays, ?_, by decide +kernel, ?_⟩
  · obtain ⟨_, answered, _⟩ := (each (inside.take 5) _ [] rfl).1 "p" 0x7010 rfl
    refine answered.trans ?_
    decide +kernel
  · intro plan served
    refine Nat.le_trans ?_ (fewest plan (served.trans ?_))
    · decide +kernel
    · decide +kernel

end InstrumentScope
