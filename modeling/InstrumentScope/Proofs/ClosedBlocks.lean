import InstrumentScope.Proofs.BlockSignals

/-!
Contract: when blocks are closed, the signals of a whole run alternate.

A block that is closed leaves the engine in native mode, which is the mode the
next block is taken to begin in. So one mode can be followed through a whole run:
that of the open block, or native while none is open. Each event leaves exactly
the signal that changes this mode, if it changes it.

Owns:
- the mode of a run and the signals of a run that is in order;
- the signal at the end of a block.

Does not own:
- runs in which a block begins while another one is open.
-/

namespace InstrumentScope

/-- So many signals in turn, the first of which is toward instrumentation. -/
def Signal.alternating (count : Nat) : List Signal :=
  (List.range count).map fun index => .toward (index % 2 = 0)

namespace Signal

theorem alternating_succ (count : Nat) :
    alternating (count + 1) = alternating count ++ [.toward (count % 2 = 0)] := by
  unfold alternating
  rw [List.range_succ, List.map_append]
  rfl

/-- Signals that come in turn are continued by the one that is not toward their parity. -/
theorem alternating_concat {signals : List Signal} (inTurn : signals = alternating signals.length)
    {next : Bool} (changes : decide (signals.length % 2 = 1) ≠ next) :
    signals ++ [toward next] = alternating (signals.length + 1) ∧
      next = decide ((signals.length + 1) % 2 = 1) := by
  have isNext : next = decide (signals.length % 2 = 0) := by
    cases next <;> simp at changes ⊢ <;> omega
  constructor
  · rw [alternating_succ, ← inTurn, isNext]
  · rw [isNext, decide_eq_decide]
    omega

theorem count_alternating (count : Nat) :
    (alternating count).count .enable = (count + 1) / 2 ∧
      (alternating count).count .disable = count / 2 := by
  induction count with
  | zero => exact ⟨rfl, rfl⟩
  | succ count inductionHypothesis =>
      obtain ⟨enables, disables⟩ := inductionHypothesis
      rw [alternating_succ, List.count_append, List.count_append, enables, disables]
      by_cases even : count % 2 = 0
      · simp only [even, decide_true, toward, if_true, List.count_singleton]
        constructor
        · show (count + 1) / 2 + 1 = (count + 1 + 1) / 2
          omega
        · show count / 2 + 0 = (count + 1) / 2
          omega
      · simp only [even, decide_false, toward, Bool.false_eq_true, if_false,
          List.count_singleton]
        constructor
        · show (count + 1) / 2 + 0 = (count + 1 + 1) / 2
          omega
        · show count / 2 + 1 = (count + 1) / 2
          omega

/-- An even number of signals in turn is balanced and does not end in instrumented mode. -/
theorem balanced_alternating {count : Nat} (even : count % 2 = 0) :
    (alternating count).count .enable = (alternating count).count .disable ∧
      (alternating count).getLast? ≠ some .enable := by
  obtain ⟨enables, disables⟩ := count_alternating count
  constructor
  · rw [enables, disables]
    omega
  · cases count with
    | zero => decide
    | succ count =>
        have odd : ¬ count % 2 = 0 := by omega
        rw [alternating_succ, List.getLast?_concat]
        simp [odd, toward]

end Signal

namespace Event

/-- No block begins while a block is being translated. -/
def Orderly (policy : Policy) (events : List Event) : Prop :=
  ∀ before name mapping block pc after,
    events = before ++ blockStart name mapping block pc :: after →
      ¬ ∃ open' mapping inside, Tracks policy before open' mapping inside

theorem Orderly.left {policy : Policy} {events later : List Event}
    (orderly : Orderly policy (events ++ later)) : Orderly policy events := by
  intro before name mapping block pc after split
  apply orderly before name mapping block pc (after ++ later)
  rw [split, List.append_assoc]
  rfl

/-- While no block is being translated one may begin, with any events that begin no other. -/
theorem Orderly.append_block {policy : Policy} {events later : List Event} {name : String}
    {mapping : Option Mapping} {block : BlockId} {pc : Address} (orderly : Orderly policy events)
    (untracked : ¬ ∃ open' mapping inside, Tracks policy events open' mapping inside)
    (quiet : ∀ name mapping block pc, blockStart name mapping block pc ∉ later) :
    Orderly policy (events ++ blockStart name mapping block pc :: later) := by
  intro before otherName otherMapping other otherPc after split
  rcases List.append_eq_append_iff.mp split with ⟨between, rfl, rest⟩ | ⟨between, rfl, rest⟩
  · cases between with
    | nil =>
        rw [List.append_nil]
        exact untracked
    | cons first between =>
        have inLater : blockStart otherName otherMapping other otherPc ∈ later := by
          rw [(List.cons.inj rest).2]
          exact List.mem_append_right between List.mem_cons_self
        exact absurd inLater (quiet otherName otherMapping other otherPc)
  · cases between with
    | nil =>
        rw [List.append_nil] at untracked
        exact untracked
    | cons first between =>
        have isFirst := (List.cons.inj rest).1
        subst isFirst
        exact orderly before otherName otherMapping other otherPc between rfl

end Event

/-- The mode of the open block, or native while none is open. -/
def Monitor.liveMode (monitor : Monitor) : Option Bool :=
  monitor.openBlock.elim (some false) (·.mode)

namespace Fleet

variable {policy : Policy} {fleet : Fleet}

/-- The outcome's signals are the change, if any, from a mode to the one that is live afterwards. -/
def Outcome.Leads (outcome : Outcome) (mode : Bool) : Prop :=
  ∃ next, outcome.fleet.monitor.liveMode = some next ∧
    outcome.signals.map (·.signal) = if mode = next then [] else [.toward next]

theorem leads_of_closed (closing : policy.options.closeBlocks = true)
    (reachable : fleet.paths.Reachable policy.rules) (closed : fleet.monitor.openBlock = none)
    (event : Event) : (fleet.step policy event).Leads false := by
  have unmarked : (fleet.step policy event).effects.marks = [] := by
    apply marks_step_of_ignored
    intro opened isOpen
    rw [closed] at isOpen
    contradiction
  refine ⟨false, ?_, ?_⟩
  · unfold Monitor.liveMode
    cases after : (fleet.step policy event).fleet.monitor.openBlock with
    | none => rfl
    | some opened =>
        rcases openBlock_step_cases reachable after with
          ⟨_, _, _, _, begins⟩ | ⟨_, previous, wasOpen, _⟩
        · show opened.mode = some false
          rw [begins, Options.startMode, if_pos closing]
        · rw [closed] at wasOpen
          contradiction
  · rw [signals_eq_nil unmarked]
    rfl

theorem leads_of_stays (reachable : fleet.paths.Reachable policy.rules) {opened : OpenBlock}
    (isOpen : fleet.monitor.openBlock = some opened) {mode : Bool}
    (inMode : opened.mode = some mode) {event : Event} (stays : event.StaysIn opened.block) :
    (fleet.step policy event).Leads mode := by
  unfold Outcome.Leads Monitor.liveMode
  rw [openBlock_step_of_stays reachable isOpen stays, signals_step_of_stays reachable isOpen stays,
    inMode]
  cases event.addressIn opened.block with
  | none => exact ⟨mode, rfl, (if_pos rfl).symm⟩
  | some pc =>
      refine ⟨policy.rules.decides opened.mapping pc, rfl, ?_⟩
      show List.map (·.signal) (changes _ _ _ [pc]) = _
      by_cases same : mode = policy.rules.decides opened.mapping pc
      · rw [changes, if_pos (congrArg some same), if_pos same]
        rfl
      · rw [changes, if_neg (fun both => same (Option.some.inj both)), if_neg same]
        rfl

theorem leads_of_end (closing : policy.options.closeBlocks = true) {opened : OpenBlock}
    (isOpen : fleet.monitor.openBlock = some opened) {mode : Bool}
    (inMode : opened.mode = some mode) (pc : Address) :
    (fleet.step policy (.blockEnd opened.block pc)).Leads mode := by
  have ended : fleet.monitor.blockEnd policy opened.block pc = _ :=
    Monitor.blockEnd_of_open isOpen pc
  rw [inMode, closing] at ended
  refine ⟨false, ?_, ?_⟩
  · show (fleet.monitor.blockEnd policy opened.block pc).monitor.liveMode = some false
    rw [ended]
    cases mode <;> rfl
  · show (Transcript.ofMarks (fleet.monitor.blockEnd policy opened.block pc).marks).signals.map
      (·.signal) = _
    rw [ended]
    cases mode <;> rfl

/-- Unless a block begins while another is open, an event leaves exactly the signal that changes the
live mode. -/
theorem leads_step (closing : policy.options.closeBlocks = true)
    (reachable : fleet.paths.Reachable policy.rules) {mode : Bool}
    (live : fleet.monitor.liveMode = some mode) {event : Event}
    (inTurn : ∀ name mapping block pc, event = .blockStart name mapping block pc →
      fleet.monitor.openBlock = none) :
    (fleet.step policy event).Leads mode := by
  unfold Monitor.liveMode at live
  cases before : fleet.monitor.openBlock with
  | none =>
      rw [before] at live
      obtain rfl := Option.some.inj live
      exact leads_of_closed closing reachable before event
  | some opened =>
      rw [before] at live
      by_cases stays : event.StaysIn opened.block
      · exact leads_of_stays reachable before live stays
      · rcases Event.cases_of_not_staysIn stays with ⟨name, mapping, block, pc, rfl⟩ | ⟨pc, rfl⟩
        · rw [inTurn name mapping block pc rfl] at before
          contradiction
        · exact leads_of_end closing before live pc

theorem openBlock_run_eq_none_iff (reachable : fleet.paths.Reachable policy.rules)
    (closed : fleet.monitor.openBlock = none) (events : List Event) :
    (fleet.run policy events).fleet.monitor.openBlock = none ↔
      ¬ ∃ block mapping inside, Event.Tracks policy events block mapping inside := by
  constructor
  · intro noneOpen tracked
    rcases tracked with ⟨block, mapping, inside, tracks⟩
    rw [openBlock_run_of_tracks reachable tracks] at noneOpen
    contradiction
  · intro untracked
    cases isOpen : (fleet.run policy events).fleet.monitor.openBlock with
    | none => rfl
    | some opened =>
        obtain ⟨inside, tracks⟩ := tracks_of_openBlock_run reachable closed isOpen
        exact absurd ⟨opened.block, opened.mapping, inside, tracks⟩ untracked

/-- In an orderly run the signals come in turn, and the last one leads to the live mode. -/
theorem signals_run_of_orderly (closing : policy.options.closeBlocks = true)
    (reachable : fleet.paths.Reachable policy.rules) (closed : fleet.monitor.openBlock = none)
    {events : List Event} (orderly : Event.Orderly policy events) :
    let run := fleet.run policy events
    let signals := run.signals.map (·.signal)
    signals = Signal.alternating signals.length ∧
      run.fleet.monitor.liveMode = some (decide (signals.length % 2 = 1)) := by
  induction events using List.reverseRecOn with
  | nil =>
      refine ⟨rfl, ?_⟩
      show fleet.monitor.liveMode = some false
      rw [Monitor.liveMode, closed]
      rfl
  | append_singleton before event inductionHypothesis =>
      obtain ⟨inTurn, live⟩ := inductionHypothesis orderly.left
      have beforePaths := reachable_run reachable before
      have beginsAlone : ∀ name mapping block pc, event = .blockStart name mapping block pc →
          (fleet.run policy before).fleet.monitor.openBlock = none := by
        intro name mapping block pc begins
        apply (openBlock_run_eq_none_iff reachable closed before).mpr
        apply orderly before name mapping block pc []
        rw [begins]
      obtain ⟨next, liveNext, signaled⟩ := leads_step closing beforePaths live beginsAlone
      dsimp only
      rw [signals_run_concat, fleet_run_concat, List.map_append, signaled, liveNext]
      by_cases same : decide
          (((fleet.run policy before).signals.map (·.signal)).length % 2 = 1) = next
      · rw [if_pos same, List.append_nil]
        exact ⟨inTurn, congrArg some same.symm⟩
      · obtain ⟨extended, parity⟩ := Signal.alternating_concat inTurn same
        rw [if_neg same, List.length_append, List.length_singleton]
        exact ⟨extended, congrArg some parity⟩

/-- In an orderly run the signals balance whenever no block is being translated. -/
theorem balanced_run_of_orderly (closing : policy.options.closeBlocks = true)
    (reachable : fleet.paths.Reachable policy.rules) (closed : fleet.monitor.openBlock = none)
    {events : List Event} (orderly : Event.Orderly policy events)
    (untracked : ¬ ∃ block mapping inside, Event.Tracks policy events block mapping inside) :
    let signals := (fleet.run policy events).signals.map (·.signal)
    signals.count .enable = signals.count .disable ∧ signals.getLast? ≠ some .enable := by
  intro signals
  have inTurn : signals = Signal.alternating signals.length :=
    (signals_run_of_orderly closing reachable closed orderly).1
  have live : (fleet.run policy events).fleet.monitor.liveMode =
      some (decide (signals.length % 2 = 1)) :=
    (signals_run_of_orderly closing reachable closed orderly).2
  have native : (fleet.run policy events).fleet.monitor.liveMode = some false := by
    rw [Monitor.liveMode, (openBlock_run_eq_none_iff reachable closed events).mpr untracked]
    rfl
  rw [native, Option.some.injEq] at live
  have notOdd : ¬ signals.length % 2 = 1 := of_decide_eq_false live.symm
  have even : signals.length % 2 = 0 := by omega
  rw [inTurn]
  exact Signal.balanced_alternating even

/-- When blocks are closed, a block is left instrumented exactly if it is being translated and its
last instruction needs to be. -/
theorem mode_eq_true_iff (closing : policy.options.closeBlocks = true)
    (reachable : fleet.paths.Reachable policy.rules) (closed : fleet.monitor.openBlock = none)
    (events : List Event) (block : BlockId) :
    (∃ opened, (fleet.run policy events).fleet.monitor.openBlock = some opened ∧
        opened.block = block ∧ opened.mode = some true) ↔
      ∃ mapping inside last, Event.Tracks policy events block mapping inside ∧
        (Event.translated block inside).getLast? = some last ∧
        policy.rules.decides mapping last = true := by
  have startsNative : policy.options.startMode = some false := by
    rw [Options.startMode, if_pos closing]
  constructor
  · intro left
    rcases left with ⟨opened, isOpen, rfl, instrumented⟩
    obtain ⟨inside, tracks⟩ := tracks_of_openBlock_run reachable closed isOpen
    have reached := openBlock_run_of_tracks reachable tracks
    rw [isOpen, startsNative, Option.some.injEq] at reached
    have inMode : some true = modeAfter (some false)
        ((Event.translated opened.block inside).map (policy.rules.decides opened.mapping)) :=
      instrumented.symm.trans (congrArg OpenBlock.mode reached)
    rw [modeAfter, List.getLast?_map] at inMode
    cases isLast : (Event.translated opened.block inside).getLast? with
    | none =>
        rw [isLast] at inMode
        simp at inMode
    | some last =>
        rw [isLast] at inMode
        exact ⟨opened.mapping, inside, last, tracks, isLast, (Option.some.inj inMode).symm⟩
  · intro needed
    rcases needed with ⟨mapping, inside, last, tracks, isLast, decided⟩
    refine ⟨_, openBlock_run_of_tracks reachable tracks, rfl, ?_⟩
    show modeAfter _ _ = some true
    rw [modeAfter, List.getLast?_map, isLast, Option.map_some, decided]
    rfl

variable (policy fleet) in
/-- The end of a block leaves a signal exactly if the block is open, is left instrumented and blocks
are closed. -/
theorem step_blockEnd (block : BlockId) (pc : Address) :
    let outcome := fleet.step policy (.blockEnd block pc)
    let leftInstrumented := ∃ opened, fleet.monitor.openBlock = some opened ∧
      opened.block = block ∧ opened.mode = some true
    (leftInstrumented ∧ policy.options.closeBlocks = true →
      outcome.answer = .signal (some .disable) ∧ outcome.signals = [⟨block, pc, .disable⟩]) ∧
    (¬ (leftInstrumented ∧ policy.options.closeBlocks = true) →
      outcome.answer = .signal none ∧ outcome.effects.marks = []) := by
  intro outcome leftInstrumented
  constructor
  · intro closed
    rcases closed with ⟨⟨opened, isOpen, rfl, instrumented⟩, closing⟩
    have ended : (fleet.monitor.blockEnd policy opened.block pc).answer = some .disable ∧
        (fleet.monitor.blockEnd policy opened.block pc).marks =
          [.signal opened.block pc .disable] := by
      rw [Monitor.blockEnd_of_open isOpen, if_pos ⟨instrumented, closing⟩]
      exact ⟨rfl, rfl⟩
    exact ⟨congrArg Answer.signal ended.1,
      congrArg (fun marks => (Transcript.ofMarks marks).signals) ended.2⟩
  · intro otherwise
    have ended : (fleet.monitor.blockEnd policy block pc).answer = none ∧
        (fleet.monitor.blockEnd policy block pc).marks = [] := by
      by_cases own : ∃ opened, fleet.monitor.openBlock = some opened ∧ opened.block = block
      · obtain ⟨opened, isOpen, rfl⟩ := own
        have native : ¬ (opened.mode = some true ∧ policy.options.closeBlocks = true) := by
          intro both
          rcases both with ⟨instrumented, closing⟩
          exact otherwise ⟨⟨opened, isOpen, rfl, instrumented⟩, closing⟩
        rw [Monitor.blockEnd_of_open isOpen, if_neg native]
        exact ⟨rfl, rfl⟩
      · have foreign : fleet.monitor.Foreign block := by
          intro opened isOpen named
          exact own ⟨opened, isOpen, named⟩
        rw [Monitor.blockEnd_of_foreign foreign]
        exact ⟨rfl, rfl⟩
    exact ⟨congrArg Answer.signal ended.1, ended.2⟩

end Fleet

/-- Let a monitor without an open block meet any events. When blocks are closed and none begins while
another is being translated, all signals that are left come in turn, from the one toward
instrumentation on, and balance whenever no block is being translated; and the end of a block leaves
a signal exactly if it ends the block being translated and the last instruction of that one needs
instrumentation. When blocks are not closed, their ends leave nothing. -/
theorem closed_blocks_alternate {policy : Policy} {paths : Paths}
    (reachable : paths.Reachable policy.rules) (events : List Event) :
    let run := Fleet.run policy ⟨.fresh, paths⟩ events
    let signals := run.signals.map (·.signal)
    (policy.options.closeBlocks = true →
      (Event.Orderly policy events →
        signals = Signal.alternating signals.length ∧
        ((¬ ∃ block mapping inside, Event.Tracks policy events block mapping inside) →
          signals.count .enable = signals.count .disable ∧
            signals.getLast? ≠ some .enable)) ∧
      ∀ (name : String) (block : BlockId) (pc : Address),
        let outcome := run.fleet.step policy (.blockEnd block pc)
        let lastNeeded := ∃ mapping inside last,
          Event.Tracks policy events block mapping inside ∧
            (Event.translated block inside).getLast? = some last ∧
            (run.fleet.monitor.needed policy (run.fleet.paths.get name) mapping last).answer = true
        (lastNeeded →
          outcome.answer = .signal (some .disable) ∧
            outcome.signals = [⟨block, pc, .disable⟩]) ∧
        (¬ lastNeeded → outcome.answer = .signal none ∧ outcome.effects.marks = [])) ∧
    (policy.options.closeBlocks = false →
      ∀ (block : BlockId) (pc : Address),
        let outcome := run.fleet.step policy (.blockEnd block pc)
        outcome.answer = .signal none ∧ outcome.effects.marks = []) := by
  intro run signals
  have noneOpen : (Fleet.mk .fresh paths).monitor.openBlock = none := rfl
  constructor
  · intro closing
    constructor
    · intro orderly
      refine ⟨(Fleet.signals_run_of_orderly closing reachable noneOpen orderly).1, ?_⟩
      intro untracked
      exact Fleet.balanced_run_of_orderly closing reachable noneOpen orderly untracked
    · intro name block pc outcome lastNeeded
      have runPaths : run.fleet.paths.Reachable policy.rules :=
        Fleet.reachable_run reachable events
      have coherent := Path.coherent_of_reachable (runPaths name)
      have left : lastNeeded ↔ ∃ opened, run.fleet.monitor.openBlock = some opened ∧
          opened.block = block ∧ opened.mode = some true := by
        simp only [lastNeeded, Monitor.answer_needed coherent]
        exact (Fleet.mode_eq_true_iff closing reachable noneOpen events block).symm
      obtain ⟨signaled, silent⟩ := Fleet.step_blockEnd policy run.fleet block pc
      rw [left]
      constructor
      · intro instrumented
        exact signaled ⟨instrumented, closing⟩
      · intro native
        apply silent
        intro both
        exact native both.1
  · intro open' block pc
    apply (Fleet.step_blockEnd policy run.fleet block pc).2
    intro both
    rcases both with ⟨_, closing⟩
    rw [open'] at closing
    contradiction

/-- Two blocks of the sample module, the first one ended and the second one not yet. -/
theorem closed_blocks_alternate_sample :
    let policy := Policy.ofRules (.ofSources Sample.sources) .standard
    let lenient := { policy with options := { Options.standard with closeBlocks := false } }
    let first := [.blockStart "p" (some Sample.mapping) ⟨1⟩ 0x7000,
      .instructionStart "p" ⟨1⟩ 0x7000, .blockEnd ⟨2⟩ 0x7008, .blockEnd ⟨1⟩ 0x7008]
    let second := [.blockStart "q" (some Sample.mapping) ⟨2⟩ 0x7008,
      .instructionStart "q" ⟨2⟩ 0x7008]
    let run := Fleet.run policy .fresh (first ++ second)
    let signalsOfFirst := (Fleet.run policy .fresh first).signals.map (·.signal)
    Event.Orderly policy (first ++ second) ∧
      run.signals.map (·.signal) = [.enable, .disable, .enable] ∧
      signalsOfFirst.count .enable = signalsOfFirst.count .disable ∧
      (run.fleet.step policy (.blockEnd ⟨2⟩ 0x7010)).answer = .signal (some .disable) ∧
      ((Fleet.run lenient .fresh (first ++ second)).fleet.step lenient
        (.blockEnd ⟨2⟩ 0x7010)).answer = .signal none := by
  intro policy lenient first second run signalsOfFirst
  have reachable : Fleet.fresh.paths.Reachable policy.rules := Paths.reachable_empty policy.rules
  have untracked : ∀ events, (Fleet.fresh.run policy events).fleet.monitor.openBlock = none →
      ¬ ∃ block mapping inside, Event.Tracks policy events block mapping inside :=
    fun events => (Fleet.openBlock_run_eq_none_iff reachable rfl events).mp
  have firstUntracked := untracked first (by decide +kernel)
  have empty : Event.Orderly policy [] := by
    intro before name mapping block pc after split
    simp at split
  have firstOrderly : Event.Orderly policy first :=
    empty.append_block (untracked [] rfl) (by simp)
  have orderly : Event.Orderly policy (first ++ second) :=
    firstOrderly.append_block firstUntracked (by simp)
  have tracks : Event.Tracks policy (first ++ second) ⟨2⟩ Sample.mapping
      [.instructionStart "q" ⟨2⟩ 0x7008] :=
    ⟨first, "q", 0x7008, rfl, by decide +kernel, by simp [Event.StaysIn]⟩
  obtain ⟨closing, _⟩ := closed_blocks_alternate reachable (first ++ second)
  obtain ⟨turns, ends⟩ := closing rfl
  have inTurn : run.signals.map (·.signal) =
      Signal.alternating (run.signals.map (·.signal)).length := (turns orderly).1
  have balanced := (((closed_blocks_alternate reachable first).1 rfl).1 firstOrderly).2
    firstUntracked
  have ended := (ends "q" ⟨2⟩ 0x7010).1
    ⟨Sample.mapping, _, 0x7008, tracks, rfl, by decide +kernel⟩
  have lenientReachable : Fleet.fresh.paths.Reachable lenient.rules := reachable
  have unended := (closed_blocks_alternate lenientReachable (first ++ second)).2 rfl ⟨2⟩ 0x7010
  refine ⟨orderly, ?_, balanced.1, ended.1, unended.1⟩
  rw [inTurn]
  decide +kernel

end InstrumentScope
