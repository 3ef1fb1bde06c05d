import InstrumentScope.Proofs.Causes
import InstrumentScope.Proofs.Decision
import Mathlib.Data.Set.Card

/-!
Contract: every complaint is written down once, if it is written down at all.

A monitor keeps the modules that it has complained about, so that no module is
warned about twice for one reason. The counts that it reports, the warnings in
the log and the causes that a run gives are three views of the same modules.
Only the warnings about addresses can be turned off, and turning them off changes
no count.

Owns:
- the warnings among the notices of an event and of a run;
- the counts of a run, from its history.

Does not own:
- the causes themselves (`Causes`).
-/

namespace InstrumentScope

namespace Notice

/-- The module that the notice warns about for the size of a mapping. -/
def wronglySized? : Notice → Option String
  | sizeMismatch mapping _ _ => some mapping.module
  | _ => none

/-- The module that the notice warns about for an address outside. -/
def askedOutside? : Notice → Option String
  | outOfBounds _ mapping => some mapping.module
  | _ => none

/-- What is said about a module for a complaint is said as a warning. -/
theorem severity_of_complaint {notice : Notice}
    (complains : notice.wronglySized?.isSome ∨ notice.askedOutside?.isSome) :
    notice.severity = .warn := by
  cases notice with
  | sizeMismatch mapping rule compiled => rfl
  | outOfBounds pc mapping => rfl
  | _ => simp [wronglySized?, askedOutside?] at complains

/-- Where all that is told comes from warnings, the warnings tell all of it. -/
theorem filterMap_warnings {told? : Notice → Option String}
    (warns : ∀ notice, (told? notice).isSome → notice.severity = .warn) (notices : List Notice) :
    (notices.filter (·.severity = .warn)).filterMap told? = notices.filterMap told? := by
  rw [List.filterMap_filter]
  apply List.filterMap_congr
  intro notice _
  split
  case isTrue => rfl
  case isFalse milder =>
    have silent : ¬ (told? notice).isSome := fun tells => milder (by simpa using warns notice tells)
    exact (Option.not_isSome_iff_eq_none.mp silent).symm

end Notice

/-- A set lists its members once each. -/
theorem nodup_toList (names : Std.ExtTreeSet String) : names.toList.Nodup := by
  refine names.distinct_toList.imp ?_
  rintro name other apart rfl
  exact apart Std.ReflCmp.compare_self

/-- The size of a set is the number of its members. -/
theorem encard_setOf_mem (names : Std.ExtTreeSet String) :
    {name | name ∈ names}.encard = names.size := by
  have listed : {name | name ∈ names} = (names.toList.toFinset : Set String) := by
    ext name
    simp
  rw [listed, Set.encard_coe_eq_coe_finsetCard, List.toFinset_card_of_nodup (nodup_toList names),
    Std.ExtTreeSet.length_toList]

/-- The names, each told once, are those that are in the second set and not in the first, which is
part of the second. -/
structure Accounts (names : List String) (before after : Std.ExtTreeSet String) : Prop where
  nodup : names.Nodup
  isNew : ∀ name ∈ names, name ∉ before
  grown : ∀ name, name ∈ after ↔ name ∈ before ∨ name ∈ names

namespace Accounts

variable {before between after : Std.ExtTreeSet String} {names later : List String}

theorem refl (names : Std.ExtTreeSet String) : Accounts [] names names where
  nodup := List.nodup_nil
  isNew := by simp
  grown := by simp

theorem insert {name : String} (absent : name ∉ before) :
    Accounts [name] before (before.insert name) where
  nodup := List.nodup_singleton name
  isNew := by simpa using absent
  grown other := by
    rw [Std.ExtTreeSet.mem_insert, Std.LawfulEqCmp.compare_eq_iff_eq, List.mem_singleton, or_comm,
      eq_comm]

theorem trans (first : Accounts names before between) (second : Accounts later between after) :
    Accounts (names ++ later) before after where
  nodup := by
    refine List.nodup_append.mpr ⟨first.nodup, second.nodup, ?_⟩
    rintro name inNames other inLater rfl
    exact second.isNew name inLater ((first.grown name).mpr (Or.inr inNames))
  isNew name member known := by
    rcases List.mem_append.mp member with inNames | inLater
    · exact first.isNew name inNames known
    · exact second.isNew name inLater ((first.grown name).mpr (Or.inl known))
  grown name := by
    rw [second.grown, first.grown, List.mem_append, or_assoc]

/-- What accounts for a set that started out empty are its members, and as many. -/
theorem of_empty (accounts : Accounts names ∅ after) :
    names.length = after.size ∧ ∀ name, name ∈ names ↔ name ∈ after := by
  have members : ∀ name, name ∈ names ↔ name ∈ after := by
    intro name
    rw [accounts.grown, or_iff_right Std.ExtTreeSet.not_mem_empty]
  have sameMembers : names.Perm after.toList := by
    refine (List.perm_ext_iff_of_nodup accounts.nodup (nodup_toList after)).mpr ?_
    intro name
    rw [members, Std.ExtTreeSet.mem_toList]
  exact ⟨sameMembers.length_eq.trans Std.ExtTreeSet.length_toList, members⟩

end Accounts

/-- Between the two monitors every complaint that was added is written down among the notices, once,
and no other is; a complaint about an address only if the options say so. -/
structure Records (options : Options) (before after : Monitor) (notices : List Notice) : Prop where
  sizes : Accounts (notices.filterMap Notice.wronglySized?) before.sizeMismatches
    after.sizeMismatches
  bounds : options.warnOutOfBounds = true →
    Accounts (notices.filterMap Notice.askedOutside?) before.outOfBounds after.outOfBounds
  silent : options.warnOutOfBounds = false → notices.filterMap Notice.askedOutside? = []

namespace Records

variable {options : Options} {before between after : Monitor} {notices later : List Notice}

/-- Where no complaint is added no warning is written down. -/
theorem of_quiet (sameBounds : after.outOfBounds = before.outOfBounds)
    (sameSizes : after.sizeMismatches = before.sizeMismatches)
    (noSizes : notices.filterMap Notice.wronglySized? = [])
    (noBounds : notices.filterMap Notice.askedOutside? = []) :
    Records options before after notices where
  sizes := by
    rw [noSizes, sameSizes]
    exact .refl _
  bounds _ := by
    rw [noBounds, sameBounds]
    exact .refl _
  silent _ := noBounds

theorem trans (first : Records options before between notices)
    (second : Records options between after later) :
    Records options before after (notices ++ later) where
  sizes := by
    rw [List.filterMap_append]
    exact first.sizes.trans second.sizes
  bounds warns := by
    rw [List.filterMap_append]
    exact (first.bounds warns).trans (second.bounds warns)
  silent mute := by
    rw [List.filterMap_append, first.silent mute, second.silent mute]
    rfl

end Records

namespace Monitor

variable {policy : Policy} {path : Path} (monitor : Monitor)

theorem records_checkSize (options : Options) (mapping : Mapping) (rule : Rule) :
    Records options monitor (monitor.checkSize mapping rule).monitor
      (monitor.checkSize mapping rule).notices := by
  unfold checkSize
  split
  case isTrue => exact .of_quiet rfl rfl rfl rfl
  case isFalse fresh =>
    have absent : mapping.module ∉ monitor.sizeMismatches := by
      intro known
      exact fresh (Or.inr (Std.ExtTreeSet.contains_iff_mem.mpr known))
    exact ⟨.insert absent, fun _ => .refl _, fun _ => rfl⟩

theorem records_reportOutOfBounds (options : Options) (mapping : Mapping) (pc : Address) :
    Records options monitor (monitor.reportOutOfBounds options mapping pc).monitor
      (monitor.reportOutOfBounds options mapping pc).notices := by
  unfold reportOutOfBounds
  split
  case isTrue => exact .of_quiet rfl rfl rfl rfl
  case isFalse fresh =>
    have absent : mapping.module ∉ monitor.outOfBounds := by
      intro known
      exact fresh (Std.ExtTreeSet.contains_iff_mem.mpr known)
    cases warns : options.warnOutOfBounds with
    | false => exact ⟨.refl _, by simp [warns], fun _ => rfl⟩
    | true => exact ⟨.refl _, fun _ => .insert absent, by simp [warns]⟩

theorem records_needed (mapping : Mapping) (pc : Address) :
    Records policy.options monitor (monitor.needed policy path mapping pc).monitor
      (monitor.needed policy path mapping pc).effects.notices := by
  unfold needed
  dsimp only
  split
  · exact .of_quiet rfl rfl rfl rfl
  · split
    · exact monitor.records_checkSize policy.options mapping _
    -- The sizes are compared before the address is looked up, and their notice comes first.
    · exact (monitor.records_checkSize policy.options mapping _).trans
        (records_reportOutOfBounds _ policy.options mapping pc)

theorem records_transition (origin destination : Option Mapping) :
    Records policy.options monitor (monitor.transition policy path origin destination).monitor
      (monitor.transition policy path origin destination).effects.notices := by
  unfold transition
  cases destination with
  | none => cases origin <;> exact .of_quiet rfl rfl rfl rfl
  | some mapping =>
      dsimp only
      split
      · exact .of_quiet rfl rfl rfl rfl
      · have announced : ∀ rule, Records policy.options monitor monitor [.entered mapping rule] :=
          fun _ => .of_quiet rfl rfl rfl rfl
        exact (announced _).trans (monitor.records_checkSize policy.options mapping _)

theorem records_blockStart (mapping : Option Mapping) (block : BlockId) (pc : Address) :
    Records policy.options monitor (monitor.blockStart policy path mapping block pc).monitor
      (monitor.blockStart policy path mapping block pc).effects.notices := by
  unfold blockStart
  split <;> exact .of_quiet rfl rfl rfl rfl

theorem records_instructionStart (block : BlockId) (pc : Address) :
    Records policy.options monitor (monitor.instructionStart policy path block pc).monitor
      (monitor.instructionStart policy path block pc).effects.notices := by
  unfold instructionStart
  split
  · exact .of_quiet rfl rfl rfl rfl
  · dsimp only
    split
    · exact monitor.records_needed _ pc
    -- The signal is announced behind whatever the question led to.
    · exact (monitor.records_needed _ pc).trans (.of_quiet rfl rfl rfl rfl)

end Monitor

namespace Fleet

variable {policy : Policy} {fleet : Fleet}

/-- An event writes down the complaints that it adds. -/
theorem records_step (event : Event) :
    Records policy.options fleet.monitor (fleet.step policy event).fleet.monitor
      (fleet.step policy event).effects.notices := by
  cases event with
  | onPaths event => exact .of_quiet rfl rfl rfl rfl
  | transition path origin destination => exact fleet.monitor.records_transition origin destination
  | needed path mapping pc => exact fleet.monitor.records_needed mapping pc
  | execute path pc => exact .of_quiet rfl rfl rfl rfl
  | blockStart path mapping block pc => exact fleet.monitor.records_blockStart mapping block pc
  | instructionStart path block pc => exact fleet.monitor.records_instructionStart block pc
  | blockEnd block pc =>
      obtain ⟨sameBounds, sameSizes⟩ := fleet.monitor.complaints_blockEnd block pc
      exact .of_quiet sameBounds sameSizes rfl rfl

/-- A run writes down the complaints that it adds. -/
theorem records_run (events : List Event) :
    Records policy.options fleet.monitor (fleet.run policy events).fleet.monitor
      (fleet.run policy events).effects.notices := by
  induction events generalizing fleet with
  | nil => exact .of_quiet rfl rfl rfl rfl
  | cons event rest inductionHypothesis => exact (records_step event).trans inductionHypothesis

/-- The counts of a run that began without complaints are those of the modules with a cause. -/
theorem reports_run {paths : Paths} (reachable : paths.Reachable policy.rules)
    (events : List Event) :
    let monitor := (run policy ⟨.fresh, paths⟩ events).fleet.monitor
    {module | Event.AskedOutside policy events module}.encard = monitor.outOfBoundsReports ∧
      {module | Event.WronglySized policy events module}.encard = monitor.sizeMismatchReports := by
  intro monitor
  have complaints := complaints_run_of_fresh reachable events
  constructor
  · simp only [← (complaints _).1]
    exact encard_setOf_mem monitor.outOfBounds
  · simp only [← (complaints _).2]
    exact encard_setOf_mem monitor.sizeMismatches

end Fleet

/-- The event asks about no address and compares no sizes, whichever block is open. -/
def Event.AsksNothing : Event → Prop
  | onPaths _ | execute .. | blockStart .. | blockEnd .. => True
  | transition .. | needed .. | instructionStart .. => False

/-- An event that asks nothing counts nothing. -/
theorem Fleet.reports_step_of_asksNothing {policy : Policy} {fleet : Fleet} {event : Event}
    (asksNothing : event.AsksNothing) :
    (fleet.step policy event).fleet.monitor.outOfBoundsReports =
        fleet.monitor.outOfBoundsReports ∧
      (fleet.step policy event).fleet.monitor.sizeMismatchReports =
        fleet.monitor.sizeMismatchReports := by
  cases event with
  | onPaths event => exact ⟨rfl, rfl⟩
  | execute path pc => exact ⟨rfl, rfl⟩
  | blockStart path mapping block pc =>
      obtain ⟨sameBounds, sameSizes⟩ := fleet.monitor.complaints_blockStart mapping block pc
      exact ⟨congrArg Std.ExtTreeSet.size sameBounds, congrArg Std.ExtTreeSet.size sameSizes⟩
  | blockEnd block pc =>
      obtain ⟨sameBounds, sameSizes⟩ := fleet.monitor.complaints_blockEnd block pc
      exact ⟨congrArg Std.ExtTreeSet.size sameBounds, congrArg Std.ExtTreeSet.size sameSizes⟩
  | _ => exact asksNothing.elim

/-- Whatever happens to a monitor that started fresh, it counts the modules with some address that
was asked about outside, and those with some mapping of the wrong size. It has warned once about
each of the latter and about no other, and the same of the former if addresses are worth a warning;
if not, it has never warned about an address. Nothing of either kind is said otherwise than as a
warning. The options make no difference to the counts, and neither does an event that asks
nothing. -/
theorem warnings_match_causes {policy : Policy} {paths : Paths}
    (reachable : paths.Reachable policy.rules) (events : List Event) :
    let run := Fleet.run policy ⟨.fresh, paths⟩ events
    let warnings := run.effects.notices.filter (·.severity = .warn)
    let sizeWarnings := warnings.filterMap Notice.wronglySized?
    let boundsWarnings := warnings.filterMap Notice.askedOutside?
    {module | Event.AskedOutside policy events module}.encard =
      run.fleet.monitor.outOfBoundsReports ∧
    {module | Event.WronglySized policy events module}.encard =
      run.fleet.monitor.sizeMismatchReports ∧
    (sizeWarnings.Nodup ∧ sizeWarnings.length = run.fleet.monitor.sizeMismatchReports ∧
      ∀ module, module ∈ sizeWarnings ↔ Event.WronglySized policy events module) ∧
    (if policy.options.warnOutOfBounds then
      boundsWarnings.Nodup ∧ boundsWarnings.length = run.fleet.monitor.outOfBoundsReports ∧
        ∀ module, module ∈ boundsWarnings ↔ Event.AskedOutside policy events module
    else boundsWarnings = []) ∧
    (∀ notice ∈ run.effects.notices,
      notice.wronglySized?.isSome ∨ notice.askedOutside?.isSome → notice ∈ warnings) ∧
    (∀ options,
      let other := Fleet.run { policy with options } ⟨.fresh, paths⟩ events
      other.fleet.monitor.outOfBoundsReports = run.fleet.monitor.outOfBoundsReports ∧
        other.fleet.monitor.sizeMismatchReports = run.fleet.monitor.sizeMismatchReports) ∧
    ∀ (fleet : Fleet) event, event.AsksNothing →
      let after := (fleet.step policy event).fleet
      after.monitor.outOfBoundsReports = fleet.monitor.outOfBoundsReports ∧
        after.monitor.sizeMismatchReports = fleet.monitor.sizeMismatchReports := by
  intro run warnings sizeWarnings boundsWarnings
  have complaints := Fleet.complaints_run_of_fresh reachable events
  have records : Records policy.options .fresh run.fleet.monitor run.effects.notices :=
    @Fleet.records_run policy ⟨.fresh, paths⟩ events
  have sizesWarned : sizeWarnings = run.effects.notices.filterMap Notice.wronglySized? :=
    Notice.filterMap_warnings (fun _ told => Notice.severity_of_complaint (Or.inl told)) _
  have boundsWarned : boundsWarnings = run.effects.notices.filterMap Notice.askedOutside? :=
    Notice.filterMap_warnings (fun _ told => Notice.severity_of_complaint (Or.inr told)) _
  obtain ⟨outside, misfits⟩ := Fleet.reports_run reachable events
  rw [sizesWarned, boundsWarned]
  refine ⟨outside, misfits, ?_, ?_, ?_, ?_, fun fleet event => Fleet.reports_step_of_asksNothing⟩
  · obtain ⟨counted, members⟩ := records.sizes.of_empty
    refine ⟨records.sizes.nodup, counted, ?_⟩
    intro module
    rw [members, (complaints module).2]
  · split
    case isTrue warns =>
      have bounds := records.bounds warns
      obtain ⟨counted, members⟩ := bounds.of_empty
      refine ⟨bounds.nodup, counted, ?_⟩
      intro module
      rw [members, (complaints module).1]
    case isFalse mute => exact records.silent (Bool.eq_false_iff.mpr mute)
  · intro notice member complains
    exact List.mem_filter.mpr ⟨member, decide_eq_true (Notice.severity_of_complaint complains)⟩
  -- The causes are told by the rules and their coverage, which the other policy shares.
  · intro options other
    obtain ⟨otherOutside, otherMisfits⟩ :=
      @Fleet.reports_run { policy with options } paths reachable events
    exact ⟨Nat.cast_inj.mp (otherOutside.symm.trans outside),
      Nat.cast_inj.mp (otherMisfits.symm.trans misfits)⟩

/-- Two paths give cause about one module, each more than once. -/
theorem warnings_match_causes_sample :
    let policy := Policy.ofRules (.ofSources Sample.sources) .standard
    let small := { Sample.mapping with size := 0x80 }
    let events := [.transition "p" none (some small), .needed "q" Sample.mapping 0x9000,
      .blockStart "p" (some small) ⟨1⟩ 0x7000, .instructionStart "p" ⟨1⟩ 0x6fff]
    let run := Fleet.run policy .fresh events
    let warnings := run.effects.notices.filter (·.severity = .warn)
    let silenced := Fleet.run { policy with options := .quiet } .fresh events
    {module | Event.AskedOutside policy events module}.encard = 1 ∧
      (warnings.filterMap Notice.wronglySized?).length = 1 ∧
      (warnings.filterMap Notice.askedOutside?).length = 1 ∧
      silenced.fleet.monitor.outOfBoundsReports = 1 := by
  intro policy small events run warnings silenced
  have reachable : Fleet.fresh.paths.Reachable policy.rules := Paths.reachable_empty policy.rules
  have outOfBounds : run.fleet.monitor.outOfBoundsReports = 1 := by decide +kernel
  have sizeMismatches : run.fleet.monitor.sizeMismatchReports = 1 := by decide +kernel
  obtain ⟨outside, _, sizes, bounds, _, others, _⟩ := warnings_match_causes reachable events
  refine ⟨outside.trans (congrArg Nat.cast outOfBounds), sizes.2.1.trans sizeMismatches, ?_,
    (others .quiet).1.trans outOfBounds⟩
  have warns : policy.options.warnOutOfBounds = true := rfl
  rw [if_pos warns] at bounds
  exact bounds.2.1.trans outOfBounds

end InstrumentScope
