import InstrumentScope.Proofs.Complaints
import InstrumentScope.Proofs.Decision

/-!
Contract: paths that share a monitor do not notice each other.

What a path goes through is its history: the events of its own, and before it
was copied those of the path it was copied from. A path answers as if its
history were all that ever happened. What the paths leave behind together, the
complaints of the monitor and the searches through the rules, does not depend on
how their events are interleaved.

Owns:
- the history of a path within a sequence of events;
- the answers and the state of a path, from its history alone;
- interleavings of the same sequences, and what they agree on.

Does not own:
- what one event depends on (`Locality`) and complains about (`Complaints`).
-/

namespace InstrumentScope

namespace Event

/-- The event changes or asks about the path, if there is one. -/
def concerns (path : Option String) (event : Event) : Bool :=
  path.any (event.subject? = some ·)

/-- The path, as it is called before the events, whose state becomes that of `name` by them; none if
they begin it anew. -/
def ancestor? (name : String) : List Event → Option String
  | [] => some name
  | event :: rest =>
      if event.concerns (ancestor? name rest) then event.source? else ancestor? name rest

/-- Of a list with one item for each event, those items whose event concerns `name`, or the path
that is to become `name`. -/
def alongPath {α : Type} (name : String) : List Event → List α → List α
  | event :: rest, item :: items =>
      if event.concerns (ancestor? name rest) then
        item :: alongPath name rest items
      else
        alongPath name rest items
  | _, _ => []

/-- The events that made the path what it is: its own, and those of its ancestors before they were
copied. -/
def history (name : String) (events : List Event) : List Event :=
  alongPath name events events

/-- The event reads or writes the path. A fork is an event of both its paths. -/
def touches (name : String) (event : Event) : Bool :=
  event.subject? = some name || event.source? = some name

/-- Every path sees the same events in the same order, however the paths are interleaved. -/
def SameSequences (left right : List Event) : Prop :=
  ∀ name, left.filter (touches name) = right.filter (touches name)

/-- No path is read or written by both events. -/
def Apart (event other : Event) : Prop :=
  ∀ name, event.touches name = true → other.touches name = false

section Concern

variable {event : Event} {rest : List Event} {name : String}

theorem concerns_eq_true_iff {path : Option String} :
    event.concerns path = true ↔ ∃ later, path = some later ∧ event.subject? = some later := by
  unfold concerns
  rw [Option.any_eq_true]
  simp only [decide_eq_true_eq]

theorem ancestor?_cons_of_concerned (concerned : event.concerns (ancestor? name rest) = true) :
    ancestor? name (event :: rest) = event.source? := by
  rw [ancestor?, if_pos concerned]

theorem ancestor?_cons_of_unconcerned
    (unconcerned : ¬ event.concerns (ancestor? name rest) = true) :
    ancestor? name (event :: rest) = ancestor? name rest := by
  rw [ancestor?, if_neg unconcerned]

theorem alongPath_cons_of_concerned {α : Type}
    (concerned : event.concerns (ancestor? name rest) = true) (item : α) (items : List α) :
    alongPath name (event :: rest) (item :: items) = item :: alongPath name rest items := by
  rw [alongPath, if_pos concerned]

theorem alongPath_cons_of_unconcerned {α : Type}
    (unconcerned : ¬ event.concerns (ancestor? name rest) = true) (item : α) (items : List α) :
    alongPath name (event :: rest) (item :: items) = alongPath name rest items := by
  rw [alongPath, if_neg unconcerned]

theorem history_cons_of_concerned (concerned : event.concerns (ancestor? name rest) = true) :
    history name (event :: rest) = event :: history name rest :=
  alongPath_cons_of_concerned concerned event rest

theorem history_cons_of_unconcerned
    (unconcerned : ¬ event.concerns (ancestor? name rest) = true) :
    history name (event :: rest) = history name rest :=
  alongPath_cons_of_unconcerned unconcerned event rest

end Concern

theorem touches_eq_true_iff {event : Event} {name : String} :
    event.touches name = true ↔ event.subject? = some name ∨ event.source? = some name := by
  unfold touches
  rw [Bool.or_eq_true, decide_eq_true_eq, decide_eq_true_eq]

theorem Apart.symm {event other : Event} (apart : event.Apart other) : other.Apart event := by
  intro name otherTouches
  apply Bool.eq_false_iff.mpr
  intro eventTouches
  rw [apart name eventTouches] at otherTouches
  contradiction

/-- The path that one of two such events changes is neither changed nor read by the other. -/
theorem Apart.of_subject {event other : Event} (apart : event.Apart other) {name : String}
    (isSubject : event.subject? = some name) :
    other.subject? ≠ some name ∧ other.source? ≠ some name := by
  have untouched := apart name (touches_eq_true_iff.mpr (Or.inl isSubject))
  rw [Bool.eq_false_iff, ne_eq, touches_eq_true_iff, not_or] at untouched
  exact untouched

/-- Outside the translation of blocks every event concerns a path. -/
theorem exists_subject {event : Event} (plain : event.isTranslation = false) :
    ∃ name, event.subject? = some name := by
  cases event with
  | blockEnd block pc => contradiction
  | _ => exact ⟨_, rfl⟩

/-- Sequences that are the same on every path hold the same events. -/
theorem SameSequences.mem_iff {left right : List Event} (same : SameSequences left right)
    {event : Event} (plain : event.isTranslation = false) : event ∈ left ↔ event ∈ right := by
  obtain ⟨name, isSubject⟩ := exists_subject plain
  have touched := touches_eq_true_iff.mpr (Or.inl isSubject)
  have found : ∀ events : List Event, event ∈ events.filter (touches name) ↔ event ∈ events := by
    intro events
    rw [List.mem_filter, and_iff_left touched]
  rw [← found left, ← found right, same name]

/-- Neighbouring events that share no path may change places. -/
theorem SameSequences.swap {event other : Event} (apart : event.Apart other) (rest : List Event) :
    SameSequences (event :: other :: rest) (other :: event :: rest) := by
  intro name
  by_cases touchesName : event.touches name = true
  · have untouched : ¬ other.touches name = true := Bool.eq_false_iff.mp (apart name touchesName)
    rw [List.filter_cons_of_pos touchesName, List.filter_cons_of_neg untouched,
      List.filter_cons_of_neg untouched, List.filter_cons_of_pos touchesName]
  · rw [List.filter_cons_of_neg touchesName, List.filter_cons, List.filter_cons,
      List.filter_cons_of_neg touchesName]

/-- If a path sees the event first, and the event is not among those before it, then none of those
touches the path. -/
theorem filter_before_eq_nil {event : Event} {rest before after : List Event} {name : String}
    (touchesName : event.touches name = true) (absent : event ∉ before)
    (aligned : (event :: rest).filter (touches name) =
      (before ++ event :: after).filter (touches name)) :
    before.filter (touches name) = [] := by
  rw [List.filter_cons_of_pos touchesName, List.filter_append] at aligned
  cases touching : before.filter (touches name) with
  | nil => rfl
  | cons head tail =>
      rw [touching] at aligned
      have isHead : event = head := (List.cons.inj aligned).1
      have member : event ∈ before.filter (touches name) := by
        rw [touching, isHead]
        exact List.mem_cons_self
      exact absurd (List.mem_filter.mp member).1 absent

/-- The first event of one interleaving is found in the other behind events that share no path with
it, and without it the two still interleave the same sequences. -/
theorem SameSequences.exists_first {event : Event} {rest other : List Event}
    (plain : event.isTranslation = false) (same : SameSequences (event :: rest) other) :
    ∃ before after, other = before ++ event :: after ∧
      (∀ earlier ∈ before, event.Apart earlier) ∧ SameSequences rest (before ++ after) := by
  obtain ⟨subject, isSubject⟩ := exists_subject plain
  have first := same subject
  rw [List.filter_cons_of_pos (touches_eq_true_iff.mpr (Or.inl isSubject))] at first
  obtain ⟨before, after, rfl, unrelated, touched, _⟩ := List.filter_eq_cons_iff.mp first.symm
  have absent : event ∉ before := by
    intro member
    exact unrelated event member touched
  refine ⟨before, after, rfl, ?_, ?_⟩
  · intro earlier member name touchesName
    have untouched := filter_before_eq_nil touchesName absent (same name)
    exact Bool.eq_false_iff.mpr (List.filter_eq_nil_iff.mp untouched earlier member)
  · intro name
    have aligned := same name
    by_cases touchesName : event.touches name = true
    · have untouched := filter_before_eq_nil touchesName absent aligned
      rw [List.filter_append, untouched, List.filter_cons_of_pos touchesName,
        List.filter_cons_of_pos touchesName] at aligned
      rw [List.filter_append, untouched]
      exact (List.cons.inj aligned).2
    · rw [List.filter_append, List.filter_cons_of_neg touchesName,
        List.filter_cons_of_neg touchesName] at aligned
      rw [List.filter_append]
      exact aligned

end Event

namespace Fleet

variable {policy : Policy} {fleet left right shared alone : Fleet}

/-- A path that a history leads to, and its answers on the way, depend on nothing but that history
and the path it goes on from. -/
theorem run_history {name : String} {events : List Event}
    (plain : ∀ event ∈ Event.history name events, event.isTranslation = false)
    (same : ∀ earlier, Event.ancestor? name events = some earlier →
      shared.paths.get earlier = alone.paths.get earlier) :
    Event.alongPath name events (shared.run policy events).answers =
        (alone.run policy (Event.history name events)).answers ∧
      (shared.run policy events).fleet.paths.get name =
        (alone.run policy (Event.history name events)).fleet.paths.get name := by
  -- Both fleets are generalised: the lone one moves only when an event belongs to the history.
  induction events generalizing shared alone with
  | nil => exact ⟨rfl, same name rfl⟩
  | cons event rest inductionHypothesis =>
      by_cases concerned : event.concerns (Event.ancestor? name rest) = true
      · rw [Event.history_cons_of_concerned concerned] at plain ⊢
        rw [Event.ancestor?_cons_of_concerned concerned] at same
        obtain ⟨headPlain, restPlain⟩ := List.forall_mem_cons.mp plain
        obtain ⟨later, becomes, isSubject⟩ := Event.concerns_eq_true_iff.mp concerned
        obtain ⟨sameAnswer, _, sameSubject⟩ := step_congr headPlain same
        have sameLater : ∀ earlier, Event.ancestor? name rest = some earlier →
            (shared.step policy event).fleet.paths.get earlier =
              (alone.step policy event).fleet.paths.get earlier := by
          intro earlier isAncestor
          obtain rfl := Option.some.inj (becomes.symm.trans isAncestor)
          exact sameSubject later isSubject
        obtain ⟨answers, path⟩ := inductionHypothesis restPlain sameLater
        refine ⟨?_, path⟩
        exact (Event.alongPath_cons_of_concerned concerned _ _).trans
          (congrArg₂ List.cons sameAnswer answers)
      · rw [Event.history_cons_of_unconcerned concerned] at plain ⊢
        rw [Event.ancestor?_cons_of_unconcerned concerned] at same
        have sameLater : ∀ earlier, Event.ancestor? name rest = some earlier →
            (shared.step policy event).fleet.paths.get earlier = alone.paths.get earlier := by
          intro earlier isAncestor
          have other : event.subject? ≠ some earlier := by
            intro isSubject
            exact concerned (Event.concerns_eq_true_iff.mpr ⟨earlier, isAncestor, isSubject⟩)
          rw [get_step_of_ne other]
          exact same earlier isAncestor
        obtain ⟨answers, path⟩ := inductionHypothesis plain sameLater
        exact ⟨(Event.alongPath_cons_of_unconcerned concerned _ _).trans answers, path⟩

/-- Two fleets whose paths are the same search alike. -/
theorem scans_run_congr {events : List Event}
    (plain : ∀ event ∈ events, event.isTranslation = false)
    (same : ∀ name, left.paths.get name = right.paths.get name) :
    (left.run policy events).effects.scans = (right.run policy events).effects.scans := by
  induction events generalizing left right with
  | nil => rfl
  | cons event rest inductionHypothesis =>
      obtain ⟨headPlain, restPlain⟩ := List.forall_mem_cons.mp plain
      have sameSource : ∀ name, event.source? = some name →
          left.paths.get name = right.paths.get name := by
        intro name _
        exact same name
      have sameNext : ∀ name, (left.step policy event).fleet.paths.get name =
          (right.step policy event).fleet.paths.get name := by
        intro name
        exact get_step_congr headPlain sameSource (same name)
      exact congrArg₂ (· + ·) (step_congr headPlain sameSource).2.1
        (inductionHypothesis restPlain sameNext)

/-- Two events that share no path search as much in either order, and lead to the same paths. -/
theorem step_comm {event other : Event} (plain : event.isTranslation = false)
    (otherPlain : other.isTranslation = false) (apart : event.Apart other) :
    let first := fleet.step policy event
    let second := fleet.step policy other
    first.effects.scans + (first.fleet.step policy other).effects.scans =
        second.effects.scans + (second.fleet.step policy event).effects.scans ∧
      ∀ name, (first.fleet.step policy other).fleet.paths.get name =
        (second.fleet.step policy event).fleet.paths.get name := by
  intro first second
  have otherSource : ∀ name, other.source? = some name →
      first.fleet.paths.get name = fleet.paths.get name := by
    intro name isSource
    exact get_step_of_ne fun isSubject => (apart.of_subject isSubject).2 isSource
  have eventSource : ∀ name, event.source? = some name →
      second.fleet.paths.get name = fleet.paths.get name := by
    intro name isSource
    exact get_step_of_ne fun isSubject => (apart.symm.of_subject isSubject).2 isSource
  constructor
  · rw [(step_congr otherPlain otherSource).2.1, (step_congr plain eventSource).2.1]
    exact Nat.add_comm _ _
  · intro name
    by_cases isSubject : event.subject? = some name
    · have otherSubject := (apart.of_subject isSubject).1
      calc (first.fleet.step policy other).fleet.paths.get name
          = first.fleet.paths.get name := get_step_of_ne otherSubject
        _ = (second.fleet.step policy event).fleet.paths.get name :=
            (get_step_congr plain eventSource (get_step_of_ne otherSubject)).symm
    · calc (first.fleet.step policy other).fleet.paths.get name
          = second.fleet.paths.get name :=
            get_step_congr otherPlain otherSource (get_step_of_ne isSubject)
        _ = (second.fleet.step policy event).fleet.paths.get name :=
            (get_step_of_ne isSubject).symm

/-- An event may come before others that it shares no path with. -/
theorem scans_run_of_first {event : Event} {before after : List Event}
    (plain : ∀ earlier ∈ before ++ event :: after, earlier.isTranslation = false)
    (apart : ∀ earlier ∈ before, event.Apart earlier) :
    (fleet.run policy (before ++ event :: after)).effects.scans =
      (fleet.run policy (event :: (before ++ after))).effects.scans := by
  induction before generalizing fleet with
  | nil => rfl
  | cons earlier rest inductionHypothesis =>
      obtain ⟨earlierPlain, restPlain⟩ := List.forall_mem_cons.mp plain
      obtain ⟨earlierApart, restApart⟩ := List.forall_mem_cons.mp apart
      have eventPlain : event.isTranslation = false := restPlain event (by simp)
      have remainingPlain : ∀ other ∈ rest ++ after, other.isTranslation = false := by
        intro other member
        exact restPlain other
          (((List.sublist_cons_self event after).append_left rest).subset member)
      let first := fleet.step policy event
      let second := fleet.step policy earlier
      have commute : first.effects.scans + (first.fleet.step policy earlier).effects.scans =
          second.effects.scans + (second.fleet.step policy event).effects.scans :=
        (step_comm eventPlain earlierPlain earlierApart).1
      have meet : ((second.fleet.step policy event).fleet.run policy
            (rest ++ after)).effects.scans =
          ((first.fleet.step policy earlier).fleet.run policy (rest ++ after)).effects.scans :=
        scans_run_congr remainingPlain fun name =>
          ((step_comm eventPlain earlierPlain earlierApart).2 name).symm
      calc (fleet.run policy (earlier :: (rest ++ event :: after))).effects.scans
          = second.effects.scans +
              (second.fleet.run policy (event :: (rest ++ after))).effects.scans :=
            congrArg (second.effects.scans + ·) (inductionHypothesis restPlain restApart)
        _ = second.effects.scans + ((second.fleet.step policy event).effects.scans +
              ((second.fleet.step policy event).fleet.run policy
                (rest ++ after)).effects.scans) := rfl
        _ = first.effects.scans + ((first.fleet.step policy earlier).effects.scans +
              ((first.fleet.step policy earlier).fleet.run policy
                (rest ++ after)).effects.scans) := by omega
        _ = (fleet.run policy (event :: (earlier :: rest ++ after))).effects.scans := rfl

/-- Interleavings of the same sequences search as much as each other. -/
theorem scans_run_of_sameSequences {events other : List Event}
    (plain : ∀ event ∈ events, event.isTranslation = false)
    (otherPlain : ∀ event ∈ other, event.isTranslation = false)
    (same : Event.SameSequences events other) :
    (fleet.run policy events).effects.scans = (fleet.run policy other).effects.scans := by
  induction events generalizing fleet other with
  | nil =>
      cases other with
      | nil => rfl
      | cons event rest =>
          have member : event ∈ event :: rest := List.mem_cons_self
          exact absurd ((same.mem_iff (otherPlain event member)).mpr member) List.not_mem_nil
  | cons event rest inductionHypothesis =>
      obtain ⟨headPlain, restPlain⟩ := List.forall_mem_cons.mp plain
      obtain ⟨before, after, rfl, apart, remaining⟩ := same.exists_first headPlain
      have remainingPlain : ∀ other ∈ before ++ after, other.isTranslation = false := by
        intro other member
        exact otherPlain other
          (((List.sublist_cons_self event after).append_left before).subset member)
      rw [scans_run_of_first otherPlain apart]
      exact congrArg ((fleet.step policy event).effects.scans + ·)
        (inductionHypothesis restPlain remainingPlain remaining)

/-- Interleavings of the same sequences leave the same complaints. -/
theorem complaints_run_of_sameSequences (reachable : fleet.paths.Reachable policy.rules)
    {events other : List Event} (plain : ∀ event ∈ events, event.isTranslation = false)
    (otherPlain : ∀ event ∈ other, event.isTranslation = false)
    (same : Event.SameSequences events other) :
    (fleet.run policy events).fleet.monitor.outOfBounds =
        (fleet.run policy other).fleet.monitor.outOfBounds ∧
      (fleet.run policy events).fleet.monitor.sizeMismatches =
        (fleet.run policy other).fleet.monitor.sizeMismatches := by
  have sameCauses : ∀ cause : Event → Prop,
      (∃ event ∈ events, cause event) ↔ ∃ event ∈ other, cause event := by
    intro cause
    constructor
    · rintro ⟨event, member, holds⟩
      exact ⟨event, (same.mem_iff (plain event member)).mp member, holds⟩
    · rintro ⟨event, member, holds⟩
      exact ⟨event, (same.mem_iff (otherPlain event member)).mpr member, holds⟩
  constructor
  · apply Std.ExtTreeSet.ext_mem
    intro module
    rw [(complaints_run_of_plain reachable plain module).1,
      (complaints_run_of_plain reachable otherPlain module).1, sameCauses]
  · apply Std.ExtTreeSet.ext_mem
    intro module
    rw [(complaints_run_of_plain reachable plain module).2,
      (complaints_run_of_plain reachable otherPlain module).2, sameCauses]

end Fleet

/-- A path that shares a monitor with others, on which blocks are translated as well, answers and
ends as if its history were all that ever happened, to a monitor of its own. Interleavings of the
same sequences, without the translation of blocks, end with as many complaints of either kind and
after as many searches through the rules. -/
theorem paths_do_not_interfere (policy : Policy) (monitor : Monitor) :
    (∀ (name : String) (events : List Event),
      (∀ event ∈ Event.history name events, event.isTranslation = false) →
        let shared := Fleet.run policy ⟨monitor, .empty⟩ events
        let alone := Fleet.fresh.run policy (Event.history name events)
        Event.alongPath name events shared.answers = alone.answers ∧
          shared.fleet.paths.get name = alone.fleet.paths.get name) ∧
    (∀ events other : List Event,
      (∀ event ∈ events, event.isTranslation = false) →
      (∀ event ∈ other, event.isTranslation = false) → Event.SameSequences events other →
        let first := Fleet.run policy ⟨monitor, .empty⟩ events
        let second := Fleet.run policy ⟨monitor, .empty⟩ other
        first.fleet.monitor.outOfBoundsReports = second.fleet.monitor.outOfBoundsReports ∧
          first.fleet.monitor.sizeMismatchReports = second.fleet.monitor.sizeMismatchReports ∧
          first.effects.scans = second.effects.scans) := by
  constructor
  · intro name events plain shared alone
    exact Fleet.run_history plain fun _ _ => rfl
  · intro events other plain otherPlain same first second
    have reachable : Paths.empty.Reachable policy.rules := Paths.reachable_empty policy.rules
    obtain ⟨sameBounds, sameSizes⟩ :
        first.fleet.monitor.outOfBounds = second.fleet.monitor.outOfBounds ∧
          first.fleet.monitor.sizeMismatches = second.fleet.monitor.sizeMismatches :=
      Fleet.complaints_run_of_sameSequences reachable plain otherPlain same
    refine ⟨?_, ?_, Fleet.scans_run_of_sameSequences plain otherPlain same⟩
    · exact congrArg Std.ExtTreeSet.size sameBounds
    · exact congrArg Std.ExtTreeSet.size sameSizes

/-- A path is copied from one that runs beside a path on which a block is translated; and two paths
ask about the same module, in either order. -/
theorem paths_do_not_interfere_sample :
    let policy := Policy.ofRules (.ofSources Sample.sources) .standard
    let entered := Event.transition "p" none (some Sample.mapping)
    let asked := Event.needed "q" Sample.mapping 0x9000
    let forked := Event.onPaths (.fork "p" "c")
    let executed := Event.execute "c" 0x7008
    let left := Event.onPaths (.leave "p")
    let events := [entered, .blockStart "q" (some Sample.mapping) ⟨1⟩ 0x7000, forked,
      .instructionStart "q" ⟨1⟩ 0x7010, left, executed]
    let shared := Fleet.fresh.run policy events
    let first := Fleet.fresh.run policy [entered, asked, forked, executed]
    let second := Fleet.fresh.run policy [asked, entered, forked, executed]
    Event.history "c" events = [entered, forked, executed] ∧
      Event.alongPath "c" events shared.answers =
        [.rule (some ⟨1⟩), .done, .signal (some .enable)] ∧
      first.fleet.monitor.outOfBoundsReports = 1 ∧
      second.fleet.monitor.outOfBoundsReports = 1 ∧ first.effects.scans = second.effects.scans := by
  intro policy entered asked forked executed left events shared first second
  have past : Event.history "c" events = [entered, forked, executed] := by decide
  have plain : ∀ event ∈ Event.history "c" events, event.isTranslation = false := by
    rw [past]
    decide
  have alone : (Fleet.fresh.run policy (Event.history "c" events)).answers =
      [.rule (some ⟨1⟩), .done, .signal (some .enable)] := by decide +kernel
  have counted : second.fleet.monitor.outOfBoundsReports = 1 := by decide +kernel
  have apart : entered.Apart asked := by
    intro name touched
    rcases Event.touches_eq_true_iff.mp touched with isSubject | isSource
    · obtain rfl := Option.some.inj isSubject
      rfl
    · obtain rfl := Option.some.inj isSource
      rfl
  obtain ⟨own, together⟩ := paths_do_not_interfere policy .fresh
  obtain ⟨sameReports, _, sameScans⟩ := together [entered, asked, forked, executed]
    [asked, entered, forked, executed] (by decide) (by decide) (.swap apart [forked, executed])
  exact ⟨past, (own "c" events plain).1.trans alone, sameReports.trans counted, counted, sameScans⟩

end InstrumentScope
