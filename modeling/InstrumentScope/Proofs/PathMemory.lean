import InstrumentScope.Proofs.Deliveries
import InstrumentScope.Proofs.Independence

/-!
Contract: what a path has learned about a mapping it never forgets.

An activation is answered from the active pair, from memory, or by a search, and
the decision for the current mapping reads the active pair or the memory. The
active pair and the current mapping are always remembered, so it makes no
difference which of them is read. What is remembered stays as it is: on the path
and on every copy of it, under whatever rules it goes on.

Owns:
- the invariant of a path that holds under any rules;
- activation, told by the memory alone;
- what a path and its copies keep through any deliveries.

Does not own:
- that what a path remembers is what the rules resolve to (`PathKnowledge`).
-/

namespace InstrumentScope

namespace Path

/-- The path remembers the active mapping, with the active outcome, and the current mapping. -/
structure Recalls (path : Path) : Prop where
  active : ∀ mapping rule, path.active = some (mapping, rule) → path.cached mapping = some rule
  current : ∀ mapping, path.current = some mapping → (path.cached mapping).isSome

/-- The later path remembers all that the path remembers, with the same outcomes, and knows at least
as many mappings. -/
structure KeptBy (path later : Path) : Prop where
  cached : ∀ mapping rule, path.cached mapping = some rule → later.cached mapping = some rule
  known : path.knownMappings ≤ later.knownMappings

variable {path later : Path}

theorem KeptBy.refl (path : Path) : path.KeptBy path :=
  ⟨fun _ _ => id, Nat.le_refl _⟩

theorem KeptBy.trans {last : Path} (first : path.KeptBy later) (second : later.KeptBy last) :
    path.KeptBy last where
  cached mapping rule known := second.cached mapping rule (first.cached mapping rule known)
  known := Nat.le_trans first.known second.known

theorem recalls_fresh : fresh.Recalls where
  active := by simp [fresh]
  current := by simp [fresh]

/-- An activation is answered from memory or by a search. That the mapping is the active one makes
no difference. -/
theorem Recalls.activate_cases (recalls : path.Recalls) (rules : RuleSet) (mapping : Mapping) :
    (∃ rule, path.cached mapping = some rule ∧
      path.activate rules mapping = ⟨rule, { path with active := some (mapping, rule) }, 0⟩) ∨
    (path.cached mapping = none ∧
      path.activate rules mapping =
        ⟨rules.resolve mapping,
          { path with
            resolved := path.resolved.insert mapping (rules.resolve mapping)
            active := some (mapping, rules.resolve mapping) }, 1⟩) := by
  rcases Path.activate_cases rules path mapping with
    ⟨rule, isActive, outcome⟩ | ⟨rule, known, outcome⟩ | ⟨unknown, outcome⟩
  · refine Or.inl ⟨rule, recalls.active mapping rule isActive, ?_⟩
    rw [outcome, ← isActive]
  · exact Or.inl ⟨rule, known, outcome⟩
  · exact Or.inr ⟨unknown, outcome⟩

section Activation

variable (recalls : path.Recalls) (rules : RuleSet) (mapping : Mapping)

include recalls

theorem rule_activate :
    (path.activate rules mapping).rule =
      (path.cached mapping).getD (rules.resolve mapping) := by
  rcases recalls.activate_cases rules mapping with ⟨rule, known, outcome⟩ | ⟨unknown, outcome⟩
  · rw [outcome, known, Option.getD_some]
  · rw [outcome, unknown, Option.getD_none]

/-- A mapping is searched for exactly if the path does not know it. -/
theorem scans_activate :
    (path.activate rules mapping).scans = if path.cached mapping = none then 1 else 0 := by
  rcases recalls.activate_cases rules mapping with ⟨rule, known, outcome⟩ | ⟨unknown, outcome⟩
  · rw [outcome, known, if_neg (Option.some_ne_none rule)]
  · rw [outcome, unknown, if_pos rfl]

theorem cached_activate (other : Mapping) :
    (path.activate rules mapping).path.cached other =
      if mapping = other then some (path.activate rules mapping).rule else path.cached other := by
  rcases recalls.activate_cases rules mapping with ⟨rule, known, outcome⟩ | ⟨unknown, outcome⟩
  · rw [outcome]
    split
    case isTrue same => exact same ▸ known
    case isFalse => rfl
  · rw [outcome, cached_insert]

/-- A path knows one mapping more for each search. -/
theorem knownMappings_activate :
    (path.activate rules mapping).path.knownMappings =
      path.knownMappings + (path.activate rules mapping).scans := by
  rcases recalls.activate_cases rules mapping with ⟨rule, known, outcome⟩ | ⟨unknown, outcome⟩
  · rw [outcome]
    rfl
  · have unresolved : path.resolved.contains mapping = false := by
      rw [Std.ExtTreeMap.contains_eq_isSome_getElem?]
      exact congrArg Option.isSome unknown
    rw [outcome]
    show (path.resolved.insert mapping (rules.resolve mapping)).size = path.resolved.size + 1
    rw [Std.ExtTreeMap.size_insert, unresolved]
    rfl

theorem active_activate :
    (path.activate rules mapping).path.active =
      some (mapping, (path.activate rules mapping).rule) := by
  rcases recalls.activate_cases rules mapping with ⟨rule, known, outcome⟩ | ⟨unknown, outcome⟩
  · rw [outcome]
  · rw [outcome]

theorem keptBy_activate : path.KeptBy (path.activate rules mapping).path where
  cached other rule known := by
    rw [cached_activate recalls rules mapping, rule_activate recalls rules mapping]
    split
    case isTrue same => rw [same, known, Option.getD_some]
    case isFalse => exact known
  known := by
    rw [knownMappings_activate recalls rules mapping]
    exact Nat.le_add_right _ _

theorem recalls_activate : (path.activate rules mapping).path.Recalls where
  active other rule isActive := by
    rw [active_activate recalls rules mapping] at isActive
    obtain ⟨rfl, rfl⟩ := Prod.mk.inj (Option.some.inj isActive)
    rw [cached_activate recalls rules mapping, if_pos rfl]
  current other isCurrent := by
    rw [current_activate] at isCurrent
    obtain ⟨rule, known⟩ := Option.isSome_iff_exists.mp (recalls.current other isCurrent)
    exact Option.isSome_of_eq_some
      ((keptBy_activate recalls rules mapping).cached other rule known)

theorem keptBy_enter : path.KeptBy (path.enter rules mapping).path :=
  ⟨(keptBy_activate recalls rules mapping).cached, (keptBy_activate recalls rules mapping).known⟩

theorem recalls_enter : (path.enter rules mapping).path.Recalls where
  active := (recalls_activate recalls rules mapping).active
  current other isCurrent := by
    obtain rfl := Option.some.inj isCurrent
    show ((path.activate rules mapping).path.cached mapping).isSome
    rw [cached_activate recalls rules mapping, if_pos rfl]
    rfl

end Activation

theorem keptBy_leave (path : Path) : path.KeptBy path.leave :=
  ⟨fun _ _ => id, Nat.le_refl _⟩

theorem recalls_leave (recalls : path.Recalls) : path.leave.Recalls where
  active := recalls.active
  current := by simp [leave]

/-- Whether a mapping is the active one makes no difference to what the path knows about it. -/
theorem ruleOf_of_recalls (recalls : path.Recalls) (mapping : Mapping) :
    path.ruleOf mapping = (path.cached mapping).join := by
  unfold ruleOf
  split
  case h_1 found rule filtered =>
    rw [recalls.active mapping rule (filter_active filtered)]
    rfl
  case h_2 => rfl

/-- A path that stays where it was decides as it did, under any rules. -/
theorem isInstrumented_of_keptBy (recalls : path.Recalls) (laterRecalls : later.Recalls)
    (kept : path.KeptBy later) (stays : later.current = path.current) (rules : RuleSet)
    (pc : Address) : later.isInstrumented rules pc = path.isInstrumented rules pc := by
  unfold isInstrumented
  rw [stays]
  cases current : path.current with
  | none => rfl
  | some mapping =>
      obtain ⟨rule, known⟩ := Option.isSome_iff_exists.mp (recalls.current mapping current)
      dsimp only
      rw [ruleOf_of_recalls recalls, ruleOf_of_recalls laterRecalls, known,
        kept.cached mapping rule known]

end Path

/-- Every path remembers its active and its current mapping. -/
def Paths.Recall (paths : Paths) : Prop :=
  ∀ name, (paths.get name).Recalls

namespace Paths

variable {paths : Paths}

theorem recall_empty : empty.Recall := by
  intro name
  rw [get_empty]
  exact Path.recalls_fresh

theorem Recall.set (allRecall : paths.Recall) {path : Path} (recalls : path.Recalls)
    (name : String) : (paths.set name path).Recall := by
  intro other
  rw [get_set]
  split
  · exact recalls
  · exact allRecall other

theorem Recall.step (allRecall : paths.Recall) (rules : RuleSet) (event : PathEvent) :
    (paths.step rules event).paths.Recall := by
  cases event with
  | activate path mapping =>
      exact allRecall.set (Path.recalls_activate (allRecall path) rules mapping) path
  | enter path mapping =>
      exact allRecall.set (Path.recalls_enter (allRecall path) rules mapping) path
  | leave path => exact allRecall.set (Path.recalls_leave (allRecall path)) path
  | inquire path pc => exact allRecall
  | fork path copy => exact allRecall.set (allRecall path) copy
  | restart path => exact allRecall.set Path.recalls_fresh path

/-- The subject of an event keeps what its source remembered. It stays where the source was unless
the event moves it. -/
theorem Recall.keptBy_step (allRecall : paths.Recall) (rules : RuleSet) {event : PathEvent}
    {source : String} (goesOn : event.source? = some source) :
    let path := paths.get source
    let later := (paths.step rules event).paths.get event.subject
    path.KeptBy later ∧ (event.moves = false → later.current = path.current) := by
  intro path later
  cases event with
  | activate name mapping =>
      obtain rfl := Option.some.inj goesOn
      have isLater : later = (path.activate rules mapping).path := get_set_self _ _ _
      rw [isLater]
      exact ⟨Path.keptBy_activate (allRecall _) rules mapping, fun _ => Path.current_activate _ _ _⟩
  | enter name mapping =>
      obtain rfl := Option.some.inj goesOn
      have isLater : later = (path.enter rules mapping).path := get_set_self _ _ _
      rw [isLater]
      exact ⟨Path.keptBy_enter (allRecall _) rules mapping, by simp [PathEvent.moves]⟩
  | leave name =>
      obtain rfl := Option.some.inj goesOn
      have isLater : later = path.leave := get_set_self _ _ _
      rw [isLater]
      exact ⟨Path.keptBy_leave path, by simp [PathEvent.moves]⟩
  | inquire name pc =>
      obtain rfl := Option.some.inj goesOn
      exact ⟨.refl path, fun _ => rfl⟩
  | fork name copy =>
      obtain rfl := Option.some.inj goesOn
      have isLater : later = path := get_set_self _ _ _
      rw [isLater]
      exact ⟨.refl path, fun _ => rfl⟩
  | restart name => contradiction

theorem Recall.outcome (allRecall : paths.Recall) (delivery : Delivery) :
    (delivery.outcome paths).fleet.paths.Recall := by
  cases amounts : delivery.pathEvent? with
  | none =>
      intro name
      rw [(delivery.outcome_of_no_pathEvent paths amounts).1]
      exact allRecall name
  | some event =>
      rw [(delivery.outcome_of_pathEvent paths amounts).1]
      exact allRecall.step _ event

theorem Recall.after (allRecall : paths.Recall) (deliveries : List Delivery) :
    (paths.after deliveries).Recall := by
  induction deliveries generalizing paths with
  | nil => exact allRecall
  | cons delivery rest inductionHypothesis => exact inductionHypothesis (allRecall.outcome delivery)

/-- The subject of a delivery keeps what its source remembered. It stays where the source was unless
the event moves it. -/
theorem Recall.keptBy_outcome (allRecall : paths.Recall) {delivery : Delivery}
    {source subject : String} (goesOn : delivery.event.source? = some source)
    (isSubject : delivery.event.subject? = some subject) :
    let path := paths.get source
    let later := (delivery.outcome paths).fleet.paths.get subject
    path.KeptBy later ∧ (delivery.event.moves = false → later.current = path.current) := by
  intro path later
  cases amounts : delivery.pathEvent? with
  | none =>
      rw [Delivery.source_of_no_pathEvent amounts, isSubject] at goesOn
      obtain rfl := Option.some.inj goesOn
      have isLater : later = path := (delivery.outcome_of_no_pathEvent paths amounts).1 _
      rw [isLater]
      exact ⟨.refl path, fun _ => rfl⟩
  | some event =>
      obtain ⟨sameSubject, sameSource, sameMoves⟩ := Delivery.concerns_of_pathEvent amounts
      rw [sameSubject] at isSubject
      obtain rfl := Option.some.inj isSubject
      have isLater : later = (paths.step delivery.policy.rules event).paths.get event.subject :=
        congrArg (Paths.get · event.subject) (delivery.outcome_of_pathEvent paths amounts).1
      rw [isLater, sameMoves]
      exact allRecall.keptBy_step _ (sameSource.symm.trans goesOn)

/-- A path keeps what it remembered, and so does every copy made of it. It stays where it was unless
an event in its history moves it. -/
theorem Recall.keptBy_after (allRecall : paths.Recall) {deliveries : List Delivery}
    {name descendant : String}
    (descends : Event.ancestor? descendant (deliveries.map Delivery.event) = some name) :
    let path := paths.get name
    let later := (paths.after deliveries).get descendant
    path.KeptBy later ∧
      ((∀ event ∈ Event.history descendant (deliveries.map Delivery.event),
          event.moves = false) → later.current = path.current) := by
  -- The paths are generalised: the ancestor is looked for from the last delivery backwards.
  induction deliveries generalizing paths name with
  | nil =>
      obtain rfl := Option.some.inj descends
      exact ⟨.refl _, fun _ => rfl⟩
  | cons delivery rest inductionHypothesis =>
      intro path later
      rw [List.map_cons] at descends ⊢
      by_cases concerned : delivery.event.concerns
          (Event.ancestor? descendant (rest.map Delivery.event)) = true
      · obtain ⟨between, becomes, isSubject⟩ := Event.concerns_eq_true_iff.mp concerned
        rw [Event.ancestor?_cons_of_concerned concerned] at descends
        obtain ⟨first, firstStays⟩ := allRecall.keptBy_outcome descends isSubject
        obtain ⟨second, secondStays⟩ := inductionHypothesis (allRecall.outcome delivery) becomes
        refine ⟨first.trans second, ?_⟩
        intro still
        rw [Event.history_cons_of_concerned concerned] at still
        obtain ⟨headStill, restStill⟩ := List.forall_mem_cons.mp still
        exact (secondStays restStill).trans (firstStays headStill)
      · rw [Event.ancestor?_cons_of_unconcerned concerned] at descends
        rw [Event.history_cons_of_unconcerned concerned]
        have other : delivery.event.subject? ≠ some name := by
          intro isSubject
          exact concerned (Event.concerns_eq_true_iff.mpr ⟨name, descends, isSubject⟩)
        have untouched : (delivery.outcome paths).fleet.paths.get name = path :=
          Fleet.get_step_of_ne other
        rw [← untouched]
        exact inductionHypothesis (allRecall.outcome delivery) descends

end Paths

/-- Whatever rules each event comes with, and whichever monitors the events reach, a path remembers
the mapping it activated last, with that outcome, and the mapping it is in. What it remembers it
keeps, and so do its copies, whatever is delivered later: the same outcome is given whenever the
mapping is activated or entered again, and the number of known mappings does not fall. Only entering
and leaving change the current mapping and the decisions for it. -/
theorem memory_is_never_rewritten (deliveries later : List Delivery) :
    let before := Paths.empty.after deliveries
    let afterwards := before.after later
    (∀ name,
      (∀ mapping rule, (before.get name).active = some (mapping, rule) →
        (before.get name).cached mapping = some rule) ∧
      ∀ mapping, (before.get name).current = some mapping →
        (before.get name).cached mapping ≠ none) ∧
    ∀ name descendant,
      Event.ancestor? descendant (later.map Delivery.event) = some name →
      let path := before.get name
      let heir := afterwards.get descendant
      (∀ mapping rule, path.cached mapping = some rule →
        heir.cached mapping = some rule ∧
        ∀ rules, (heir.activate rules mapping).rule = rule ∧
          (heir.enter rules mapping).rule = rule) ∧
      path.knownMappings ≤ heir.knownMappings ∧
      ((∀ event ∈ Event.history descendant (later.map Delivery.event), event.moves = false) →
        heir.current = path.current ∧
        ∀ rules pc, heir.isInstrumented rules pc = path.isInstrumented rules pc) := by
  intro before afterwards
  have allRecall : before.Recall := Paths.recall_empty.after deliveries
  refine ⟨?_, ?_⟩
  · intro name
    refine ⟨(allRecall name).active, ?_⟩
    intro mapping isCurrent
    exact Option.isSome_iff_ne_none.mp ((allRecall name).current mapping isCurrent)
  · intro name descendant descends path heir
    have recalls : heir.Recalls := allRecall.after later descendant
    obtain ⟨kept, stays⟩ := allRecall.keptBy_after descends
    refine ⟨?_, kept.known, ?_⟩
    · intro mapping rule known
      have cached := kept.cached mapping rule known
      refine ⟨cached, ?_⟩
      intro rules
      have answered : (heir.activate rules mapping).rule = rule := by
        rw [Path.rule_activate recalls, cached, Option.getD_some]
      exact ⟨answered, answered⟩
    · intro still
      exact ⟨stays still, Path.isInstrumented_of_keptBy (allRecall name) recalls kept (stays still)⟩

/-- A path is copied after it entered a mapping, and the copy goes on under rules that say nothing
about the mapping. -/
theorem memory_is_never_rewritten_sample :
    let policy := Policy.ofRules (.ofSources Sample.sources) .standard
    let silent := Policy.ofRules .empty .standard
    let elsewhere := { Sample.mapping with context := "pid-2" }
    let entered : Delivery := ⟨policy, .fresh, .onPaths (.enter "p" Sample.mapping)⟩
    let later : List Delivery := [⟨silent, .fresh, .onPaths (.fork "p" "c")⟩,
      ⟨silent, .fresh, .needed "c" elsewhere 0x7000⟩]
    let path := (Paths.empty.after [entered]).get "p"
    let heir := ((Paths.empty.after [entered]).after later).get "c"
    Event.ancestor? "c" (later.map Delivery.event) = some "p" ∧
      path.cached Sample.mapping = some (some ⟨1⟩) ∧
      (heir.activate .empty Sample.mapping).rule = some ⟨1⟩ ∧ heir.knownMappings = 2 ∧
      heir.isInstrumented policy.rules 0x7008 = true := by
  intro policy silent elsewhere entered later path heir
  have descends : Event.ancestor? "c" (later.map Delivery.event) = some "p" := by decide
  have still : ∀ event ∈ Event.history "c" (later.map Delivery.event), event.moves = false := by
    decide
  have known : path.cached Sample.mapping = some (some ⟨1⟩) := by decide +kernel
  have decided : path.isInstrumented policy.rules 0x7008 = true := by decide +kernel
  obtain ⟨cached, _, stays⟩ :=
    (memory_is_never_rewritten [entered] later).2 "p" "c" descends
  have answered := (cached Sample.mapping (some ⟨1⟩) known).2 .empty
  exact ⟨descends, known, answered.1, by decide +kernel,
    ((stays still).2 policy.rules 0x7008).trans decided⟩

end InstrumentScope
