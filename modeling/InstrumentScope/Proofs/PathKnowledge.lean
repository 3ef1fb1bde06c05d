import InstrumentScope.Fleet

/-!
Contract: what a path remembers is what resolution would say.

A path answers from its active pair, from its memory, or by a search. As long as
everything it remembers came from one rule set, the three agree, and the answer
of a path is the answer of the rules alone, whatever the path has been through.

Owns:
- the decision of a rule set for an address, without any path;
- the paths that events over one rule set lead to, and what holds of them;
- the answers of such paths, and the paths of a fleet after a run.

Does not own:
- which rule resolution picks (`RuleTables`).
-/

namespace InstrumentScope

/-- The rule selects the code at `pc` of the mapping. -/
def Rule.selects (rule : Rule) (mapping : Mapping) (pc : Address) : Bool :=
  (mapping.offset? pc).any fun offset => rule.lookup offset = some true

/-- The rule that governs the mapping selects the code at `pc`. -/
def RuleSet.decides (rules : RuleSet) (mapping : Mapping) (pc : Address) : Bool :=
  ((rules.resolve mapping).bind rules.get?).any (·.selects mapping pc)

theorem Rule.getD_lookup (rule : Rule) (mapping : Mapping) (pc : Address) :
    ((mapping.offset? pc).bind rule.lookup).getD false = rule.selects mapping pc := by
  unfold selects
  cases mapping.offset? pc with
  | none => rfl
  | some offset =>
      rw [Option.bind_some, Option.any_some]
      cases rule.lookup offset with
      | none => rfl
      | some isSelected => simp

theorem Rule.selects_eq_true_iff {rule : Rule} {mapping : Mapping} {pc : Address} :
    rule.selects mapping pc = true ↔
      mapping.loadBase ≤ pc ∧ rule.lookup (pc - mapping.loadBase) = some true := by
  unfold selects Mapping.offset? Word.sub?
  split
  case isTrue above => simp [above]
  case isFalse below => simp [below]

theorem RuleSet.decides_eq_true_iff {rules : RuleSet} {mapping : Mapping} {pc : Address} :
    rules.decides mapping pc = true ↔
      ∃ rule, (rules.resolve mapping).bind rules.get? = some rule ∧
        rule.selects mapping pc = true :=
  Option.any_eq_true _ _

namespace Path

/-- The paths that events over one rule set lead to, whichever monitors take part. A fork needs no
case of its own: the copy is the same path. -/
inductive Reachable (rules : RuleSet) : Path → Prop where
  | fresh : Reachable rules fresh
  | activate {path : Path} (mapping : Mapping) (before : Reachable rules path) :
      Reachable rules (path.activate rules mapping).path
  | enter {path : Path} (mapping : Mapping) (before : Reachable rules path) :
      Reachable rules (path.enter rules mapping).path
  | leave {path : Path} (before : Reachable rules path) : Reachable rules path.leave
  | transition {path : Path} (policy : Policy) (sameRules : policy.rules = rules) (monitor : Monitor)
      (origin destination : Option Mapping) (before : Reachable rules path) :
      Reachable rules (monitor.transition policy path origin destination).path
  | needed {path : Path} (policy : Policy) (sameRules : policy.rules = rules) (monitor : Monitor)
      (mapping : Mapping) (pc : Address) (before : Reachable rules path) :
      Reachable rules (monitor.needed policy path mapping pc).path
  | blockStart {path : Path} (policy : Policy) (sameRules : policy.rules = rules) (monitor : Monitor)
      (mapping : Option Mapping) (block : BlockId) (pc : Address)
      (before : Reachable rules path) :
      Reachable rules (monitor.blockStart policy path mapping block pc).path
  | instructionStart {path : Path} (policy : Policy) (sameRules : policy.rules = rules)
      (monitor : Monitor) (block : BlockId) (pc : Address) (before : Reachable rules path) :
      Reachable rules (monitor.instructionStart policy path block pc).path

/-- Everything the path remembers is what the rules resolve to, and it remembers its active and
its current mapping. -/
structure Coherent (rules : RuleSet) (path : Path) : Prop where
  resolved : ∀ mapping rule, path.cached mapping = some rule → rule = rules.resolve mapping
  active : ∀ mapping rule, path.active = some (mapping, rule) → path.cached mapping = some rule
  current : ∀ mapping, path.current = some mapping → (path.cached mapping).isSome

theorem filter_active {path : Path} {mapping found : Mapping} {rule : Option RuleId}
    (filtered : path.active.filter (·.1 == mapping) = some (found, rule)) :
    path.active = some (mapping, rule) := by
  obtain ⟨present, same⟩ := Option.filter_eq_some_iff.mp filtered
  have same : found = mapping := eq_of_beq same
  rw [present, same]

/-- An activation answers from the active pair, from memory, or by one search. -/
theorem activate_cases (rules : RuleSet) (path : Path) (mapping : Mapping) :
    (∃ rule, path.active = some (mapping, rule) ∧
      path.activate rules mapping = ⟨rule, path, 0⟩) ∨
    (∃ rule, path.cached mapping = some rule ∧
      path.activate rules mapping = ⟨rule, { path with active := some (mapping, rule) }, 0⟩) ∨
    (path.cached mapping = none ∧
      path.activate rules mapping =
        ⟨rules.resolve mapping,
          { path with
            resolved := path.resolved.insert mapping (rules.resolve mapping)
            active := some (mapping, rules.resolve mapping) }, 1⟩) := by
  unfold activate
  split
  case h_1 found rule filtered =>
    exact Or.inl ⟨rule, filter_active filtered, rfl⟩
  case h_2 =>
    right
    split
    case h_1 rule known => exact Or.inl ⟨rule, known, rfl⟩
    case h_2 unknown => exact Or.inr ⟨unknown, rfl⟩

theorem cached_insert (path : Path) (inserted mapping : Mapping) (rule : Option RuleId)
    (active : Option (Mapping × Option RuleId)) :
    cached { path with resolved := path.resolved.insert inserted rule, active } mapping =
      if inserted = mapping then some rule else path.cached mapping := by
  simp [cached, Std.ExtTreeMap.getElem?_insert]

theorem coherent_fresh (rules : RuleSet) : fresh.Coherent rules where
  resolved := by simp [fresh, cached]
  active := by simp [fresh]
  current := by simp [fresh]

/-- Making a remembered mapping the active one keeps a path coherent. -/
theorem coherent_active {rules : RuleSet} {path : Path} (coherent : path.Coherent rules)
    {mapping : Mapping} {rule : Option RuleId} (known : path.cached mapping = some rule) :
    Coherent rules { path with active := some (mapping, rule) } where
  resolved := coherent.resolved
  active other otherRule isActive := by
    injection isActive with same
    injection same with sameMapping sameRule
    subst sameMapping sameRule
    exact known
  current := coherent.current

/-- Remembering what a mapping resolves to keeps a path coherent. -/
theorem coherent_insert {rules : RuleSet} {path : Path} (coherent : path.Coherent rules)
    (mapping : Mapping) :
    Coherent rules
      { path with
        resolved := path.resolved.insert mapping (rules.resolve mapping)
        active := some (mapping, rules.resolve mapping) } where
  resolved other rule known := by
    rw [cached_insert] at known
    split at known
    case isTrue same =>
      subst same
      exact (Option.some.inj known).symm
    case isFalse => exact coherent.resolved other rule known
  active other rule isActive := by
    injection isActive with same
    injection same with sameMapping sameRule
    subst sameMapping sameRule
    rw [cached_insert, if_pos rfl]
  current other isCurrent := by
    rw [cached_insert]
    split
    case isTrue => rfl
    case isFalse => exact coherent.current other isCurrent

/-- On a coherent path an activation answers what the rules resolve to, keeps the path coherent, and
leaves the mapping remembered. -/
theorem activate_of_coherent {rules : RuleSet} {path : Path} (coherent : path.Coherent rules)
    (mapping : Mapping) :
    (path.activate rules mapping).rule = rules.resolve mapping ∧
      (path.activate rules mapping).path.Coherent rules ∧
      (path.activate rules mapping).path.cached mapping = some (rules.resolve mapping) := by
  rcases activate_cases rules path mapping with
    ⟨rule, isActive, outcome⟩ | ⟨rule, known, outcome⟩ | ⟨unknown, outcome⟩
  · have known := coherent.active mapping rule isActive
    have exact := coherent.resolved mapping rule known
    subst exact
    rw [outcome]
    exact ⟨rfl, coherent, known⟩
  · have exact := coherent.resolved mapping rule known
    subst exact
    rw [outcome]
    exact ⟨rfl, coherent_active coherent known, known⟩
  · rw [outcome]
    refine ⟨rfl, coherent_insert coherent mapping, ?_⟩
    rw [cached_insert, if_pos rfl]

theorem coherent_enter {rules : RuleSet} {path : Path} (coherent : path.Coherent rules)
    (mapping : Mapping) : (path.enter rules mapping).path.Coherent rules := by
  obtain ⟨_, activated, known⟩ := activate_of_coherent coherent mapping
  refine ⟨activated.resolved, activated.active, ?_⟩
  intro other isCurrent
  have same : mapping = other := Option.some.inj isCurrent
  subst same
  show ((path.activate rules mapping).path.cached mapping).isSome
  rw [known]
  rfl

theorem coherent_leave {rules : RuleSet} {path : Path} (coherent : path.Coherent rules) :
    path.leave.Coherent rules where
  resolved := coherent.resolved
  active := coherent.active
  current := by simp [leave]

/-- A coherent path looks up what the rules resolve to, for every mapping it remembers. -/
theorem ruleOf_of_coherent {rules : RuleSet} {path : Path} (coherent : path.Coherent rules)
    {mapping : Mapping} (known : (path.cached mapping).isSome) :
    path.ruleOf mapping = rules.resolve mapping := by
  unfold ruleOf
  split
  case h_1 found rule filtered =>
    exact coherent.resolved mapping rule (coherent.active mapping rule (filter_active filtered))
  case h_2 =>
    obtain ⟨rule, remembered⟩ := Option.isSome_iff_exists.mp known
    rw [remembered]
    exact coherent.resolved mapping rule remembered

/-- A coherent path decides what the rules decide for its current mapping. -/
theorem isInstrumented_of_coherent {rules : RuleSet} {path : Path}
    (coherent : path.Coherent rules) (pc : Address) :
    path.isInstrumented rules pc = path.current.any (rules.decides · pc) := by
  unfold isInstrumented RuleSet.decides
  cases current : path.current with
  | none => rfl
  | some mapping =>
      dsimp only
      rw [ruleOf_of_coherent coherent (coherent.current mapping current), Option.any_some]
      cases (rules.resolve mapping).bind rules.get? with
      | none => rfl
      | some rule =>
          dsimp only
          rw [rule.getD_lookup, Option.any_some]

end Path

namespace Monitor

variable {policy : Policy} {monitor : Monitor} {path : Path}

theorem path_transition (origin destination : Option Mapping) :
    (monitor.transition policy path origin destination).path =
      match destination with
      | none => path.leave
      | some mapping => (path.enter policy.rules mapping).path := by
  unfold transition
  cases destination with
  | none => rfl
  | some mapping =>
      dsimp only
      split <;> rfl

theorem path_needed (mapping : Mapping) (pc : Address) :
    (monitor.needed policy path mapping pc).path = (path.activate policy.rules mapping).path := by
  unfold needed
  dsimp only
  split
  · rfl
  · split <;> rfl

theorem path_blockStart (mapping : Option Mapping) (block : BlockId) (pc : Address) :
    (monitor.blockStart policy path mapping block pc).path = path ∨
      ∃ selected, (monitor.blockStart policy path mapping block pc).path =
        (path.activate policy.rules selected).path := by
  unfold blockStart
  split
  case h_1 => exact Or.inl rfl
  case h_2 selected _ => exact Or.inr ⟨selected, rfl⟩

/-- An instruction of a block that is not open changes nothing and leaves no mark. -/
theorem instructionStart_of_unopened {block : BlockId}
    (unopened : monitor.openBlock.filter (·.block == block) = none) (pc : Address) :
    monitor.instructionStart policy path block pc = ⟨none, monitor, path, .none⟩ := by
  unfold instructionStart
  rw [unopened]

/-- An instruction of the open block activates the mapping of the block. -/
theorem path_instructionStart_of_opened {block : BlockId} {opened : OpenBlock}
    (isOpened : monitor.openBlock.filter (·.block == block) = some opened) (pc : Address) :
    (monitor.instructionStart policy path block pc).path =
      (path.activate policy.rules opened.mapping).path := by
  have asked : (monitor.needed policy path opened.mapping pc).path =
      (path.activate policy.rules opened.mapping).path := path_needed opened.mapping pc
  unfold instructionStart
  rw [isOpened, ← asked]
  dsimp only
  split <;> rfl

theorem path_instructionStart (block : BlockId) (pc : Address) :
    (monitor.instructionStart policy path block pc).path = path ∨
      ∃ opened, (monitor.instructionStart policy path block pc).path =
        (path.activate policy.rules opened).path := by
  cases isOpened : monitor.openBlock.filter (·.block == block) with
  | none =>
      left
      rw [instructionStart_of_unopened isOpened]
  | some opened => exact Or.inr ⟨opened.mapping, path_instructionStart_of_opened isOpened pc⟩

theorem scans_needed (mapping : Mapping) (pc : Address) :
    (monitor.needed policy path mapping pc).effects.scans =
      (path.activate policy.rules mapping).scans := by
  unfold needed
  dsimp only
  split
  · rfl
  · split <;> rfl

theorem scans_transition (origin destination : Option Mapping) :
    (monitor.transition policy path origin destination).effects.scans =
      destination.elim 0 fun mapping => (path.enter policy.rules mapping).scans := by
  unfold transition
  cases destination with
  | none => rfl
  | some mapping =>
      dsimp only
      split <;> rfl

theorem answer_transition (origin destination : Option Mapping) :
    (monitor.transition policy path origin destination).answer =
      destination.bind fun mapping => (path.enter policy.rules mapping).rule := by
  unfold transition
  cases destination with
  | none => rfl
  | some mapping =>
      dsimp only
      split <;> rfl

/-- The answer is that of the path's rule, whatever the monitor has complained about. -/
theorem answer_needed_eq (mapping : Mapping) (pc : Address) :
    (monitor.needed policy path mapping pc).answer =
      ((path.activate policy.rules mapping).rule.bind policy.rules.get?).any
        (·.selects mapping pc) := by
  unfold needed
  dsimp only
  cases (path.activate policy.rules mapping).rule.bind policy.rules.get? with
  | none => rfl
  | some rule =>
      rw [Option.any_some, ← rule.getD_lookup]
      dsimp only
      cases (mapping.offset? pc).bind rule.lookup <;> rfl

/-- On a coherent path the answer is what the rules decide. -/
theorem answer_needed (coherent : path.Coherent policy.rules) (mapping : Mapping)
    (pc : Address) :
    (monitor.needed policy path mapping pc).answer = policy.rules.decides mapping pc := by
  rw [answer_needed_eq, (Path.activate_of_coherent coherent mapping).1]
  rfl

end Monitor

namespace Path

theorem coherent_of_reachable {rules : RuleSet} {path : Path} (reachable : Reachable rules path) :
    path.Coherent rules := by
  induction reachable with
  | fresh => exact coherent_fresh rules
  | activate mapping _ inductionHypothesis =>
      exact (activate_of_coherent inductionHypothesis mapping).2.1
  | enter mapping _ inductionHypothesis => exact coherent_enter inductionHypothesis mapping
  | leave _ inductionHypothesis => exact coherent_leave inductionHypothesis
  | transition policy sameRules monitor origin destination _ inductionHypothesis =>
      subst sameRules
      rw [Monitor.path_transition]
      cases destination with
      | none => exact coherent_leave inductionHypothesis
      | some mapping => exact coherent_enter inductionHypothesis mapping
  | needed policy sameRules monitor mapping pc _ inductionHypothesis =>
      subst sameRules
      rw [Monitor.path_needed]
      exact (activate_of_coherent inductionHypothesis mapping).2.1
  | blockStart policy sameRules monitor mapping block pc _ inductionHypothesis =>
      subst sameRules
      rcases Monitor.path_blockStart mapping block pc with unchanged | ⟨selected, activated⟩
      · rw [unchanged]
        exact inductionHypothesis
      · rw [activated]
        exact (activate_of_coherent inductionHypothesis selected).2.1
  | instructionStart policy sameRules monitor block pc _ inductionHypothesis =>
      subst sameRules
      rcases Monitor.path_instructionStart block pc with unchanged | ⟨opened, activated⟩
      · rw [unchanged]
        exact inductionHypothesis
      · rw [activated]
        exact (activate_of_coherent inductionHypothesis opened).2.1

end Path

/-- Every path of the table, under whatever name, is one that events over the rules lead to. -/
def Paths.Reachable (rules : RuleSet) (paths : Paths) : Prop :=
  ∀ name, (paths.get name).Reachable rules

namespace Paths

theorem reachable_empty (rules : RuleSet) : empty.Reachable rules := by
  intro name
  rw [get_empty]
  exact .fresh

theorem reachable_set {rules : RuleSet} {paths : Paths} (reachable : paths.Reachable rules)
    {path : Path} (written : path.Reachable rules) (name : String) :
    (paths.set name path).Reachable rules := by
  intro other
  rw [get_set]
  split
  · exact written
  · exact reachable other

theorem reachable_step {rules : RuleSet} {paths : Paths} (reachable : paths.Reachable rules)
    (event : PathEvent) : (paths.step rules event).paths.Reachable rules := by
  cases event with
  | activate name mapping => exact reachable_set reachable (.activate mapping (reachable name)) name
  | enter name mapping => exact reachable_set reachable (.enter mapping (reachable name)) name
  | leave name => exact reachable_set reachable (.leave (reachable name)) name
  | inquire name pc => exact reachable
  | fork name copy => exact reachable_set reachable (reachable name) copy
  | restart name => exact reachable_set reachable .fresh name

end Paths

namespace Fleet

variable {policy : Policy}

theorem reachable_step {fleet : Fleet} (reachable : fleet.paths.Reachable policy.rules)
    (event : Event) : (fleet.step policy event).fleet.paths.Reachable policy.rules := by
  cases event with
  | onPaths event => exact Paths.reachable_step reachable event
  | transition name origin destination =>
      exact Paths.reachable_set reachable
        (.transition policy rfl fleet.monitor origin destination (reachable name)) name
  | needed name mapping pc =>
      exact Paths.reachable_set reachable
        (.needed policy rfl fleet.monitor mapping pc (reachable name)) name
  | execute name pc => exact reachable
  | blockStart name mapping block pc =>
      exact Paths.reachable_set reachable
        (.blockStart policy rfl fleet.monitor mapping block pc (reachable name)) name
  | instructionStart name block pc =>
      exact Paths.reachable_set reachable
        (.instructionStart policy rfl fleet.monitor block pc (reachable name)) name
  | blockEnd block pc => exact reachable

/-- Whatever happens to a fleet, its paths remain ones that events over the rules lead to. -/
theorem reachable_run {fleet : Fleet} (reachable : fleet.paths.Reachable policy.rules)
    (events : List Event) : (fleet.run policy events).fleet.paths.Reachable policy.rules := by
  induction events generalizing fleet with
  | nil => exact reachable
  | cons event rest inductionHypothesis =>
      exact inductionHypothesis (reachable_step reachable event)

end Fleet

end InstrumentScope
