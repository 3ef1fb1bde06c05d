import InstrumentScope.Proofs.PathMemory
import InstrumentScope.Proofs.Resolution

/-!
Contract: rules that come later take nothing back.

A set only ever gains rules at its end. So a number stands for the same rule for
good, a name that was found stays found, and a mapping moves to a new rule only
where that rule is for it and the old one was not, or was less specific. A path
does not even do that: what it has resolved it keeps, and the numbers that it
keeps still stand for the same rules.

Owns:
- the sets that a set can become, and the rules that they share with it;
- resolution in a set and in what becomes of it;
- the decisions of a path whose rules have grown in number.

Does not own:
- what one registration makes of a set (`RuleNumbers`);
- what a path remembers under rules of any kind (`PathMemory`).
-/

namespace InstrumentScope

namespace RuleSet

/-- The sets that a set can become by registering sources and loading entries, whether or not they
succeed. -/
inductive Becomes (set : RuleSet) : RuleSet → Prop where
  | unchanged : Becomes set set
  | register {between : RuleSet} (source : RuleSource) (before : Becomes set between) :
      Becomes set (between.offer source)
  | load {between : RuleSet} (store : Store) (catalog : Catalog) (entry : String)
      (before : Becomes set between) : Becomes set (between.load store catalog entry).rules

/-- The grown set begins with the rules of the set, in the same order. -/
def BeginsAs (set grown : RuleSet) : Prop :=
  ∃ added, grown.rules.toList = set.rules.toList ++ added

variable {set grown : RuleSet}

theorem BeginsAs.refl (set : RuleSet) : set.BeginsAs set :=
  ⟨[], (List.append_nil _).symm⟩

/-- One rule more at the end leaves the beginning as it was. -/
theorem BeginsAs.growsBy {between : RuleSet} (begins : set.BeginsAs between) {rule : Rule}
    {id : RuleId} (grows : between.GrowsBy rule id grown) : set.BeginsAs grown := by
  rcases begins with ⟨added, rules⟩
  refine ⟨added ++ [rule], ?_⟩
  rw [grows.rules, rules, List.append_assoc]

theorem Becomes.reachable (becomes : set.Becomes grown) (reachable : set.Reachable) :
    grown.Reachable := by
  induction becomes with
  | unchanged => exact reachable
  | register source _ inductionHypothesis => exact .register source inductionHypothesis
  | load store catalog entry _ inductionHypothesis =>
      exact .load store catalog entry inductionHypothesis

/-- Whatever is registered or loaded later, and whether or not it fails, the rules of a set stay
where they are. -/
theorem Becomes.beginsAs (becomes : set.Becomes grown) : set.BeginsAs grown := by
  induction becomes with
  | unchanged => exact .refl set
  | @register between source _ inductionHypothesis =>
      rcases between.offer_cases source with ⟨_, unchanged, _⟩ | ⟨id, _, grows⟩
      · rw [unchanged]
        exact inductionHypothesis
      · exact inductionHypothesis.growsBy grows
  | @load between store catalog entry _ inductionHypothesis =>
      rcases between.enroll_cases entry (Rule.load store catalog entry) with
        ⟨_, unchanged, _⟩ | ⟨rule, _, _, grows⟩
      · show set.BeginsAs (between.enroll entry (Rule.load store catalog entry)).rules
        rw [unchanged]
        exact inductionHypothesis
      · exact inductionHypothesis.growsBy grows

namespace BeginsAs

variable (begins : set.BeginsAs grown)

include begins

/-- The numbers of the set stand for the same rules in the grown set. -/
theorem get_of_lt {id : RuleId} (bound : id.index < set.size) :
    grown.get? id = set.get? id := by
  rcases begins with ⟨added, rules⟩
  unfold get?
  rw [← Array.getElem?_toList, ← Array.getElem?_toList, rules, List.getElem?_append_left bound]

theorem get {id : RuleId} {rule : Rule} (present : set.get? id = some rule) :
    grown.get? id = some rule := by
  rw [begins.get_of_lt (index_lt_of_get present), present]

/-- Of the numbers of the grown set those below the size are the numbers of the set. -/
theorem mem_numbersFor_iff {module : String} {context : ContextPattern} {number : Nat} :
    number ∈ set.numbersFor module context ↔
      number ∈ grown.numbersFor module context ∧ number < set.size := by
  constructor
  · intro isFor
    rcases isFor with ⟨rule, present, same⟩
    exact ⟨⟨rule, begins.get present, same⟩, index_lt_of_get present⟩
  · intro inside
    rcases inside with ⟨⟨rule, present, same⟩, bound⟩
    exact ⟨rule, (begins.get_of_lt bound).symm.trans present, same⟩

theorem nonempty_numbersFor {module : String} {context : ContextPattern}
    (nonempty : (set.numbersFor module context).Nonempty) :
    (grown.numbersFor module context).Nonempty := by
  rcases nonempty with ⟨number, isFor⟩
  exact ⟨number, (begins.mem_numbersFor_iff.mp isFor).1⟩

/-- The first rule for a module and a pattern remains the first. -/
theorem isLeast {module : String} {context : ContextPattern} {number : Nat}
    (least : IsLeast (set.numbersFor module context) number) :
    IsLeast (grown.numbersFor module context) number := by
  rcases begins.mem_numbersFor_iff.mp least.1 with ⟨isFor, bound⟩
  refine ⟨isFor, ?_⟩
  intro other isOther
  by_cases earlier : other < set.size
  · exact least.2 (begins.mem_numbersFor_iff.mpr ⟨isOther, earlier⟩)
  · exact Nat.le_trans (Nat.le_of_lt bound) (Nat.le_of_not_lt earlier)

/-- The first rule of the grown set for a module and a pattern is that of the set, or it is new and
the set has none. -/
theorem isLeast_cases {module : String} {context : ContextPattern} {number : Nat}
    (least : IsLeast (grown.numbersFor module context) number) :
    IsLeast (set.numbersFor module context) number ∨
      (set.size ≤ number ∧ ¬ (set.numbersFor module context).Nonempty) := by
  by_cases earlier : number < set.size
  · left
    refine ⟨begins.mem_numbersFor_iff.mpr ⟨least.1, earlier⟩, ?_⟩
    intro other isOther
    exact least.2 (begins.mem_numbersFor_iff.mp isOther).1
  · right
    refine ⟨Nat.le_of_not_lt earlier, ?_⟩
    intro nonempty
    rcases nonempty with ⟨other, isOther⟩
    rcases begins.mem_numbersFor_iff.mp isOther with ⟨isFor, bound⟩
    exact earlier (Nat.lt_of_le_of_lt (least.2 isFor) bound)

section Resolution

variable (wellFormed : set.WellFormed)

include wellFormed

/-- What the set resolves a mapping to is a number of the set. -/
theorem bind_get_resolve (mapping : Mapping) :
    (set.resolve mapping).bind grown.get? = (set.resolve mapping).bind set.get? := by
  cases resolved : set.resolve mapping with
  | none => rfl
  | some id =>
      rcases get_of_resolve wellFormed resolved with ⟨rule, present⟩
      rw [Option.bind_some, Option.bind_some, present, begins.get present]

variable (grownWellFormed : grown.WellFormed)

include grownWellFormed

theorem find {name : String} {id : RuleId} (found : set.find? name = some id) :
    grown.find? name = some id := by
  rcases (wellFormed.find_iff name id).mp found with ⟨rule, present, named⟩
  exact (grownWellFormed.find_iff name id).mpr ⟨rule, begins.get present, named⟩

/-- A mapping that a rule for its own context governs is governed by that rule for good. -/
theorem resolve_of_named {mapping : Mapping} {id : RuleId} {rule : Rule}
    (resolved : set.resolve mapping = some id) (present : set.get? id = some rule)
    (named : rule.context = .named mapping.context) : grown.resolve mapping = some id := by
  rw [resolve_eq_some_iff grownWellFormed]
  rcases (resolve_eq_some_iff wellFormed).mp resolved with least | ⟨_, general⟩
  · exact Or.inl (begins.isLeast least)
  · rcases general.1 with ⟨found, isFound, _, isAny⟩
    rw [present, Option.some.injEq] at isFound
    rw [← isFound, named] at isAny
    contradiction

/-- A mapping is governed as before, or by a new rule: by any, if no rule governed it, and
otherwise by one for its own context in place of one for every context. -/
theorem resolve_cases (mapping : Mapping) :
    grown.resolve mapping = set.resolve mapping ∨
      ∃ id rule, grown.resolve mapping = some id ∧ grown.get? id = some rule ∧
        set.size ≤ id.index ∧
        (set.resolve mapping = none ∨
          rule.context = .named mapping.context ∧
            ∃ former general, set.resolve mapping = some former ∧
              set.get? former = some general ∧ general.context = .any) := by
  cases resolved : grown.resolve mapping with
  | none =>
      rcases (resolve_eq_none_iff grownWellFormed).mp resolved with ⟨unnamed, ungeneral⟩
      have unresolved : set.resolve mapping = none := (resolve_eq_none_iff wellFormed).mpr
        ⟨fun named => unnamed (begins.nonempty_numbersFor named),
          fun general => ungeneral (begins.nonempty_numbersFor general)⟩
      exact Or.inl unresolved.symm
  | some id =>
      rcases get_of_resolve grownWellFormed resolved with ⟨rule, present⟩
      rcases (resolve_eq_some_iff grownWellFormed).mp resolved with named | ⟨unnamed, general⟩
      · rcases begins.isLeast_cases named with same | ⟨isNew, unnamed⟩
        · exact Or.inl ((resolve_eq_some_iff wellFormed).mpr (Or.inl same)).symm
        · refine Or.inr ⟨id, rule, rfl, present, isNew, ?_⟩
          cases formerly : set.resolve mapping with
          | none => exact Or.inl rfl
          | some former =>
              rcases named.1 with ⟨found, isFound, _, isNamed⟩
              rw [present, Option.some.injEq] at isFound
              rcases (resolve_eq_some_iff wellFormed).mp formerly with named | ⟨_, general⟩
              · exact absurd ⟨_, named.1⟩ unnamed
              · rcases general.1 with ⟨earlier, isEarlier, _, isAny⟩
                exact Or.inr ⟨isFound ▸ isNamed, former, earlier, rfl, isEarlier, isAny⟩
      · have stillUnnamed : ¬ (set.numbersFor mapping.module (.named mapping.context)).Nonempty :=
          fun named => unnamed (begins.nonempty_numbersFor named)
        rcases begins.isLeast_cases general with same | ⟨isNew, ungeneral⟩
        · exact Or.inl ((resolve_eq_some_iff wellFormed).mpr (Or.inr ⟨stillUnnamed, same⟩)).symm
        · have unresolved := (resolve_eq_none_iff wellFormed).mpr ⟨stillUnnamed, ungeneral⟩
          exact Or.inr ⟨id, rule, rfl, present, isNew, Or.inl unresolved⟩

end Resolution

end BeginsAs

end RuleSet

namespace Path

variable {set grown : RuleSet} {path : Path}

theorem recalls_of_coherent (coherent : path.Coherent set) : path.Recalls :=
  ⟨coherent.active, coherent.current⟩

/-- What a path remembers are numbers of the set, so the rules that were added make no difference to
its decisions. -/
theorem isInstrumented_of_beginsAs (begins : set.BeginsAs grown) (wellFormed : set.WellFormed)
    (coherent : path.Coherent set) (pc : Address) :
    path.isInstrumented grown pc = path.isInstrumented set pc := by
  unfold isInstrumented
  cases current : path.current with
  | none => rfl
  | some mapping =>
      dsimp only
      rw [ruleOf_of_coherent coherent (coherent.current mapping current),
        begins.bind_get_resolve wellFormed]

/-- A mapping that the path remembers is activated from memory, under any rules. -/
theorem activate_of_cached (recalls : path.Recalls) {mapping : Mapping} {rule : Option RuleId}
    (known : path.cached mapping = some rule) (rules : RuleSet) :
    (path.activate rules mapping).rule = rule ∧ (path.activate rules mapping).scans = 0 := by
  rw [rule_activate recalls, scans_activate recalls, known]
  exact ⟨rfl, if_neg (Option.some_ne_none rule)⟩

end Path

/-- Let a set become another by registering and loading more. A number stands for the same rule as
before, and a name that was found is found under the same number. A mapping that was governed by a
rule for its own context still is; any other is governed as before, or by a new rule where none
governed it, or by a new rule for its own context where one for every context did. A path over the
set decides as before, and activates every mapping that it has resolved, whether or not to a rule,
with the same outcome and without a search. -/
theorem later_rules_revise_nothing {set grown : RuleSet} (reachable : set.Reachable)
    (becomes : set.Becomes grown) :
    (∀ id rule, set.get? id = some rule → grown.get? id = some rule) ∧
    (∀ name id, set.find? name = some id → grown.find? name = some id) ∧
    (∀ mapping id rule, set.resolve mapping = some id → set.get? id = some rule →
      rule.context = .named mapping.context → grown.resolve mapping = some id) ∧
    (∀ mapping, grown.resolve mapping = set.resolve mapping ∨
      ∃ id rule, grown.resolve mapping = some id ∧ grown.get? id = some rule ∧
        set.size ≤ id.index ∧
        (set.resolve mapping = none ∨
          rule.context = .named mapping.context ∧
            ∃ former general, set.resolve mapping = some former ∧
              set.get? former = some general ∧ general.context = .any)) ∧
    ∀ path : Path, path.Reachable set →
      (∀ pc, path.isInstrumented grown pc = path.isInstrumented set pc) ∧
      ∀ mapping rule, path.cached mapping = some rule →
        rule = set.resolve mapping ∧ (path.activate set mapping).rule = rule ∧
          (path.activate grown mapping).rule = rule ∧
          (path.activate grown mapping).scans = 0 := by
  have begins := becomes.beginsAs
  have wellFormed := reachable.wellFormed
  have grownWellFormed := (becomes.reachable reachable).wellFormed
  refine ⟨fun id rule => begins.get, fun name id => begins.find wellFormed grownWellFormed,
    fun mapping id rule => begins.resolve_of_named wellFormed grownWellFormed,
    begins.resolve_cases wellFormed grownWellFormed, ?_⟩
  intro path pathReachable
  have coherent := Path.coherent_of_reachable pathReachable
  refine ⟨Path.isInstrumented_of_beginsAs begins wellFormed coherent, ?_⟩
  intro mapping rule known
  have recalls := Path.recalls_of_coherent coherent
  rcases Path.activate_of_cached recalls known grown with ⟨answered, unsearched⟩
  exact ⟨coherent.resolved mapping rule known, (Path.activate_of_cached recalls known set).1,
    answered, unsearched⟩

/-- A rule for the context that a path is in comes too late for the path. -/
theorem later_rules_revise_nothing_sample :
    let set := RuleSet.ofSources Sample.sources
    let late : RuleSource := ⟨"late", "app", .named "pid-2", ⟨0x1000, 0x100⟩, [⟨0x0, 0x1⟩], []⟩
    let grown := set.offer late
    let elsewhere : Mapping := { Sample.mapping with context := "pid-2" }
    let path := (Path.fresh.enter set elsewhere).path
    set.Reachable ∧ set.Becomes grown ∧ path.Reachable set ∧
      set.resolve elsewhere = some ⟨0⟩ ∧ grown.resolve elsewhere = some ⟨2⟩ ∧
      grown.resolve Sample.mapping = some ⟨1⟩ ∧ grown.find? "whole" = some ⟨0⟩ ∧
      path.cached elsewhere = some (some ⟨0⟩) ∧
      (path.activate grown elsewhere).rule = some ⟨0⟩ ∧
      path.isInstrumented grown 0x7080 = true := by
  intro set late grown elsewhere path
  have reachable : set.Reachable := RuleSet.reachable_ofSources Sample.sources
  have becomes : set.Becomes grown := .register late .unchanged
  have pathReachable : path.Reachable set := .enter elsewhere .fresh
  have resolved : set.resolve Sample.mapping = some ⟨1⟩ := by decide +kernel
  have general : set.resolve elsewhere = some ⟨0⟩ := by decide +kernel
  have superseded : grown.resolve elsewhere = some ⟨2⟩ := by decide +kernel
  have found : set.find? "whole" = some ⟨0⟩ := by decide +kernel
  have known : path.cached elsewhere = some (some ⟨0⟩) := by decide +kernel
  have decided : path.isInstrumented set 0x7080 = true := by decide +kernel
  rcases later_rules_revise_nothing reachable becomes with ⟨_, names, exact, _, paths⟩
  rcases paths path pathReachable with ⟨decisions, remembered⟩
  rcases RuleSet.get_of_resolve reachable.wellFormed resolved with ⟨rule, present⟩
  have named : rule.context = .named Sample.mapping.context := by
    have context : ((set.get? ⟨1⟩).map Rule.context) = some (.named "pid-1") := by decide +kernel
    rw [present] at context
    exact Option.some.inj context
  rcases remembered elsewhere (some ⟨0⟩) known with ⟨_, _, answered, _⟩
  exact ⟨reachable, becomes, pathReachable, general, superseded,
    exact Sample.mapping ⟨1⟩ rule resolved present named, names "whole" ⟨0⟩ found, known, answered,
    (decisions 0x7080).trans decided⟩

end InstrumentScope
