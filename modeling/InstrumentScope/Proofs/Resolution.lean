import InstrumentScope.Proofs.RuleNumbers
import Mathlib.Order.Bounds.Defs

/-!
Contract: the rule that governs a mapping is the first of the most specific ones.

Resolution searches the numbers of one module twice. Neither the table nor the
two passes show in its outcome: it is the least number, over the whole set, of a
rule that names the mapping's context, or, where no rule does, of a rule for
every context. A rule for a context that is merely called like the wildcard is a
rule for that context and no other.

Owns:
- the numbers of the rules for a module and a pattern;
- resolution, read off these numbers.

Does not own:
- the search through the table of a module (`RuleTables`).
-/

namespace InstrumentScope

namespace RuleSet

/-- The numbers of the rules of a set that are for this module and have this pattern. -/
def numbersFor (set : RuleSet) (module : String) (context : ContextPattern) : Set Nat :=
  {number | ∃ rule, set.get? ⟨number⟩ = some rule ∧ rule.module = module ∧ rule.context = context}

variable {set : RuleSet} {module : String} {context : ContextPattern}

theorem numbersFor_nonempty_iff :
    (set.numbersFor module context).Nonempty ↔
      ∃ rule ∈ set.rules.toList, rule.module = module ∧ rule.context = context := by
  constructor
  · intro nonempty
    rcases nonempty with ⟨number, rule, present, same⟩
    exact ⟨rule, mem_rules_iff.mpr ⟨⟨number⟩, present⟩, same⟩
  · intro ruled
    rcases ruled with ⟨rule, member, same⟩
    rcases mem_rules_iff.mp member with ⟨id, present⟩
    exact ⟨id.index, rule, present, same⟩

theorem any_iff_mem_numbersFor (number : Nat) :
    ((set.get? ⟨number⟩).any fun rule => rule.module = module ∧ rule.context = context) = true ↔
      number ∈ set.numbersFor module context := by
  rw [Option.any_eq_true]
  simp only [decide_eq_true_eq]
  rfl

/-- The first rule for a module with a pattern is the one with the least number. -/
theorem firstWhere_eq_some_iff {id : RuleId} :
    (set.firstWhere fun rule => rule.module = module ∧ rule.context = context) = some id ↔
      IsLeast (set.numbersFor module context) id.index := by
  unfold firstWhere ids
  rw [List.find?_map, Option.map_eq_some_iff]
  simp only [List.find?_range_eq_some, Function.comp_apply, List.mem_range, Bool.not_eq_true',
    ← Bool.not_eq_true, any_iff_mem_numbersFor]
  constructor
  · intro first
    rcases first with ⟨number, ⟨isFor, _, others⟩, rfl⟩
    refine ⟨isFor, ?_⟩
    intro other isOther
    apply Nat.le_of_not_lt
    intro before
    exact others other before isOther
  · intro least
    have bound : id.index < set.size := by
      rcases least.1 with ⟨rule, present, _⟩
      exact index_lt_of_get present
    refine ⟨id.index, ⟨least.1, bound, ?_⟩, rfl⟩
    intro earlier before isEarlier
    exact Nat.not_le_of_lt before (least.2 isEarlier)

theorem firstWhere_eq_none_iff :
    (set.firstWhere fun rule => rule.module = module ∧ rule.context = context) = none ↔
      ¬ (set.numbersFor module context).Nonempty := by
  have found := bind_get_firstWhere set fun rule => rule.module = module ∧ rule.context = context
  rw [numbersFor_nonempty_iff]
  constructor
  · intro missing
    rw [missing, Option.bind_none, eq_comm, List.find?_eq_none] at found
    intro ruled
    rcases ruled with ⟨rule, member, same⟩
    exact found rule member (decide_eq_true same)
  · intro unruled
    cases first : set.firstWhere fun rule => rule.module = module ∧ rule.context = context with
    | none => rfl
    | some id =>
        rcases get_of_firstWhere first with ⟨rule, present, same⟩
        have member := mem_rules_iff.mpr ⟨id, present⟩
        exact absurd ⟨rule, member, of_decide_eq_true same⟩ unruled

/-- Resolution yields the least number of a rule that names the context; if there is none, the least
number of a rule for every context. -/
theorem resolve_eq_some_iff (wellFormed : set.WellFormed) {mapping : Mapping} {id : RuleId} :
    set.resolve mapping = some id ↔
      IsLeast (set.numbersFor mapping.module (.named mapping.context)) id.index ∨
        ¬ (set.numbersFor mapping.module (.named mapping.context)).Nonempty ∧
          IsLeast (set.numbersFor mapping.module .any) id.index := by
  rw [resolve_eq wellFormed, Option.or_eq_some_iff, firstWhere_eq_some_iff,
    firstWhere_eq_none_iff, firstWhere_eq_some_iff]

theorem resolve_eq_none_iff (wellFormed : set.WellFormed) {mapping : Mapping} :
    set.resolve mapping = none ↔
      ¬ (set.numbersFor mapping.module (.named mapping.context)).Nonempty ∧
        ¬ (set.numbersFor mapping.module .any).Nonempty := by
  rw [resolve_eq wellFormed, Option.or_eq_none_iff, firstWhere_eq_none_iff,
    firstWhere_eq_none_iff]

theorem exists_resolve_of_named (wellFormed : set.WellFormed) {mapping : Mapping}
    (named : (set.numbersFor mapping.module (.named mapping.context)).Nonempty) :
    ∃ id, set.resolve mapping = some id ∧
      IsLeast (set.numbersFor mapping.module (.named mapping.context)) id.index := by
  cases resolved : set.resolve mapping with
  | none => exact absurd named ((resolve_eq_none_iff wellFormed).mp resolved).1
  | some id =>
      rcases (resolve_eq_some_iff wellFormed).mp resolved with least | ⟨unnamed, _⟩
      · exact ⟨id, rfl, least⟩
      · exact absurd named unnamed

theorem exists_resolve_of_general (wellFormed : set.WellFormed) {mapping : Mapping}
    (unnamed : ¬ (set.numbersFor mapping.module (.named mapping.context)).Nonempty)
    (general : (set.numbersFor mapping.module .any).Nonempty) :
    ∃ id, set.resolve mapping = some id ∧
      IsLeast (set.numbersFor mapping.module .any) id.index := by
  cases resolved : set.resolve mapping with
  | none => exact absurd general ((resolve_eq_none_iff wellFormed).mp resolved).2
  | some id =>
      rcases (resolve_eq_some_iff wellFormed).mp resolved with least | ⟨_, least⟩
      · exact absurd ⟨_, least.1⟩ unnamed
      · exact ⟨id, rfl, least⟩

/-- Where mappings of a module lie and how large they are is of no concern. -/
theorem resolve_congr (set : RuleSet) {mapping other : Mapping}
    (sameModule : other.module = mapping.module) (sameContext : other.context = mapping.context) :
    set.resolve other = set.resolve mapping := by
  have sameApplies : set.appliesTo other = set.appliesTo mapping := by
    unfold appliesTo
    rw [sameModule, sameContext]
  unfold resolve
  rw [sameModule, sameApplies]

/-- A resolved rule is for the mapped module, and for every context or for that of the mapping. -/
theorem context_of_resolve (wellFormed : set.WellFormed) {mapping : Mapping} {id : RuleId}
    (resolved : set.resolve mapping = some id) {rule : Rule} (present : set.get? id = some rule) :
    rule.context = .any ∨ rule.context = .named mapping.context := by
  rcases (resolve_eq_some_iff wellFormed).mp resolved with named | ⟨_, general⟩
  · rcases named.1 with ⟨found, isFound, _, context⟩
    rw [present, Option.some.injEq] at isFound
    exact Or.inr (isFound ▸ context)
  · rcases general.1 with ⟨found, isFound, _, context⟩
    rw [present, Option.some.injEq] at isFound
    exact Or.inl (isFound ▸ context)

/-- However a set was filled, a mapping resolves to no rule exactly if no rule for its module is for
every context or names the mapping's. If some rule names it, resolution yields the least number of
such a rule, whatever rules for every context there are besides; otherwise it yields the least
number of a rule for every context. Only the module and the context of a mapping count, and a rule
for a context named like the wildcard governs in no other context. -/
theorem least_applicable_rule_governs (reachable : set.Reachable) (mapping : Mapping) :
    let named := set.numbersFor mapping.module (.named mapping.context)
    let general := set.numbersFor mapping.module .any
    (set.resolve mapping = none ↔ ∀ rule ∈ set.rules.toList, rule.module = mapping.module →
      rule.context ≠ .any ∧ rule.context ≠ .named mapping.context) ∧
    (named.Nonempty → ∃ id, set.resolve mapping = some id ∧ IsLeast named id.index) ∧
    (¬ named.Nonempty → general.Nonempty →
      ∃ id, set.resolve mapping = some id ∧ IsLeast general id.index) ∧
    (∀ other : Mapping, other.module = mapping.module → other.context = mapping.context →
      set.resolve other = set.resolve mapping) ∧
    ∀ id rule, set.resolve mapping = some id → set.get? id = some rule →
      rule.context = .named ContextPattern.wildcard →
        mapping.context = ContextPattern.wildcard := by
  intro named general
  have wellFormed := reachable.wellFormed
  refine ⟨?_, exists_resolve_of_named wellFormed, exists_resolve_of_general wellFormed,
    fun other => set.resolve_congr, ?_⟩
  · rw [resolve_eq_none_iff wellFormed, numbersFor_nonempty_iff, numbersFor_nonempty_iff]
    constructor
    · intro unruled rule member sameModule
      exact ⟨fun isAny => unruled.2 ⟨rule, member, sameModule, isAny⟩,
        fun isNamed => unruled.1 ⟨rule, member, sameModule, isNamed⟩⟩
    · intro apart
      constructor
      · rintro ⟨rule, member, sameModule, isNamed⟩
        exact (apart rule member sameModule).2 isNamed
      · rintro ⟨rule, member, sameModule, isAny⟩
        exact (apart rule member sameModule).1 isAny
  · intro id rule resolved present literal
    rcases context_of_resolve wellFormed resolved present with isAny | isNamed
    · rw [literal] at isAny
      contradiction
    · rw [literal] at isNamed
      exact (ContextPattern.named.inj isNamed).symm

end RuleSet

namespace Sample

/-- Rules for every context before and after rules that name one, and a rule for a context that is
named like the wildcard. -/
def contested : List RuleSource := [
  ⟨"literal", "app", .named "*", ⟨0x1000, 0x100⟩, [], []⟩,
  ⟨"general", "app", .any, ⟨0x1000, 0x100⟩, [], []⟩,
  ⟨"part", "app", .named "pid-1", ⟨0x1000, 0x100⟩, [⟨0x0, 0x40⟩], []⟩,
  ⟨"late", "app", .any, ⟨0x1000, 0x100⟩, [], []⟩,
  ⟨"shadowed", "app", .named "pid-1", ⟨0x1000, 0x100⟩, [], []⟩]

end Sample

/-- In the context that two rules name the first of them governs, elsewhere the first rule for every
context. -/
theorem RuleSet.least_applicable_rule_governs_sample :
    let set := ofSources Sample.contested
    let elsewhere : Mapping := { Sample.mapping with context := "pid-2" }
    set.Reachable ∧
      IsLeast (set.numbersFor "app" (.named "pid-1")) 2 ∧
      IsLeast (set.numbersFor "app" .any) 1 ∧
      set.resolve Sample.mapping = some ⟨2⟩ ∧ set.resolve elsewhere = some ⟨1⟩ := by
  intro set elsewhere
  have reachable : set.Reachable := reachable_ofSources Sample.contested
  have resolved : set.resolve Sample.mapping = some ⟨2⟩ := by decide +kernel
  have elsewhereResolved : set.resolve elsewhere = some ⟨1⟩ := by decide +kernel
  have isNamed : (set.numbersFor "app" (.named "pid-1")).Nonempty :=
    numbersFor_nonempty_iff.mpr (by decide +kernel)
  have isGeneral : (set.numbersFor "app" .any).Nonempty :=
    numbersFor_nonempty_iff.mpr (by decide +kernel)
  have unnamed : ¬ (set.numbersFor "app" (.named "pid-2")).Nonempty := by
    rw [numbersFor_nonempty_iff]
    decide +kernel
  rcases (least_applicable_rule_governs reachable Sample.mapping).2.1 isNamed with
    ⟨id, isId, least⟩
  rcases (least_applicable_rule_governs reachable elsewhere).2.2.1 unnamed isGeneral with
    ⟨elsewhereId, isElsewhere, elsewhereLeast⟩
  have same := Option.some.inj (resolved.symm.trans isId)
  have elsewhereSame := Option.some.inj (elsewhereResolved.symm.trans isElsewhere)
  subst same elsewhereSame
  exact ⟨reachable, least, elsewhereLeast, resolved, elsewhereResolved⟩

end InstrumentScope
