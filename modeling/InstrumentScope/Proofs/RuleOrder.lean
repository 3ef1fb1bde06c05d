import InstrumentScope.Proofs.Decision
import InstrumentScope.Proofs.Footprints
import InstrumentScope.Proofs.RuleNumbers
import Mathlib.Data.List.Induction
import Mathlib.Data.List.Nodup

/-!
Contract: the order of registration matters only among equals.

Two rules are equals here if they are for the same module and the same contexts.
Coverage takes all rules of a module together, so no order shows in it. The
governing rule of a mapping is the first of those that name its context or, if
there is none, of those that are for every context; either way it is the first
among equals.

Owns:
- the coverage of permuted rules;
- the rule that governs when only unequal rules change places.
-/

namespace InstrumentScope

/-- In a list without repetitions no two items come in both orders. -/
theorem not_sublist_swap {α : Type} {items : List α} (distinct : items.Nodup)
    {earlier later : α} (before : [earlier, later].Sublist items) :
    ¬ [later, earlier].Sublist items := by
  induction items with
  | nil => contradiction
  | cons first rest inductionHypothesis =>
      obtain ⟨absent, distinct⟩ := List.nodup_cons.mp distinct
      intro after
      rcases List.sublist_cons_iff.mp before with beforeInRest | ⟨_, same, laterInRest⟩
      · rcases List.sublist_cons_iff.mp after with afterInRest | ⟨_, same, _⟩
        · exact inductionHypothesis distinct beforeInRest afterInRest
        · obtain ⟨rfl, _⟩ := List.cons.inj same
          exact absent (beforeInRest.subset (List.mem_cons_of_mem _ List.mem_cons_self))
      · obtain ⟨rfl, rfl⟩ := List.cons.inj same
        rcases List.sublist_cons_iff.mp after with afterInRest | ⟨_, same, _⟩
        · exact absent (afterInRest.subset (List.mem_cons_of_mem _ List.mem_cons_self))
        · obtain ⟨rfl, _⟩ := List.cons.inj same
          exact absent (laterInRest.subset List.mem_cons_self)

namespace RuleSource

/-- Sources for one module and the same contexts come in `permuted` in the order that they have in
`sources`. -/
def KeepsOrder (sources permuted : List RuleSource) : Prop :=
  ∀ earlier later : RuleSource, earlier.module = later.module → earlier.context = later.context →
    [earlier, later].Sublist sources → [earlier, later].Sublist permuted

/-- Only sources of the list come in any order in it. -/
instance (sources permuted : List RuleSource) : Decidable (KeepsOrder sources permuted) :=
  decidable_of_iff (∀ earlier ∈ sources, ∀ later ∈ sources, earlier.module = later.module →
      earlier.context = later.context → [earlier, later].Sublist sources →
        [earlier, later].Sublist permuted) (by
    constructor
    · intro ordered earlier later sameModule sameContext before
      have isEarlier := before.subset List.mem_cons_self
      have isLater := before.subset (List.mem_cons_of_mem earlier List.mem_cons_self)
      exact ordered earlier isEarlier later isLater sameModule sameContext before
    · exact fun keepsOrder earlier _ later _ => keepsOrder earlier later)

/-- If no name is given twice, every source that compiles is kept. -/
theorem registered_of_nodup {sources : List RuleSource} (distinct : (sources.map name).Nodup) :
    registered sources = sources.filter fun source => source.Compilable := by
  induction sources using List.reverseRecOn with
  | nil => rfl
  | append_singleton sources source inductionHypothesis =>
      rw [List.map_append, List.map_singleton] at distinct
      obtain ⟨distinct, _, apart⟩ := List.nodup_append.mp distinct
      have others : ∀ earlier ∈ registered sources, earlier.name ≠ source.name := by
        rw [inductionHypothesis distinct]
        intro earlier member
        exact apart _ (List.mem_map_of_mem (List.mem_filter.mp member).1) _
          (List.mem_singleton_self _)
      have kept : registered (sources ++ [source]) = keep (registered sources) source :=
        List.foldl_append
      rw [kept, keep, List.filter_append, ← inductionHypothesis distinct]
      by_cases compilable : source.Compilable
      · have isKept : [source].filter (fun source => source.Compilable) = [source] :=
          List.filter_cons_of_pos (decide_eq_true compilable)
        rw [if_pos ⟨compilable, others⟩, isKept]
      · have isDropped : [source].filter (fun source => source.Compilable) = [] :=
          List.filter_cons_of_neg (by simp [compilable])
        rw [if_neg fun both => compilable both.1, isDropped, List.append_nil]

/-- If the order is kept among equals, the sources for one module and the same contexts are the same
list in both orders. -/
theorem filter_eq_of_keepsOrder {sources permuted : List RuleSource} (distinct : sources.Nodup)
    (permutes : sources.Perm permuted) (keepsOrder : KeepsOrder sources permuted)
    (module : String) (context : ContextPattern) :
    (sources.filter fun source => source.module = module ∧ source.context = context) =
      permuted.filter fun source => source.module = module ∧ source.context = context := by
  have antisymmetric : ∀ earlier later : RuleSource,
      [earlier, later].Sublist permuted → [later, earlier].Sublist permuted → earlier = later :=
    fun _ _ before after => absurd after (not_sublist_swap (permutes.nodup distinct) before)
  refine List.Perm.eq_of_pairwise (fun earlier later _ _ => antisymmetric earlier later) ?_ ?_
    (permutes.filter _)
  · rw [List.pairwise_iff_forall_sublist]
    intro earlier later before
    have isEarlier := List.mem_filter.mp (before.subset List.mem_cons_self)
    have isLater :=
      List.mem_filter.mp (before.subset (List.mem_cons_of_mem _ List.mem_cons_self))
    rw [decide_eq_true_eq] at isEarlier isLater
    exact keepsOrder earlier later (isEarlier.2.1.trans isLater.2.1.symm)
      (isEarlier.2.2.trans isLater.2.2.symm) (before.trans List.filter_sublist)
  · rw [List.pairwise_iff_forall_sublist]
    exact fun before => before.trans List.filter_sublist

/-- Permuted sources are kept in permuted order. -/
theorem registered_perm {sources permuted : List RuleSource}
    (distinct : (sources.map name).Nodup) (permutes : sources.Perm permuted) :
    (registered sources).Perm (registered permuted) := by
  rw [registered_of_nodup distinct, registered_of_nodup ((permutes.map name).nodup distinct)]
  exact permutes.filter _

/-- Of equals, the sources that are kept are kept in the same order. -/
theorem filter_registered_eq {sources permuted : List RuleSource}
    (distinct : (sources.map name).Nodup) (permutes : sources.Perm permuted)
    (keepsOrder : KeepsOrder sources permuted) (module : String) (context : ContextPattern) :
    ((registered sources).filter fun source =>
        source.module = module ∧ source.context = context) =
      (registered permuted).filter fun source =>
        source.module = module ∧ source.context = context := by
  rw [registered_of_nodup distinct, registered_of_nodup ((permutes.map name).nodup distinct),
    List.filter_comm _ _ sources, List.filter_comm _ _ permuted,
    filter_eq_of_keepsOrder (List.Nodup.of_map name distinct) permutes keepsOrder]

end RuleSource

namespace Footprint

theorem greatest_eq_of_perm {words permuted : List UInt64} (permutes : words.Perm permuted) :
    greatest words = greatest permuted :=
  UInt64.le_antisymm
    (greatest_le fun _ member => le_greatest (permutes.mem_iff.mp member))
    (greatest_le fun _ member => le_greatest (permutes.mem_iff.mpr member))

/-- The maps of rules merge into the same map in every order. -/
theorem foldl_union_eq_of_perm {rules permuted : List Rule} (permutes : rules.Perm permuted)
    (rulesWellFormed : ∀ rule ∈ rules, rule.WellFormed) {map : UnitMap}
    (wellFormed : map.WellFormed) :
    rules.foldl (fun units rule => units.union rule.units) map =
      permuted.foldl (fun units rule => units.union rule.units) map := by
  have sameUnits : ∀ units, units ∈ rules.map Rule.units ↔ units ∈ permuted.map Rule.units :=
    fun _ => (permutes.map Rule.units).mem_iff
  have merged :=
    UnitMap.foldl_union_congr (Rule.wellFormed_units rulesWellFormed) sameUnits wellFormed
  simpa only [List.foldl_map] using merged

theorem ofRules?_eq_of_perm {rules permuted : List Rule} (permutes : rules.Perm permuted)
    (rulesWellFormed : ∀ rule ∈ rules, rule.WellFormed) :
    ofRules? rules = ofRules? permuted := by
  cases rules with
  | nil => rw [permutes.nil_eq]
  | cons rule rest =>
      cases permuted with
      | nil => exact absurd permutes.eq_nil (List.cons_ne_nil rule rest)
      | cons first others =>
          unfold ofRules?
          dsimp only
          rw [greatest_eq_of_perm (permutes.map (·.image.size)),
            greatest_eq_of_perm (permutes.map (·.units.size)),
            foldl_union_eq_of_perm permutes rulesWellFormed (UnitMap.wellFormed_blank _)]

end Footprint

/-- Which item governs is a matter of the items for one module and the same contexts. -/
theorem Mapping.governing?_congr {α : Type} {module : α → String} {context : α → ContextPattern}
    {items others : List α}
    (sameEquals : ∀ name pattern, (items.filter fun item => module item = name ∧
      context item = pattern) = others.filter fun item => module item = name ∧
        context item = pattern) (mapping : Mapping) :
    mapping.governing? module context items = mapping.governing? module context others := by
  unfold governing?
  rw [← List.head?_filter, ← List.head?_filter, ← List.head?_filter, ← List.head?_filter,
    sameEquals, sameEquals]

namespace RuleSet

variable {set other : RuleSet} {kept permuted : List RuleSource}

/-- Sets that hold the same sources have the same footprints. -/
theorem footprint?_eq_of_perm (holds : set.Holds kept) (otherHolds : other.Holds permuted)
    (permutes : kept.Perm permuted) (module : String) :
    (Coverage.ofRuleSet set).footprint? module = (Coverage.ofRuleSet other).footprint? module := by
  rw [Coverage.footprint?_ofRuleSet holds.wellFormed,
    Coverage.footprint?_ofRuleSet otherHolds.wellFormed]
  apply Footprint.ofRules?_eq_of_perm _ (wellFormed_of_mem_filter holds module)
  rw [holds.rules_eq, otherHolds.rules_eq]
  exact (permutes.map RuleSource.rule).filter _

/-- Sets that hold the same sources for each module and contexts, in the same order, resolve to the
same rules. -/
theorem get_resolve_congr (holds : set.Holds kept) (otherHolds : other.Holds permuted)
    (sameEquals : ∀ module context,
      (kept.filter fun source => source.module = module ∧ source.context = context) =
        permuted.filter fun source => source.module = module ∧ source.context = context)
    (mapping : Mapping) :
    (set.resolve mapping).bind set.get? = (other.resolve mapping).bind other.get? := by
  rw [get_resolve holds.wellFormed, get_resolve otherHolds.wellFormed, holds.rules_eq,
    otherHolds.rules_eq, Mapping.governing?_map, Mapping.governing?_map]
  exact congrArg (Option.map RuleSource.rule) (Mapping.governing?_congr sameEquals mapping)

/-- Resolution yields no number that is not that of a rule. -/
theorem resolve_eq_none (wellFormed : set.WellFormed) {mapping : Mapping}
    (ungoverned : (set.resolve mapping).bind set.get? = none) : set.resolve mapping = none := by
  cases resolved : set.resolve mapping with
  | none => rfl
  | some id =>
      obtain ⟨rule, present⟩ := get_of_resolve wellFormed resolved
      rw [resolved, Option.bind_some, present] at ungoverned
      contradiction

end RuleSet

/-- Registered in another order, sources with distinct names give the same coverage of every module.
If moreover the order is kept among those for the same module and the same contexts, every mapping
is governed by the same rule, or by none, and so every code needs instrumentation exactly if it did
before. -/
theorem order_matters_among_equals {sources permuted : List RuleSource}
    (distinct : (sources.map RuleSource.name).Nodup) (permutes : sources.Perm permuted) :
    let set := RuleSet.ofSources sources
    let other := RuleSet.ofSources permuted
    (∀ module,
      (Coverage.ofRuleSet set).footprint? module = (Coverage.ofRuleSet other).footprint? module ∧
      (Coverage.ofRuleSet set).isSelected module = (Coverage.ofRuleSet other).isSelected module) ∧
    (RuleSource.KeepsOrder sources permuted →
      (∀ mapping,
        (set.resolve mapping = none ∧ other.resolve mapping = none) ∨
        ∃ id otherId rule, set.resolve mapping = some id ∧ other.resolve mapping = some otherId ∧
          set.get? id = some rule ∧ other.get? otherId = some rule) ∧
      ∀ (options otherOptions : Options) (monitor otherMonitor : Monitor) (mapping : Mapping)
        (pc : Address),
        (monitor.needed (.ofRules set options) .fresh mapping pc).answer =
          (otherMonitor.needed (.ofRules other otherOptions) .fresh mapping pc).answer) := by
  intro set other
  have holds : set.Holds (RuleSource.registered sources) := RuleSet.holds_ofSources sources
  have otherHolds : other.Holds (RuleSource.registered permuted) :=
    RuleSet.holds_ofSources permuted
  constructor
  · intro module
    have sameFootprint := RuleSet.footprint?_eq_of_perm holds otherHolds
      (RuleSource.registered_perm distinct permutes) module
    refine ⟨sameFootprint, ?_⟩
    unfold Coverage.isSelected
    rw [sameFootprint]
  · intro keepsOrder
    have sameRule := RuleSet.get_resolve_congr holds otherHolds
      (RuleSource.filter_registered_eq distinct permutes keepsOrder)
    constructor
    · intro mapping
      cases governs : (set.resolve mapping).bind set.get? with
      | none =>
          have otherUngoverned := (sameRule mapping).symm.trans governs
          exact Or.inl ⟨RuleSet.resolve_eq_none holds.wellFormed governs,
            RuleSet.resolve_eq_none otherHolds.wellFormed otherUngoverned⟩
      | some rule =>
          have otherGoverns := (sameRule mapping).symm.trans governs
          obtain ⟨id, resolved, present⟩ := Option.bind_eq_some_iff.mp governs
          obtain ⟨otherId, otherResolved, otherPresent⟩ := Option.bind_eq_some_iff.mp otherGoverns
          exact Or.inr ⟨id, otherId, rule, resolved, otherResolved, present, otherPresent⟩
    · intro options otherOptions monitor otherMonitor mapping pc
      rw [Monitor.answer_needed (Path.coherent_fresh set),
        Monitor.answer_needed (Path.coherent_fresh other)]
      exact congrArg (Option.any (·.selects mapping pc)) (sameRule mapping)

/-- The source for a single context goes ahead of those for every context. -/
theorem order_matters_among_equals_sample :
    let sources := Sample.sources.take 3
    let permuted := (Sample.sources.take 3).drop 2 ++ Sample.sources.take 2
    let set := RuleSet.ofSources sources
    let other := RuleSet.ofSources permuted
    (sources.map RuleSource.name).Nodup ∧ sources.Perm permuted ∧ sources ≠ permuted ∧
      RuleSource.KeepsOrder sources permuted ∧ set.resolve Sample.mapping = some ⟨1⟩ ∧
      other.resolve Sample.mapping = some ⟨0⟩ ∧ set.get? ⟨1⟩ = other.get? ⟨0⟩ ∧
      (Coverage.ofRuleSet set).footprint? "app" = (Coverage.ofRuleSet other).footprint? "app" := by
  intro sources permuted set other
  have distinct : (sources.map RuleSource.name).Nodup := by decide
  have permutes : sources.Perm permuted := by decide
  have keepsOrder : RuleSource.KeepsOrder sources permuted := by decide
  have resolved : set.resolve Sample.mapping = some ⟨1⟩ := by decide +kernel
  have otherResolved : other.resolve Sample.mapping = some ⟨0⟩ := by decide +kernel
  obtain ⟨covered, ordered⟩ := order_matters_among_equals distinct permutes
  rcases (ordered keepsOrder).1 Sample.mapping with ⟨unresolved, _⟩ |
    ⟨id, otherId, rule, isId, isOtherId, present, otherPresent⟩
  · rw [resolved] at unresolved
    contradiction
  · obtain rfl := Option.some.inj (resolved.symm.trans isId)
    obtain rfl := Option.some.inj (otherResolved.symm.trans isOtherId)
    exact ⟨distinct, permutes, by decide, keepsOrder, resolved, otherResolved,
      present.trans otherPresent.symm, (covered "app").1⟩

end InstrumentScope
