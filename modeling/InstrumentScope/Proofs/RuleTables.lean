import InstrumentScope.RuleSet.Basic
import Mathlib.Data.List.Find

/-!
Contract: the two tables of a rule set agree with its rules.

A question about a set is answered through a table and a number; its meaning is
a question about the list of rules. As long as the tables agree with the rules
the two coincide, and every registration keeps them in agreement.

Owns:
- the agreement of the tables, and its preservation by registration;
- the rules for a module and the rule that governs a mapping, read off the list
  of rules.
-/

namespace InstrumentScope

/-- Of `items` the first that is for the mapped module and names its context; if none does, the
first that is for the module in every context. -/
def Mapping.governing? {α : Type} (mapping : Mapping) (module : α → String)
    (context : α → ContextPattern) (items : List α) : Option α :=
  (items.find? fun item =>
      module item = mapping.module ∧ context item = .named mapping.context).or
    (items.find? fun item => module item = mapping.module ∧ context item = .any)

theorem Mapping.governing?_map {α β : Type} (mapping : Mapping) (module : β → String)
    (context : β → ContextPattern) (f : α → β) (items : List α) :
    mapping.governing? module context (items.map f) =
      (mapping.governing? (module ∘ f) (context ∘ f) items).map f := by
  unfold governing?
  rw [List.find?_map, List.find?_map, Option.map_or]
  rfl

/-- The governing item is one of the items, is for the module, and accepts the context. -/
theorem Mapping.governing?_eq_some {α : Type} {mapping : Mapping} {module : α → String}
    {context : α → ContextPattern} {items : List α} {item : α}
    (governs : mapping.governing? module context items = some item) :
    item ∈ items ∧ module item = mapping.module ∧
      (context item).accepts mapping.context = true := by
  rcases Option.or_eq_some_iff.mp governs with named | ⟨_, general⟩
  · have holds := List.find?_some named
    rw [decide_eq_true_eq] at holds
    exact ⟨List.mem_of_find?_eq_some named, holds.1, by rw [holds.2]; simp⟩
  · have holds := List.find?_some general
    rw [decide_eq_true_eq] at holds
    exact ⟨List.mem_of_find?_eq_some general, holds.1, by rw [holds.2]; simp⟩

namespace RuleSet

/-- The numbers of all rules, in the order of registration. -/
def ids (set : RuleSet) : List RuleId :=
  (List.range set.size).map RuleId.mk

/-- Both tables hold what the rules say. -/
structure WellFormed (set : RuleSet) : Prop where
  find_iff : ∀ name id,
    set.find? name = some id ↔ ∃ rule, set.get? id = some rule ∧ rule.name = name
  forModule_eq : ∀ module,
    set.forModule module = set.ids.filter fun id => (set.get? id).any (·.module == module)
  listed : ∀ module, module ∈ set.byModule →
    ∃ id rule, set.get? id = some rule ∧ rule.module = module

theorem mem_ids {set : RuleSet} {id : RuleId} : id ∈ set.ids ↔ id.index < set.size := by
  unfold ids
  rw [List.mem_map]
  constructor
  · intro numbered
    rcases numbered with ⟨index, inRange, rfl⟩
    exact List.mem_range.mp inRange
  · intro bound
    exact ⟨id.index, List.mem_range.mpr bound, rfl⟩

theorem index_lt_of_get {set : RuleSet} {id : RuleId} {rule : Rule}
    (present : set.get? id = some rule) : id.index < set.size := by
  obtain ⟨bound, _⟩ := Array.getElem?_eq_some_iff.mp present
  exact bound

theorem ids_append (set : RuleSet) (rule : Rule) :
    (set.append rule).ids = set.ids ++ [⟨set.size⟩] := by
  simp [ids, size, append, List.range_succ]

theorem get_append_of_mem {set : RuleSet} {id : RuleId} (member : id ∈ set.ids) (rule : Rule) :
    (set.append rule).get? id = set.get? id := by
  have bound := mem_ids.mp member
  rw [get?_append, if_neg (by omega)]

theorem filterMap_ids (set : RuleSet) : set.ids.filterMap set.get? = set.rules.toList := by
  have enumerate : ∀ rules : List Rule,
      (List.range rules.length).filterMap (fun index => rules[index]?) = rules := by
    intro rules
    induction rules with
    | nil => rfl
    | cons rule rest inductionHypothesis =>
        rw [List.length_cons, List.range_succ_eq_map, List.filterMap_cons, List.filterMap_map]
        simp only [List.getElem?_cons_zero, Function.comp_def, List.getElem?_cons_succ]
        rw [inductionHypothesis]
  unfold ids
  rw [List.filterMap_map]
  simpa [size, get?, Function.comp_def] using enumerate set.rules.toList

theorem wellFormed_empty : empty.WellFormed where
  find_iff := by simp [find?, get?, empty]
  forModule_eq := by simp [forModule, ids, size, empty]
  listed := by simp [empty]

private theorem find_iff_append {set : RuleSet} (wellFormed : set.WellFormed) {rule : Rule}
    (free : set.find? rule.name = none) (name : String) (id : RuleId) :
    (set.append rule).find? name = some id ↔
      ∃ found, (set.append rule).get? id = some found ∧ found.name = name := by
  rw [find?_append, get?_append]
  by_cases sameName : rule.name = name
  · subst sameName
    rw [if_pos rfl, Option.some.injEq]
    constructor
    · rintro rfl
      exact ⟨rule, if_pos rfl, rfl⟩
    · intro named
      rcases named with ⟨found, present, foundName⟩
      split at present
      · next last => exact (congrArg RuleId.mk last).symm
      · have taken := (wellFormed.find_iff rule.name id).mpr ⟨found, present, foundName⟩
        rw [free] at taken
        contradiction
  · rw [if_neg sameName, wellFormed.find_iff name id]
    constructor
    · intro named
      rcases named with ⟨found, present, foundName⟩
      have bound := index_lt_of_get present
      exact ⟨found, by rw [if_neg (by omega), present], foundName⟩
    · intro named
      rcases named with ⟨found, present, foundName⟩
      split at present
      · rw [Option.some.injEq] at present
        subst present
        exact absurd foundName sameName
      · exact ⟨found, present, foundName⟩

private theorem forModule_eq_append {set : RuleSet} (wellFormed : set.WellFormed) (rule : Rule)
    (module : String) :
    (set.append rule).forModule module =
      (set.append rule).ids.filter fun id =>
        ((set.append rule).get? id).any (·.module == module) := by
  have earlier : (set.ids.filter fun id =>
      ((set.append rule).get? id).any (·.module == module)) = set.forModule module := by
    rw [wellFormed.forModule_eq module]
    apply List.filter_congr
    intro id member
    rw [get_append_of_mem member rule]
  have last : (set.append rule).get? ⟨set.size⟩ = some rule := by
    rw [get?_append, if_pos rfl]
  rw [forModule_append, ids_append, List.filter_append, earlier, List.filter_cons, List.filter_nil,
    last]
  by_cases sameModule : rule.module = module <;> simp [sameModule]

theorem wellFormed_append {set : RuleSet} (wellFormed : set.WellFormed) {rule : Rule}
    (free : set.find? rule.name = none) : (set.append rule).WellFormed where
  find_iff := find_iff_append wellFormed free
  forModule_eq := forModule_eq_append wellFormed rule
  listed module member := by
    have member : module ∈ set.byModule.insert rule.module
        (set.forModule rule.module ++ [⟨set.rules.size⟩]) := member
    rw [Std.ExtTreeMap.mem_insert, Std.LawfulEqCmp.compare_eq_iff_eq] at member
    rcases member with sameModule | before
    · exact ⟨⟨set.size⟩, rule, by rw [get?_append, if_pos rfl], sameModule⟩
    · obtain ⟨id, found, present, foundModule⟩ := wellFormed.listed module before
      have bound := index_lt_of_get present
      exact ⟨id, found, by rw [get?_append, if_neg (by omega), present], foundModule⟩

/-- The rules found through the table of a module are the rules for the module. -/
theorem filterMap_forModule {set : RuleSet} (wellFormed : set.WellFormed) (module : String) :
    (set.forModule module).filterMap set.get? =
      set.rules.toList.filter (·.module == module) := by
  rw [wellFormed.forModule_eq module, List.filterMap_filter, ← filterMap_ids,
    List.filter_filterMap]
  congr 1
  funext id
  cases set.get? id with
  | none => simp
  | some rule => simp [Option.filter]

/-- The number of the first rule with a property. -/
def firstWhere (set : RuleSet) (property : Rule → Bool) : Option RuleId :=
  set.ids.find? fun id => (set.get? id).any property

theorem bind_get_firstWhere (set : RuleSet) (property : Rule → Bool) :
    (set.firstWhere property).bind set.get? = set.rules.toList.find? property := by
  rw [← filterMap_ids, List.find?_filterMap]
  rfl

theorem get_of_firstWhere {set : RuleSet} {property : Rule → Bool} {id : RuleId}
    (first : set.firstWhere property = some id) :
    ∃ rule, set.get? id = some rule ∧ property rule = true := by
  unfold firstWhere at first
  have holds := List.find?_some first
  exact (Option.any_eq_true property (set.get? id)).mp holds

/-- Of the rules that apply, the first that names a context is the first that names the mapping's. -/
private theorem find?_namesContext {set : RuleSet} (wellFormed : set.WellFormed)
    (mapping : Mapping) :
    ((set.forModule mapping.module).filter (set.appliesTo mapping)).find? set.namesContext =
      set.firstWhere fun rule =>
        rule.module = mapping.module ∧ rule.context = .named mapping.context := by
  rw [wellFormed.forModule_eq, List.find?_filter, List.find?_filter]
  apply List.find?_congr
  intro id _
  unfold appliesTo namesContext
  cases set.get? id with
  | none => rfl
  | some rule =>
      cases context : rule.context <;>
        simp [Rule.appliesTo, ContextPattern.accepts, ContextPattern.isAny, context]

/-- If no rule names the context, a rule that applies does so by being for every context. -/
private theorem head?_appliesTo {set : RuleSet} (wellFormed : set.WellFormed) {mapping : Mapping}
    (unnamed : (set.firstWhere fun rule =>
      rule.module = mapping.module ∧ rule.context = .named mapping.context) = none) :
    ((set.forModule mapping.module).filter (set.appliesTo mapping)).head? =
      set.firstWhere fun rule => rule.module = mapping.module ∧ rule.context = .any := by
  rw [wellFormed.forModule_eq, List.head?_filter, List.find?_filter]
  apply List.find?_congr
  intro id member
  have otherContext := List.find?_eq_none.mp unnamed id member
  unfold appliesTo
  cases present : set.get? id with
  | none => rfl
  | some rule =>
      rw [present] at otherContext
      cases context : rule.context <;>
        simp_all [Rule.appliesTo, ContextPattern.accepts]

/-- Resolution finds the first rule that names the mapping's context, and failing that the first
that is for every context. -/
theorem resolve_eq {set : RuleSet} (wellFormed : set.WellFormed) (mapping : Mapping) :
    set.resolve mapping =
      (set.firstWhere fun rule =>
          rule.module = mapping.module ∧ rule.context = .named mapping.context).or
        (set.firstWhere fun rule => rule.module = mapping.module ∧ rule.context = .any) := by
  unfold resolve
  dsimp only
  rw [find?_namesContext wellFormed]
  cases named : set.firstWhere fun rule =>
      rule.module = mapping.module ∧ rule.context = .named mapping.context with
  | some id => rfl
  | none => exact head?_appliesTo wellFormed named

/-- Resolution yields the rule that the list of rules names as the governing one. -/
theorem get_resolve {set : RuleSet} (wellFormed : set.WellFormed) (mapping : Mapping) :
    (set.resolve mapping).bind set.get? =
      mapping.governing? Rule.module Rule.context set.rules.toList := by
  unfold Mapping.governing?
  rw [resolve_eq wellFormed, ← bind_get_firstWhere, ← bind_get_firstWhere]
  cases named : set.firstWhere fun rule =>
      rule.module = mapping.module ∧ rule.context = .named mapping.context with
  | none => simp
  | some id =>
      obtain ⟨rule, present, _⟩ := get_of_firstWhere named
      simp [present]

end RuleSet

end InstrumentScope
