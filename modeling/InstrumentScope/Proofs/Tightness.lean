import InstrumentScope.Proofs.Decision
import InstrumentScope.Proofs.Footprints
import Mathlib.Data.Fintype.EquivFin
import Mathlib.Data.List.Nodup

/-!
Contract: coverage selects no more than what some context is governed by.

A governing rule is one of the rules for its module, so coverage selects what it
selects. Conversely a rule is of use only if it governs somewhere. A rule that
names a context governs there, unless another one names it too; a rule for every
context governs where no rule names the context, and there always is such a
context, since a set names but finitely many.

Owns:
- contexts in which a given rule governs;
- the coverage of an offset, read off resolution.
-/

namespace InstrumentScope

namespace RuleSet

/-- No two rules are for the same module and the same contexts. -/
def Unambiguous (set : RuleSet) : Prop :=
  (set.rules.toList.map fun rule => (rule.module, rule.context)).Nodup

instance (set : RuleSet) : Decidable set.Unambiguous := by
  unfold Unambiguous
  infer_instance

variable {set : RuleSet}

theorem Unambiguous.find?_eq_some (unambiguous : set.Unambiguous) {rule : Rule}
    (member : rule ∈ set.rules.toList) :
    (set.rules.toList.find? fun other =>
      other.module = rule.module ∧ other.context = rule.context) = some rule := by
  cases found : set.rules.toList.find? fun other =>
      other.module = rule.module ∧ other.context = rule.context with
  | none =>
      have missed := List.find?_eq_none.mp found rule member
      simp at missed
  | some other =>
      have same := List.find?_some found
      rw [decide_eq_true_eq] at same
      have isRule := List.inj_on_of_nodup_map unambiguous (List.mem_of_find?_eq_some found) member
        (Prod.ext same.1 same.2)
      rw [isRule]

/-- Some context is named by no rule. -/
theorem exists_unnamed_context (set : RuleSet) :
    ∃ context, ∀ rule ∈ set.rules.toList, rule.context ≠ .named context := by
  obtain ⟨context, fresh⟩ := Infinite.exists_notMem_finset
    (set.rules.toList.map fun rule => rule.context.text).toFinset
  refine ⟨context, ?_⟩
  intro rule member named
  apply fresh
  rw [List.mem_toFinset, List.mem_map]
  exact ⟨rule, member, by rw [named]; rfl⟩

/-- In an unambiguous set every rule governs its module in some context. -/
theorem Unambiguous.exists_governed_context (unambiguous : set.Unambiguous)
    (wellFormed : set.WellFormed) {rule : Rule} (member : rule ∈ set.rules.toList) :
    ∃ context, ∀ mapping : Mapping, mapping.module = rule.module → mapping.context = context →
      (set.resolve mapping).bind set.get? = some rule := by
  have isFirst := unambiguous.find?_eq_some member
  cases pattern : rule.context with
  | named name =>
      refine ⟨name, ?_⟩
      rintro mapping sameModule rfl
      rw [pattern, ← sameModule] at isFirst
      rw [get_resolve wellFormed, Mapping.governing?, isFirst]
      rfl
  | any =>
      obtain ⟨context, unnamed⟩ := set.exists_unnamed_context
      refine ⟨context, ?_⟩
      rintro mapping sameModule rfl
      rw [pattern, ← sameModule] at isFirst
      have noneNamed : (set.rules.toList.find? fun other =>
          other.module = mapping.module ∧ other.context = .named mapping.context) = none := by
        rw [List.find?_eq_none]
        intro other isOther
        simp [unnamed other isOther]
      rw [get_resolve wellFormed, Mapping.governing?, noneNamed, isFirst]
      rfl

end RuleSet

/-- An offset is covered exactly if some rule for the module selects it. -/
theorem Coverage.any_get_iff {set : RuleSet} {kept : List RuleSource} (holds : set.Holds kept)
    (module : String) (offset : UInt64) :
    ((ofRuleSet set).footprint? module).any (·.get offset) = true ↔
      ∃ rule ∈ set.rules.toList, rule.module = module ∧ rule.lookup offset = some true := by
  rcases footprint?_cases holds module with ⟨absent, noRule⟩ | ⟨footprint, present, _, selects⟩
  · rw [absent]
    refine iff_of_false Bool.false_ne_true ?_
    rintro ⟨rule, member, sameModule, _⟩
    exact noRule rule member sameModule
  · rw [present, Option.any_some, selects]

/-- What the governing rule of a mapping selects is covered. If no two rules are for the same module
and the same contexts, nothing else is: an offset is covered exactly if there is a context in which
the rule that governs the module selects it. -/
theorem coverage_is_tight {set : RuleSet} (reachable : set.Reachable) (module : String)
    (offset : UInt64) :
    let covered := ((Coverage.ofRuleSet set).footprint? module).any (·.get offset)
    (∀ (mapping : Mapping) (rule : Rule), mapping.module = module →
      (set.resolve mapping).bind set.get? = some rule → rule.lookup offset = some true →
        covered = true) ∧
    (set.Unambiguous → (covered = true ↔
      ∃ context, ∀ mapping : Mapping, mapping.module = module → mapping.context = context →
        ∃ rule, (set.resolve mapping).bind set.get? = some rule ∧
          rule.lookup offset = some true)) := by
  intro covered
  obtain ⟨kept, holds⟩ := reachable.exists_holds
  have coveredIff : covered = true ↔ _ := Coverage.any_get_iff holds module offset
  have governed : ∀ (mapping : Mapping) (rule : Rule), mapping.module = module →
      (set.resolve mapping).bind set.get? = some rule → rule.lookup offset = some true →
        covered = true := by
    intro mapping rule isModule governs selected
    rw [RuleSet.get_resolve holds.wellFormed] at governs
    obtain ⟨member, sameModule, _⟩ := Mapping.governing?_eq_some governs
    exact coveredIff.mpr ⟨rule, member, sameModule.trans isModule, selected⟩
  refine ⟨governed, ?_⟩
  intro unambiguous
  constructor
  · intro isCovered
    obtain ⟨rule, member, sameModule, selected⟩ := coveredIff.mp isCovered
    obtain ⟨context, governs⟩ := unambiguous.exists_governed_context holds.wellFormed member
    refine ⟨context, ?_⟩
    intro mapping isModule isContext
    exact ⟨rule, governs mapping (isModule.trans sameModule.symm) isContext, selected⟩
  · rintro ⟨context, everywhere⟩
    -- The base, the load address and the size of the mapping are of no concern.
    let mapping : Mapping := ⟨module, context, 0, 0, 0⟩
    obtain ⟨rule, governs, selected⟩ := everywhere mapping rfl rfl
    exact governed mapping rule rfl governs selected

/-- An offset that the rule for the single context leaves out is covered on account of the other
contexts. -/
theorem coverage_is_tight_sample :
    let set := RuleSet.ofSources Sample.sources
    set.Reachable ∧ set.Unambiguous ∧
      ((set.resolve Sample.mapping).bind set.get?).any (·.lookup 0x90 = some true) = false ∧
      ∃ context, ∀ mapping : Mapping, mapping.module = "app" → mapping.context = context →
        ∃ rule, (set.resolve mapping).bind set.get? = some rule ∧
          rule.lookup 0x90 = some true := by
  intro set
  have reachable : set.Reachable := RuleSet.reachable_ofSources Sample.sources
  have unambiguous : set.Unambiguous := by decide +kernel
  obtain ⟨_, tight⟩ := coverage_is_tight reachable "app" 0x90
  exact ⟨reachable, unambiguous, by decide +kernel, (tight unambiguous).mp (by decide +kernel)⟩

end InstrumentScope
