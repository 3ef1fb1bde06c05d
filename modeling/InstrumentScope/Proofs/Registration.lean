import InstrumentScope.Proofs.Compilation
import InstrumentScope.Proofs.RuleTables
import InstrumentScope.RuleSet.Enrollment

/-!
Contract: which sources end up as rules when a set is filled.

Sources come one by one, compiled directly or read from a store first. A source
that does not compile, or whose name is taken, leaves the set as it was; every
other one adds the rule it compiles to. So a set that was filled in any way is
told by a list of sources.

Owns:
- the sources that are kept of a list of sources;
- filled sets, and the agreement of a filled set with the sources kept.
-/

namespace InstrumentScope

namespace RuleSource

/-- Keeps a source that compiles, unless an earlier one has its name. -/
def keep (kept : List RuleSource) (source : RuleSource) : List RuleSource :=
  if source.Compilable ∧ ∀ earlier ∈ kept, earlier.name ≠ source.name then kept ++ [source]
  else kept

/-- The sources that are kept when they come in this order. -/
def registered (sources : List RuleSource) : List RuleSource :=
  sources.foldl keep []

end RuleSource

namespace RuleSet

/-- The set after a source was compiled and its rule was registered, or either failed. -/
def offer (set : RuleSet) (source : RuleSource) : RuleSet :=
  (set.settle source.compile).rules

/-- The set filled with these sources. -/
def ofSources (sources : List RuleSource) : RuleSet :=
  sources.foldl offer empty

/-- The sets that registering sources and loading entries can lead to. -/
inductive Reachable : RuleSet → Prop where
  | empty : Reachable empty
  | register {set : RuleSet} (source : RuleSource) (before : Reachable set) :
      Reachable (set.offer source)
  | load {set : RuleSet} (store : Store) (catalog : Catalog) (entry : String)
      (before : Reachable set) : Reachable (set.load store catalog entry).rules

theorem reachable_ofSources (sources : List RuleSource) :
    (ofSources sources).Reachable := by
  have fill : ∀ {set : RuleSet}, set.Reachable → (sources.foldl offer set).Reachable := by
    induction sources with
    | nil => exact fun before => before
    | cons source rest inductionHypothesis =>
        intro set before
        exact inductionHypothesis (.register source before)
  exact fill .empty

theorem mem_rules_iff {set : RuleSet} {rule : Rule} :
    rule ∈ set.rules.toList ↔ ∃ id, set.get? id = some rule := by
  rw [Array.mem_toList_iff, Array.mem_iff_getElem?]
  constructor
  · intro stored
    rcases stored with ⟨index, present⟩
    exact ⟨⟨index⟩, present⟩
  · intro numbered
    rcases numbered with ⟨id, present⟩
    exact ⟨id.index, present⟩

theorem find?_eq_none_iff {set : RuleSet} (wellFormed : set.WellFormed) (name : String) :
    set.find? name = none ↔ ∀ rule ∈ set.rules.toList, rule.name ≠ name := by
  constructor
  · intro free rule member sameName
    obtain ⟨id, present⟩ := mem_rules_iff.mp member
    have taken := (wellFormed.find_iff name id).mpr ⟨rule, present, sameName⟩
    rw [free] at taken
    contradiction
  · intro free
    cases found : set.find? name with
    | none => rfl
    | some id =>
        obtain ⟨rule, present, sameName⟩ := (wellFormed.find_iff name id).mp found
        exact absurd sameName (free rule (mem_rules_iff.mpr ⟨id, present⟩))

/-- The set has well-formed tables and holds what the kept sources compile to. -/
structure Holds (set : RuleSet) (kept : List RuleSource) : Prop where
  wellFormed : set.WellFormed
  rules_eq : set.rules.toList = kept.map RuleSource.rule
  compilable : ∀ source ∈ kept, source.Compilable

theorem holds_empty : empty.Holds [] where
  wellFormed := wellFormed_empty
  rules_eq := rfl
  compilable := by simp

theorem find?_eq_none_iff_of_holds {set : RuleSet} {kept : List RuleSource}
    (holds : set.Holds kept) (name : String) :
    set.find? name = none ↔ ∀ earlier ∈ kept, earlier.name ≠ name := by
  rw [find?_eq_none_iff holds.wellFormed, holds.rules_eq]
  constructor
  · intro free earlier member
    exact free earlier.rule (List.mem_map_of_mem member)
  · intro free rule member
    obtain ⟨earlier, inKept, rfl⟩ := List.mem_map.mp member
    exact free earlier inKept

theorem offer_of_not_compilable {source : RuleSource} (faulty : ¬ source.Compilable)
    (set : RuleSet) : set.offer source = set := by
  obtain ⟨fault, refused⟩ := RuleSource.compile_of_not_compilable faulty
  unfold offer
  rw [refused]
  rfl

theorem offer_of_compilable {source : RuleSource} (compilable : source.Compilable)
    (set : RuleSet) :
    set.offer source =
      if set.find? source.name = none then set.append source.rule else set := by
  unfold offer
  rw [RuleSource.compile_of_compilable compilable]
  show (set.register source.rule).rules = _
  split
  case isTrue free => rw [register_of_free free]
  case isFalse taken => rw [register_of_taken (Option.isSome_iff_ne_none.mpr taken)]

theorem holds_offer {set : RuleSet} {kept : List RuleSource} (holds : set.Holds kept)
    (source : RuleSource) : (set.offer source).Holds (RuleSource.keep kept source) := by
  unfold RuleSource.keep
  by_cases compilable : source.Compilable
  · rw [offer_of_compilable compilable]
    by_cases free : ∀ earlier ∈ kept, earlier.name ≠ source.name
    · have unused := (find?_eq_none_iff_of_holds holds source.name).mpr free
      rw [if_pos unused, if_pos ⟨compilable, free⟩]
      constructor
      · exact wellFormed_append holds.wellFormed unused
      · simp [append, holds.rules_eq]
      · intro other member
        rcases List.mem_append.mp member with inKept | last
        · exact holds.compilable other inKept
        · rw [List.mem_singleton.mp last]
          exact compilable
    · have used : ¬ set.find? source.name = none := by
        rw [find?_eq_none_iff_of_holds holds]
        exact free
      rw [if_neg used, if_neg (fun both => free both.2)]
      exact holds
  · rw [offer_of_not_compilable compilable, if_neg (fun both => compilable both.1)]
    exact holds

/-- A filled set holds the sources kept of those it was filled with. -/
theorem holds_ofSources (sources : List RuleSource) :
    (ofSources sources).Holds (RuleSource.registered sources) := by
  -- Stated for any set to begin with, since each source is offered to what the others left.
  have fill : ∀ {set : RuleSet} {kept : List RuleSource}, set.Holds kept →
      (sources.foldl offer set).Holds (sources.foldl RuleSource.keep kept) := by
    induction sources with
    | nil => exact fun holds => holds
    | cons source rest inductionHypothesis =>
        intro set kept holds
        exact inductionHypothesis (holds_offer holds source)
  exact fill holds_empty

/-- Loading an entry offers the source that is read, if one can be read. -/
theorem rules_load (set : RuleSet) (store : Store) (catalog : Catalog) (entry : String) :
    (set.load store catalog entry).rules =
      match RuleSource.read store catalog entry with
      | .ok source => set.offer source
      | .error _ => set := by
  unfold load Rule.load
  rw [rules_enroll]
  cases RuleSource.read store catalog entry <;> rfl

/-- However a set was filled, it holds some list of sources. -/
theorem Reachable.exists_holds {set : RuleSet} (reachable : set.Reachable) :
    ∃ kept, set.Holds kept := by
  induction reachable with
  | empty => exact ⟨[], holds_empty⟩
  | register source _ inductionHypothesis =>
      obtain ⟨kept, holds⟩ := inductionHypothesis
      exact ⟨RuleSource.keep kept source, holds_offer holds source⟩
  | load store catalog entry _ inductionHypothesis =>
      obtain ⟨kept, holds⟩ := inductionHypothesis
      rw [rules_load]
      cases RuleSource.read store catalog entry with
      | error fault => exact ⟨kept, holds⟩
      | ok source => exact ⟨RuleSource.keep kept source, holds_offer holds source⟩

end RuleSet

end InstrumentScope
