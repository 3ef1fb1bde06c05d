import InstrumentScope.Proofs.Decision

/-!
Contract: numbers, names and modules of a rule set are never at odds.

A set answers through numbers: a name leads to a number, a module to several, a
mapping to one, and a number leads to a rule. Every such answer is what the
list of rules says, and every number that is handed out is that of a rule. A
set goes on by one rule at its end, or not at all.

Owns:
- the answers of the tables, read off the list of rules;
- what a registration, and the loading of an entry, make of a set.

Does not own:
- the preservation of the tables (`RuleTables`);
- what several entries in a row lead to (`ListedEntries`).
-/

namespace InstrumentScope

namespace RuleSet

variable {set : RuleSet}

theorem Reachable.wellFormed (reachable : set.Reachable) : set.WellFormed := by
  obtain ⟨_, holds⟩ := reachable.exists_holds
  exact holds.wellFormed

theorem id_eq_of_name_eq (wellFormed : set.WellFormed) {left right : RuleId} {rule other : Rule}
    (isLeft : set.get? left = some rule) (isRight : set.get? right = some other)
    (sameName : rule.name = other.name) : left = right := by
  have foundLeft := (wellFormed.find_iff other.name left).mpr ⟨rule, isLeft, sameName⟩
  have foundRight := (wellFormed.find_iff other.name right).mpr ⟨other, isRight, rfl⟩
  exact Option.some.inj (foundLeft.symm.trans foundRight)

theorem nodup_names (wellFormed : set.WellFormed) : (set.rules.toList.map Rule.name).Nodup := by
  rw [List.nodup_iff_pairwise_ne, List.pairwise_map, List.pairwise_iff_getElem]
  intro left right leftBound rightBound before sameName
  have isLeft : set.get? ⟨left⟩ = some set.rules.toList[left] := by
    simp only [get?, Array.getElem_toList, Array.getElem?_eq_getElem leftBound]
  have isRight : set.get? ⟨right⟩ = some set.rules.toList[right] := by
    simp only [get?, Array.getElem_toList, Array.getElem?_eq_getElem rightBound]
  have same : left = right :=
    congrArg RuleId.index (id_eq_of_name_eq wellFormed isLeft isRight sameName)
  omega

theorem mem_forModule_iff (wellFormed : set.WellFormed) {module : String} {id : RuleId} :
    id ∈ set.forModule module ↔ ∃ rule, set.get? id = some rule ∧ rule.module = module := by
  rw [wellFormed.forModule_eq, List.mem_filter, Option.any_eq_true]
  simp only [beq_iff_eq]
  constructor
  · exact And.right
  · rintro ⟨rule, present, sameModule⟩
    exact ⟨mem_ids.mpr (index_lt_of_get present), rule, present, sameModule⟩

theorem pairwise_forModule (wellFormed : set.WellFormed) (module : String) :
    (set.forModule module).Pairwise fun earlier later => earlier.index < later.index := by
  have ascending : set.ids.Pairwise fun earlier later => earlier.index < later.index :=
    List.pairwise_map.mpr List.pairwise_lt_range
  rw [wellFormed.forModule_eq]
  exact ascending.filter _

theorem mem_modules_iff (wellFormed : set.WellFormed) {module : String} :
    module ∈ set.modules ↔ ∃ rule ∈ set.rules.toList, rule.module = module := by
  unfold modules
  rw [Std.ExtTreeMap.mem_keys]
  constructor
  · intro entered
    obtain ⟨id, rule, present, sameModule⟩ := wellFormed.listed module entered
    exact ⟨rule, mem_rules_iff.mpr ⟨id, present⟩, sameModule⟩
  · rintro ⟨rule, member, sameModule⟩
    obtain ⟨id, present⟩ := mem_rules_iff.mp member
    have listed := (mem_forModule_iff wellFormed).mpr ⟨rule, present, sameModule⟩
    rw [Std.ExtTreeMap.mem_iff_isSome_getElem?, Option.isSome_iff_ne_none]
    intro absent
    simp [forModule, absent] at listed

theorem get_of_resolve (wellFormed : set.WellFormed) {mapping : Mapping} {id : RuleId}
    (resolved : set.resolve mapping = some id) : ∃ rule, set.get? id = some rule := by
  rw [resolve_eq wellFormed, Option.or_eq_some_iff] at resolved
  rcases resolved with named | ⟨_, general⟩
  · obtain ⟨rule, present, _⟩ := get_of_firstWhere named
    exact ⟨rule, present⟩
  · obtain ⟨rule, present, _⟩ := get_of_firstWhere general
    exact ⟨rule, present⟩

/-- `grown` is `set` with one more rule at the end, under the number that counts the rules before
it. -/
structure GrowsBy (set : RuleSet) (rule : Rule) (id : RuleId) (grown : RuleSet) : Prop where
  number : id.index = set.size
  rules : grown.rules.toList = set.rules.toList ++ [rule]
  present : grown.get? id = some rule

theorem growsBy_append (set : RuleSet) (rule : Rule) :
    set.GrowsBy rule ⟨set.size⟩ (set.append rule) where
  number := rfl
  rules := by simp [append]
  present := by rw [get?_append, if_pos rfl]

/-- A registration is refused, or appends the rule. -/
theorem register_cases (set : RuleSet) (rule : Rule) :
    ((set.find? rule.name).isSome ∧
        set.register rule = ⟨.error (.duplicateRule rule.name), set⟩) ∨
      (set.find? rule.name = none ∧ set.register rule = ⟨.ok ⟨set.size⟩, set.append rule⟩) := by
  cases found : set.find? rule.name with
  | none => exact Or.inr ⟨rfl, register_of_free found⟩
  | some id => exact Or.inl ⟨rfl, register_of_taken (Option.isSome_of_eq_some found)⟩

/-- A registration that is refused is so because of the name, and hands over the set that it was
given. -/
theorem register_refused {rule : Rule} {fault : Fault}
    (refused : (set.register rule).answer = .error fault) :
    fault = .duplicateRule rule.name ∧ (set.register rule).rules = set := by
  rcases register_cases set rule with ⟨_, unchanged⟩ | ⟨_, appended⟩
  · rw [unchanged] at refused ⊢
    exact ⟨(Except.error.inj refused).symm, rfl⟩
  · rw [appended] at refused
    contradiction

theorem growsBy_of_register {rule : Rule} {id : RuleId}
    (accepted : (set.register rule).answer = .ok id) :
    set.GrowsBy rule id (set.register rule).rules := by
  rcases register_cases set rule with ⟨_, unchanged⟩ | ⟨_, appended⟩
  · rw [unchanged] at accepted
    contradiction
  · rw [appended] at accepted ⊢
    rw [← Except.ok.inj accepted]
    exact growsBy_append set rule

theorem isSome_find?_iff (wellFormed : set.WellFormed) (name : String) :
    (set.find? name).isSome ↔ ∃ earlier ∈ set.rules.toList, earlier.name = name := by
  rw [Option.isSome_iff_ne_none, ne_eq, find?_eq_none_iff wellFormed]
  simp

theorem register_refused_iff (wellFormed : set.WellFormed) (rule : Rule) :
    (∃ fault, (set.register rule).answer = .error fault) ↔
      ∃ earlier ∈ set.rules.toList, earlier.name = rule.name := by
  rw [← isSome_find?_iff wellFormed]
  rcases register_cases set rule with ⟨used, refused⟩ | ⟨free, appended⟩
  · exact iff_of_true ⟨_, congrArg Registration.answer refused⟩ used
  · rw [appended, free]
    simp

/-- Where no number comes of it, the set is handed over as it was, and if there was a rule its name
was taken. Otherwise there was a rule, and the set has it under that number. -/
theorem settle_cases (set : RuleSet) (compiled : Except Fault Rule) :
    ((∃ fault, (set.settle compiled).answer = .error fault) ∧
        (set.settle compiled).rules = set ∧
        ∀ rule, compiled = .ok rule → (set.find? rule.name).isSome) ∨
      ∃ rule id, compiled = .ok rule ∧ (set.settle compiled).answer = .ok id ∧
        set.GrowsBy rule id (set.settle compiled).rules := by
  cases compiled with
  | error fault => exact Or.inl ⟨⟨fault, rfl⟩, rfl, by simp⟩
  | ok rule =>
      rcases register_cases set rule with ⟨used, refused⟩ | ⟨_, appended⟩
      · refine Or.inl ⟨⟨_, congrArg Registration.answer refused⟩,
          congrArg Registration.rules refused, ?_⟩
        intro other same
        rw [← Except.ok.inj same]
        exact used
      · have answer := congrArg Registration.answer appended
        exact Or.inr ⟨rule, _, rfl, answer, growsBy_of_register answer⟩

/-- Compiling and registering a source leaves the set as it was, or appends the source's rule. -/
theorem offer_cases (set : RuleSet) (source : RuleSource) :
    ((∃ fault, (set.settle source.compile).answer = .error fault) ∧ set.offer source = set ∧
        ∀ rule, source.compile = .ok rule → (set.find? rule.name).isSome) ∨
      ∃ id, (set.settle source.compile).answer = .ok id ∧
        set.GrowsBy source.rule id (set.offer source) := by
  rcases set.settle_cases source.compile with failed | ⟨rule, id, compiled, answer, grows⟩
  · exact Or.inl failed
  · rcases RuleSource.compile_eq_ok_iff.mp compiled with ⟨_, rfl⟩
    exact Or.inr ⟨id, answer, grows⟩

/-- Enrolling the outcome of loading an entry leaves the set as it was, or appends the rule. -/
theorem enroll_cases (set : RuleSet) (entry : String) (loaded : Except Fault Rule) :
    ((set.enroll entry loaded).enrolled = false ∧ (set.enroll entry loaded).rules = set ∧
        ∀ rule, loaded = .ok rule → (set.find? rule.name).isSome) ∨
      ∃ rule, loaded = .ok rule ∧ (set.enroll entry loaded).enrolled = true ∧
        set.GrowsBy rule ⟨set.size⟩ (set.enroll entry loaded).rules := by
  rw [rules_enroll]
  unfold enroll
  rcases set.settle_cases loaded with ⟨⟨fault, answer⟩, unchanged⟩ | ⟨rule, id, ok, answer, grows⟩
  · dsimp only
    rw [answer]
    exact Or.inl ⟨rfl, unchanged⟩
  · dsimp only
    rw [answer]
    have next : (⟨set.size⟩ : RuleId) = id := congrArg RuleId.mk grows.number.symm
    exact Or.inr ⟨rule, ok, rfl, next ▸ grows⟩

/-- However a set was filled, no two of its rules share a name, both tables say what the rules say,
and every number that they or resolution yield is that of a rule. A registration is refused exactly
if the name is taken, and then hands over the set that it was given; so do a source that does not
compile and an entry that is skipped, which happens for no other reasons. Any other adds one rule,
under the number that counts the rules before it. -/
theorem tables_follow_rules (reachable : set.Reachable) :
    (set.rules.toList.map Rule.name).Nodup ∧
    (∀ name id, set.find? name = some id ↔ ∃ rule, set.get? id = some rule ∧ rule.name = name) ∧
    (∀ module,
      (set.forModule module).Pairwise (fun earlier later => earlier.index < later.index) ∧
      ∀ id, id ∈ set.forModule module ↔ ∃ rule, set.get? id = some rule ∧ rule.module = module) ∧
    set.modules.Nodup ∧
    (∀ module, module ∈ set.modules ↔ ∃ rule ∈ set.rules.toList, rule.module = module) ∧
    (∀ id, (∃ name, set.find? name = some id) ∨ (∃ module, id ∈ set.forModule module) ∨
      (∃ mapping, set.resolve mapping = some id) → ∃ rule, set.get? id = some rule) ∧
    (∀ rule,
      let registration := set.register rule
      ((∃ fault, registration.answer = .error fault) ↔
        ∃ earlier ∈ set.rules.toList, earlier.name = rule.name) ∧
      (∀ fault, registration.answer = .error fault →
        fault = .duplicateRule rule.name ∧ registration.rules = set) ∧
      ∀ id, registration.answer = .ok id → set.GrowsBy rule id registration.rules) ∧
    (∀ source : RuleSource,
      let registration := set.settle source.compile
      ((∃ fault, registration.answer = .error fault) ∧ registration.rules = set ∧
        ∀ rule, source.compile = .ok rule →
          ∃ earlier ∈ set.rules.toList, earlier.name = rule.name) ∨
      ∃ id, registration.answer = .ok id ∧ set.GrowsBy source.rule id registration.rules) ∧
    (∀ store catalog entry,
      let outcome := set.load store catalog entry
      (outcome.enrolled = false ∧ outcome.rules = set ∧
        ∀ rule, Rule.load store catalog entry = .ok rule →
          ∃ earlier ∈ set.rules.toList, earlier.name = rule.name) ∨
      ∃ rule, Rule.load store catalog entry = .ok rule ∧ outcome.enrolled = true ∧
        set.GrowsBy rule ⟨set.size⟩ outcome.rules) := by
  have wellFormed := reachable.wellFormed
  refine ⟨nodup_names wellFormed, wellFormed.find_iff, ?_, Std.ExtTreeMap.nodup_keys, ?_, ?_, ?_,
    ?_, ?_⟩
  · intro module
    exact ⟨pairwise_forModule wellFormed module, fun id => mem_forModule_iff wellFormed⟩
  · intro module
    exact mem_modules_iff wellFormed
  · rintro id (⟨name, found⟩ | ⟨module, listed⟩ | ⟨mapping, resolved⟩)
    · obtain ⟨rule, present, _⟩ := (wellFormed.find_iff name id).mp found
      exact ⟨rule, present⟩
    · obtain ⟨rule, present, _⟩ := (mem_forModule_iff wellFormed).mp listed
      exact ⟨rule, present⟩
    · exact get_of_resolve wellFormed resolved
  · intro rule
    exact ⟨register_refused_iff wellFormed rule, fun fault => register_refused,
      fun id => growsBy_of_register⟩
  · intro source
    simp only [← isSome_find?_iff wellFormed]
    exact offer_cases set source
  · intro store catalog entry
    simp only [← isSome_find?_iff wellFormed]
    exact enroll_cases set entry (Rule.load store catalog entry)

/-- Of the sample sources the first is faulty and the last comes too late. -/
theorem tables_follow_rules_sample :
    let set := ofSources Sample.sources
    let late : Rule := ⟨"part", "lib", .any, ⟨0x0, 0x0⟩, .blank 0⟩
    set.Reachable ∧ set.find? "part" = some ⟨1⟩ ∧ (∃ rule, set.get? ⟨1⟩ = some rule) ∧
      "app" ∈ set.modules ∧ (set.register late).answer = .error (.duplicateRule "part") ∧
      (set.register late).rules = set := by
  intro set late
  have reachable : set.Reachable := reachable_ofSources Sample.sources
  obtain ⟨_, _, _, _, listed, numbered, registered, _⟩ := tables_follow_rules reachable
  have found : set.find? "part" = some ⟨1⟩ := by decide +kernel
  have named : ∃ rule ∈ set.rules.toList, rule.module = "app" := by decide +kernel
  have taken : ∃ earlier ∈ set.rules.toList, earlier.name = late.name := by decide +kernel
  rcases registered late with ⟨refusedIff, refused, _⟩
  rcases refusedIff.mpr taken with ⟨fault, answer⟩
  rcases refused fault answer with ⟨rfl, unchanged⟩
  exact ⟨reachable, found, numbered ⟨1⟩ (Or.inl ⟨"part", found⟩), (listed "app").mpr named,
    answer, unchanged⟩

end RuleSet

end InstrumentScope
