import InstrumentScope.Proofs.ListedEntries

/-!
Contract: selections load as they were written.

A selection is written as settings of its entry, and what has a default is not
written. Reading the entry yields the selection again, with the image of its
module, whatever was written for other entries before or after. So the rules of
a policy are those that its selections mean, one by one.

Owns:
- the source and the rule that a selection means;
- the settings of a store into which selections were written;
- the policy of such a store.

Does not own:
- keys told apart (`StoreKeys`);
- entries that share a name (`ListedEntries`).
-/

namespace InstrumentScope

namespace Selection

/-- The value that the selection gives to a setting of its entry, if it gives one. -/
def setting? (selection : Selection) : KeyWord → Option Setting
  | .module => some (.text selection.module)
  | .context => selection.context.map .text
  | .included => Store.spansSetting selection.included
  | .excluded => Store.spansSetting selection.excluded
  | .selections | .id => none

/-- What the selection asks for, in an image of its module. -/
def sourceIn (image : Image) (selection : Selection) : RuleSource where
  name := selection.entry
  module := selection.module
  context := .ofSetting selection.context
  image
  included := selection.included
  excluded := selection.excluded

/-- The source that the selection means, if its module is named and known. -/
def source (catalog : Catalog) (selection : Selection) : Except Fault RuleSource :=
  if selection.module = "" then .error (.unnamedModule selection.entry)
  else match catalog.image? selection.module with
    | none => .error (.unknownModule selection.module)
    | some image => .ok (selection.sourceIn image)

/-- The rule that the selection means. -/
def rule (catalog : Catalog) (selection : Selection) : Except Fault Rule := do
  let source ← selection.source catalog
  source.compile

/-- The rules that selections mean, in order; one that means no rule is left out. -/
def rules (catalog : Catalog) (selections : List Selection) : List Rule :=
  selections.filterMap fun selection => (selection.rule catalog).toOption

variable {catalog : Catalog} {selection : Selection}

theorem source_eq_ok_iff {source : RuleSource} :
    selection.source catalog = .ok source ↔
      selection.module ≠ "" ∧
        ∃ image ∈ catalog.image? selection.module, selection.sourceIn image = source := by
  unfold Selection.source
  by_cases unnamed : selection.module = ""
  · simp [unnamed]
  · rw [if_neg unnamed]
    cases catalog.image? selection.module <;> simp [unnamed]

theorem rule_eq_ok_iff {rule : Rule} :
    selection.rule catalog = .ok rule ↔
      ∃ source, selection.source catalog = .ok source ∧ source.compile = .ok rule := by
  unfold Selection.rule
  cases selection.source catalog with
  | error fault =>
      refine iff_of_false ?_ (by simp)
      intro impossible
      contradiction
  | ok source =>
      constructor
      · intro compiled
        exact ⟨source, rfl, compiled⟩
      · rintro ⟨meantSource, isSource, compiled⟩
        obtain rfl := Except.ok.inj isSource
        exact compiled

theorem name_of_rule {rule : Rule} (meant : selection.rule catalog = .ok rule) :
    rule.name = selection.entry := by
  obtain ⟨source, isSource, compiled⟩ := rule_eq_ok_iff.mp meant
  obtain ⟨_, _, _, rfl⟩ := source_eq_ok_iff.mp isSource
  obtain ⟨_, rfl⟩ := RuleSource.compile_eq_ok_iff.mp compiled
  rfl

/-- Without a context, or with the wildcard for one, a selection is meant for every context. -/
theorem context_eq_any_iff (image : Image) :
    (selection.sourceIn image).context = .any ↔
      selection.context = none ∨ selection.context = some ContextPattern.wildcard := by
  unfold sourceIn ContextPattern.ofSetting
  cases selection.context with
  | none => simp
  | some name =>
      dsimp only
      split
      case isTrue isWildcard => simp [isWildcard]
      case isFalse isNamed => simp [isNamed]

/-- A rule that a selection means is for every context unless one is named, and selects the included
units, or all of the module if none are, without the excluded ones. -/
theorem lookup_of_rule {rule : Rule} (meant : selection.rule catalog = .ok rule) :
    (rule.context = .any ↔
      selection.context = none ∨ selection.context = some ContextPattern.wildcard) ∧
    ∀ offset, rule.lookup offset = some true ↔
      offset < rule.image.size ∧
        (selection.included = [] ∨ ∃ span ∈ selection.included, span.Contains offset) ∧
          ¬ ∃ span ∈ selection.excluded, span.Contains offset := by
  obtain ⟨source, isSource, compiled⟩ := rule_eq_ok_iff.mp meant
  obtain ⟨_, image, _, rfl⟩ := source_eq_ok_iff.mp isSource
  obtain ⟨compilable, rfl⟩ := RuleSource.compile_eq_ok_iff.mp compiled
  exact ⟨context_eq_any_iff image, RuleSource.lookup_rule compilable⟩

/-- The names of the rules are entries, in the order of the selections. -/
theorem names_sublist (catalog : Catalog) (selections : List Selection) :
    ((rules catalog selections).map Rule.name).Sublist (selections.map Selection.entry) := by
  induction selections with
  | nil => exact List.Sublist.slnil
  | cons selection rest inductionHypothesis =>
      unfold rules
      rw [List.filterMap_cons]
      cases meant : selection.rule catalog with
      | error fault => exact inductionHypothesis.cons selection.entry
      | ok rule =>
          rw [List.map_cons, ← name_of_rule meant]
          exact inductionHypothesis.cons_cons rule.name

end Selection

namespace Store

variable {store : Store} {selection : Selection}

theorem getElem?_setSome (store : Store) (written key : String) (value : Option Setting) :
    (store.setSome written value).settings[key]? =
      if written = key then value.or store.settings[key]? else store.settings[key]? := by
  cases value with
  | none => simp [setSome]
  | some value => exact getElem?_set store written key value

/-- A selection is written into the settings of its entry and into those of no other. -/
theorem getElem?_addSelection (store : Store) (selection : Selection) (entry : String)
    {word : KeyWord} (owned : word ≠ .selections) :
    (store.addSelection selection).settings[key entry word]? =
      if selection.entry = entry then (selection.setting? word).or store.settings[key entry word]?
      else store.settings[key entry word]? := by
  unfold addSelection appendEntry
  simp only [getElem?_setSome, getElem?_set, key_inj]
  by_cases own : selection.entry = entry
  · cases word <;> simp_all [Selection.setting?]
  · simp [own, Ne.symm owned]

theorem names?_addSelection (store : Store) (selection : Selection) :
    (store.addSelection selection).names? (key defaultRoot .selections) =
      some ((store.names? (key defaultRoot .selections)).getD [] ++ [selection.entry]) := by
  conv => lhs; unfold names? addSelection appendEntry
  simp [getElem?_setSome, getElem?_set]

/-- The store into which selections were written one after the other. -/
def ofSelections (selections : List Selection) : Store :=
  selections.foldl addSelection empty

/-- The store lists the entries of the selections and holds their settings, and no others. -/
structure Describes (store : Store) (selections : List Selection) : Prop where
  listed : store.names? (key defaultRoot .selections) =
    if selections = [] then none else some (selections.map Selection.entry)
  own : ∀ selection ∈ selections, ∀ word, word ≠ .selections →
    store.settings[key selection.entry word]? = selection.setting? word
  fresh : ∀ entry ∉ selections.map Selection.entry, ∀ word, word ≠ .selections →
    store.settings[key entry word]? = none

theorem describes_empty : empty.Describes [] where
  listed := by simp [names?, empty]
  own := by simp
  fresh := by simp [empty]

theorem Describes.addSelection {selections : List Selection} (describes : store.Describes selections)
    (isNew : selection.entry ∉ selections.map Selection.entry) :
    (store.addSelection selection).Describes (selections ++ [selection]) where
  listed := by
    rw [names?_addSelection, describes.listed]
    by_cases none : selections = [] <;> simp [none]
  own other member word owned := by
    rw [getElem?_addSelection store selection other.entry owned]
    rcases List.mem_append.mp member with before | last
    · have apart : selection.entry ≠ other.entry := by
        intro same
        exact isNew (same ▸ List.mem_map_of_mem before)
      rw [if_neg apart]
      exact describes.own other before word owned
    · obtain rfl := List.mem_singleton.mp last
      rw [if_pos rfl, describes.fresh other.entry isNew word owned, Option.or_none]
  fresh entry absent word owned := by
    rw [List.map_append, List.mem_append, not_or] at absent
    obtain ⟨notBefore, notLast⟩ := absent
    have apart : selection.entry ≠ entry := by
      rintro rfl
      exact notLast List.mem_cons_self
    rw [getElem?_addSelection store selection entry owned, if_neg apart]
    exact describes.fresh entry notBefore word owned

/-- Selections of different entries are all there in the end. -/
theorem describes_ofSelections {selections : List Selection}
    (distinctEntries : (selections.map Selection.entry).Nodup) :
    (ofSelections selections).Describes selections := by
  -- The store is folded from the front, so the selection that is written last is taken off first.
  induction selections using List.reverseRecOn with
  | nil => exact describes_empty
  | append_singleton selections last inductionHypothesis =>
      rw [List.map_append, List.nodup_append] at distinctEntries
      obtain ⟨before, _, apart⟩ := distinctEntries
      have isNew : last.entry ∉ selections.map Selection.entry := by
        intro member
        exact apart last.entry member last.entry List.mem_cons_self rfl
      unfold ofSelections
      rw [List.foldl_append]
      exact (inductionHypothesis before).addSelection isNew

end Store

/-- An entry that holds the settings of a selection is read as the source that the selection
means. -/
theorem RuleSource.read_of_settings {store : Store} {selection : Selection}
    (held : ∀ word, word ≠ .selections →
      store.settings[Store.key selection.entry word]? = selection.setting? word)
    (catalog : Catalog) :
    read store catalog selection.entry = selection.source catalog := by
  have named : store.text? (Store.key selection.entry .module) = some selection.module := by
    unfold Store.text?
    rw [held .module (by decide)]
    rfl
  have unnamed : store.text? (Store.key selection.entry .id) = none := by
    unfold Store.text?
    rw [held .id (by decide)]
    rfl
  have context : store.text? (Store.key selection.entry .context) = selection.context := by
    unfold Store.text?
    rw [held .context (by decide), Selection.setting?]
    cases selection.context <;> rfl
  have included :
      (store.spans? (Store.key selection.entry .included)).getD [] = selection.included := by
    unfold Store.spans?
    rw [held .included (by decide), Selection.setting?]
    cases selection.included <;> rfl
  have excluded :
      (store.spans? (Store.key selection.entry .excluded)).getD [] = selection.excluded := by
    unfold Store.spans?
    rw [held .excluded (by decide), Selection.setting?]
    cases selection.excluded <;> rfl
  unfold read Selection.source
  dsimp only
  rw [named, unnamed, context, included, excluded]
  rfl

namespace Listing

/-- Selections as entries, each with the rule that it means. -/
def ofSelections (catalog : Catalog) (selections : List Selection) : Listing :=
  selections.map fun selection => (selection.entry, selection.rule catalog)

theorem rules_ofSelections (catalog : Catalog) (selections : List Selection) :
    rules (ofSelections catalog selections) = Selection.rules catalog selections :=
  List.filterMap_map

/-- A store of selections is listed as the rules that the selections mean. -/
theorem ofEntries_of_describes {store : Store} {selections : List Selection}
    (describes : store.Describes selections) (catalog : Catalog) :
    ofEntries store catalog (selections.map Selection.entry) = ofSelections catalog selections := by
  unfold ofEntries ofSelections
  rw [List.map_map]
  apply List.map_congr_left
  intro selection member
  have read := RuleSource.read_of_settings (describes.own selection member) catalog
  exact congrArg (fun source => (selection.entry, source >>= RuleSource.compile)) read

end Listing

/-- What is said about a selection behind others: why it means no rule, or the number of the
rule. -/
def Selection.notice (catalog : Catalog) (place : List Selection × Selection) : Notice :=
  match place.2.rule catalog with
  | .error fault => .skipped place.2.entry fault
  | .ok _ => .registered place.2.entry ⟨(Selection.rules catalog place.1).length⟩

/-- Among selections of different entries a selection is never skipped for its name, so nothing is
said that depends on the others, except for the number. -/
theorem Selection.notice_eq {catalog : Catalog} {place : List Selection × Selection}
    (distinctEntries : ((place.1 ++ [place.2]).map Selection.entry).Nodup) :
    Listing.notice
        (Listing.ofSelections catalog place.1, place.2.entry, place.2.rule catalog) =
      Selection.notice catalog place := by
  obtain ⟨earlier, selection⟩ := place
  rw [List.map_append, List.nodup_append] at distinctEntries
  obtain ⟨before, _, apart⟩ := distinctEntries
  have distinctNames : ((rules catalog earlier).map Rule.name).Nodup :=
    (names_sublist catalog earlier).nodup before
  unfold Listing.notice Selection.notice
  dsimp only
  rw [Listing.rules_ofSelections, Rule.distinct_eq_self distinctNames]
  cases meant : selection.rule catalog with
  | error fault => rfl
  | ok rule =>
      have isNew : ¬ ∃ other ∈ Listing.rules (Listing.ofSelections catalog earlier),
          other.name = rule.name := by
        rintro ⟨other, member, sameName⟩
        rw [Listing.rules_ofSelections] at member
        have isEntry : other.name ∈ earlier.map Selection.entry :=
          (names_sublist catalog earlier).subset (List.mem_map_of_mem member)
        exact apart other.name isEntry selection.entry List.mem_cons_self
          (sameName.trans (name_of_rule meant))
      have passed : Listing.fate (Listing.ofSelections catalog earlier) (.ok rule) = .ok rule :=
        if_neg isNew
      rw [passed]

/-- Selections of different entries, written into an empty store one after the other and loaded from
there, are read as they were written. The rules of the policy are those that the selections mean, in
order. A selection that means none is skipped with the reason, and no other is affected. A context
that is not given and the wildcard both stand for every context, and to include nothing is to include
the whole module. -/
theorem selections_load_as_written {workers : Workers} (keepsOrder : workers.KeepsOrder)
    (catalog : Catalog) (options : Options)
    {selections : List Selection} (root : options.root = Store.defaultRoot)
    (distinctEntries : (selections.map Selection.entry).Nodup) :
    let store := Store.ofSelections selections
    let loading := Policy.load workers store catalog options
    (∀ selection ∈ selections,
      RuleSource.read store catalog selection.entry = selection.source catalog) ∧
    loading.policy.rules.rules.toList = Selection.rules catalog selections ∧
    loading.notices =
      (if selections = [] then [.noEntries (Store.key Store.defaultRoot .selections)] else []) ++
        (precededBy [] selections).map (Selection.notice catalog) ++
        [.ready loading.policy.rules.size selections.length loading.policy.coverage.size] ∧
    ∀ (selection : Selection) rule, selection.rule catalog = .ok rule →
      (rule.context = .any ↔
        selection.context = none ∨ selection.context = some ContextPattern.wildcard) ∧
      ∀ offset, rule.lookup offset = some true ↔
        offset < rule.image.size ∧
          (selection.included = [] ∨ ∃ span ∈ selection.included, span.Contains offset) ∧
            ¬ ∃ span ∈ selection.excluded, span.Contains offset := by
  intro store loading
  have describes : store.Describes selections := Store.describes_ofSelections distinctEntries
  have listed : store.names? (Store.key options.root .selections) =
      if selections = [] then none else some (selections.map Selection.entry) := by
    rw [root]
    exact describes.listed
  have loads : Listing.ofEntries store catalog
      ((if selections = [] then none else some (selections.map Selection.entry)).getD []) =
        Listing.ofSelections catalog selections := by
    rw [← Listing.ofEntries_of_describes describes]
    split
    case isTrue none => rw [none]; rfl
    case isFalse => rfl
  have loaded : loading = _ := Policy.load_eq keepsOrder listed loads
  obtain ⟨tells, said⟩ :=
    RuleSet.tells_empty.enrollAll (Listing.ofSelections catalog selections)
  have distinctNames : ((Selection.rules catalog selections).map Rule.name).Nodup :=
    (Selection.names_sublist catalog selections).nodup distinctEntries
  refine ⟨?_, ?_, ?_, fun selection rule => Selection.lookup_of_rule⟩
  · intro selection member
    exact RuleSource.read_of_settings (describes.own selection member) catalog
  · rw [loaded]
    refine tells.rules.trans ?_
    rw [List.nil_append, Listing.rules_ofSelections, Rule.distinct_eq_self distinctNames]
  · have notices : (precededBy [] (Listing.ofSelections catalog selections)).map Listing.notice =
        (precededBy [] selections).map (Selection.notice catalog) := by
      refine (congrArg (List.map Listing.notice) (precededBy_map _ [] selections)).trans ?_
      rw [List.map_map]
      apply List.map_congr_left
      intro place member
      have front : ((place.1 ++ [place.2]).map Selection.entry).Nodup :=
        ((prefix_of_mem_precededBy member).map Selection.entry).sublist.nodup distinctEntries
      exact Selection.notice_eq front
    have unlisted : ((if selections = [] then none else some (selections.map Selection.entry) :
        Option (List String)).isNone = true) ↔ selections = [] := by
      split <;> simp_all
    rw [loaded]
    dsimp only
    rw [said, notices, root]
    simp only [unlisted, Listing.ofSelections, List.length_map]
    rfl

/-- Entries may look like each other's settings and like the root. The second selection is for a
module that is not known. -/
theorem selections_load_as_written_sample :
    let catalog := Catalog.empty.insert "app" ⟨0x1000, 0x40⟩
    let selections : List Selection :=
      [⟨"codesel", "app", none, [], []⟩, ⟨"codesel.module", "ghost", some "main", [], []⟩,
        ⟨"codesel.selections", "app", some "*", [⟨0x8, 0x20⟩], [⟨0x9, 0xa⟩]⟩]
    let policy := (Policy.load .tasks (Store.ofSelections selections) catalog .standard).policy
    Workers.tasks.KeepsOrder ∧ (selections.map Selection.entry).Nodup ∧
      policy.rules.rules.toList.map Rule.name = ["codesel", "codesel.selections"] := by
  intro catalog selections policy
  have distinctEntries : (selections.map Selection.entry).Nodup := by decide
  obtain ⟨_, rules, _⟩ :=
    selections_load_as_written Workers.keepsOrder_tasks catalog .standard rfl distinctEntries
  have names : (Selection.rules catalog selections).map Rule.name =
      ["codesel", "codesel.selections"] := by decide +kernel
  exact ⟨Workers.keepsOrder_tasks, distinctEntries,
    (congrArg (List.map Rule.name) rules).trans names⟩

end InstrumentScope
