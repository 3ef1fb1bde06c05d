import InstrumentScope.Policy
import InstrumentScope.Proofs.RuleNumbers
import InstrumentScope.Proofs.StoreKeys
import Mathlib.Data.List.Induction

/-!
Contract: of the entries of a list those become rules that load under a new name.

An entry is skipped if it does not load, or if an entry before it loads as a
rule of the same name. An entry that does not load reserves no name, so it makes
no difference to any other, and neither does an entry that comes too late: a
list without its skipped entries leads to the same rules.

Owns:
- what becomes of an entry, from the entries before it alone;
- the rules that a list of entries leads to, and what is said about each entry;
- the list without its skipped entries.

Does not own:
- the entries that a selection is written as (`Selections`).
-/

namespace InstrumentScope

/-- Every item of a list, behind `earlier` and the items before it. -/
def precededBy {α : Type} (earlier : List α) : List α → List (List α × α)
  | [] => []
  | item :: rest => (earlier, item) :: precededBy (earlier ++ [item]) rest

theorem map_snd_precededBy {α : Type} (earlier items : List α) :
    (precededBy earlier items).map Prod.snd = items := by
  induction items generalizing earlier with
  | nil => rfl
  | cons item rest inductionHypothesis =>
      rw [precededBy, List.map_cons, inductionHypothesis]

theorem mem_of_mem_precededBy {α : Type} {earlier items : List α} {place : List α × α}
    (member : place ∈ precededBy earlier items) : place.2 ∈ items := by
  rw [← map_snd_precededBy earlier items]
  exact List.mem_map_of_mem member

/-- An item with those before it makes up the front of the list. -/
theorem prefix_of_mem_precededBy {α : Type} {earlier items : List α} {place : List α × α}
    (member : place ∈ precededBy earlier items) : place.1 ++ [place.2] <+: earlier ++ items := by
  induction items generalizing earlier with
  | nil => contradiction
  | cons item rest inductionHypothesis =>
      rw [List.append_cons earlier item rest]
      rcases List.mem_cons.mp member with rfl | later
      · exact List.prefix_append _ _
      · exact inductionHypothesis later

theorem precededBy_concat {α : Type} (earlier items : List α) (last : α) :
    precededBy earlier (items ++ [last]) =
      precededBy earlier items ++ [(earlier ++ items, last)] := by
  induction items generalizing earlier with
  | nil => rw [List.append_nil, List.nil_append, precededBy, precededBy, precededBy, List.nil_append]
  | cons item rest inductionHypothesis =>
      rw [List.cons_append, precededBy, inductionHypothesis, precededBy,
        List.append_cons earlier item rest, List.cons_append]

theorem precededBy_map {α β : Type} (f : α → β) (earlier items : List α) :
    precededBy (earlier.map f) (items.map f) =
      (precededBy earlier items).map fun place => (place.1.map f, f place.2) := by
  induction items generalizing earlier with
  | nil => rfl
  | cons item rest inductionHypothesis =>
      rw [List.map_cons, precededBy, precededBy, List.map_cons, ← inductionHypothesis,
        List.map_append]
      rfl

namespace Rule

/-- A rule that comes last is left out if its name has occurred, and else kept. -/
theorem distinct_concat (rules : List Rule) (rule : Rule) :
    distinct (rules ++ [rule]) =
      if ∃ other ∈ rules, other.name = rule.name then distinct rules
      else distinct rules ++ [rule] := by
  match rules with
  | [] => simp [distinct, List.eraseDupsBy_cons]
  | first :: rest =>
      let others := rest.filter fun other => other.sameAs first = false
      have atFirst : ∀ last : List Rule, distinct (first :: rest ++ last) =
          first :: distinct (others ++ last.filter fun other => other.sameAs first = false) := by
        intro last
        unfold distinct
        rw [List.cons_append, List.eraseDupsBy_cons, List.filter_append]
      have alone : distinct (first :: rest) = first :: distinct others := by
        simpa using atFirst []
      rw [atFirst, alone]
      by_cases sameName : first.name = rule.name
      · have occurred : ∃ other ∈ first :: rest, other.name = rule.name :=
          ⟨first, List.mem_cons_self, sameName⟩
        rw [if_pos occurred]
        simp [sameAs, sameName]
      · have inOthers : (∃ other ∈ first :: rest, other.name = rule.name) ↔
            ∃ other ∈ others, other.name = rule.name := by
          have passes : ∀ other : Rule, other.name = rule.name → other.sameAs first = false := by
            intro other named
            simpa [sameAs, named] using Ne.symm sameName
          constructor
          · rintro ⟨other, member, named⟩
            rcases List.mem_cons.mp member with rfl | inRest
            · exact absurd named sameName
            · exact ⟨other, List.mem_filter.mpr ⟨inRest, by simpa using passes other named⟩, named⟩
          · rintro ⟨other, member, named⟩
            exact ⟨other, List.mem_cons_of_mem first (List.mem_filter.mp member).1, named⟩
        have stays : ([rule].filter fun other => other.sameAs first = false) = [rule] := by
          simpa [sameAs] using Ne.symm sameName
        rw [stays, distinct_concat others rule]
        simp only [inOthers]
        split <;> rfl
termination_by rules.length
decreasing_by
  exact Nat.lt_succ_of_le (List.length_filter_le _ rest)

/-- Leaving out repeated names loses no name. -/
theorem exists_name_distinct (rules : List Rule) (name : String) :
    (∃ rule ∈ distinct rules, rule.name = name) ↔ ∃ rule ∈ rules, rule.name = name := by
  induction rules using List.reverseRecOn with
  | nil => rfl
  | append_singleton rules last inductionHypothesis =>
      rw [distinct_concat]
      split
      case isTrue occurred =>
        rw [inductionHypothesis]
        simp only [List.mem_append, List.mem_singleton]
        constructor
        · rintro ⟨rule, member, named⟩
          exact ⟨rule, Or.inl member, named⟩
        · rintro ⟨rule, member | rfl, named⟩
          · exact ⟨rule, member, named⟩
          · obtain ⟨other, inRules, sameName⟩ := occurred
            exact ⟨other, inRules, sameName.trans named⟩
      case isFalse =>
        simp only [List.mem_append, List.mem_singleton, or_and_right, exists_or,
          inductionHypothesis]

theorem distinct_eq_self {rules : List Rule} (distinctNames : (rules.map Rule.name).Nodup) :
    distinct rules = rules := by
  induction rules using List.reverseRecOn with
  | nil => rfl
  | append_singleton rules last inductionHypothesis =>
      rw [List.map_append, List.nodup_append] at distinctNames
      obtain ⟨before, _, apart⟩ := distinctNames
      have isNew : ¬ ∃ other ∈ rules, other.name = last.name := by
        rintro ⟨other, member, sameName⟩
        exact apart other.name (List.mem_map_of_mem member) last.name List.mem_cons_self sameName
      rw [distinct_concat, if_neg isNew, inductionHypothesis before]

/-- Rules that come later change nothing about the numbers of those before. -/
theorem distinct_prefix (rules later : List Rule) :
    distinct rules <+: distinct (rules ++ later) := by
  induction later using List.reverseRecOn with
  | nil => simp
  | append_singleton later last inductionHypothesis =>
      rw [← List.append_assoc, distinct_concat]
      split
      · exact inductionHypothesis
      · exact inductionHypothesis.trans (List.prefix_append _ _)

end Rule

/-- Entries, each with what came of loading it. -/
abbrev Listing := List (String × Except Fault Rule)

namespace Listing

def ofEntries (store : Store) (catalog : Catalog) (entries : List String) : Listing :=
  entries.map fun entry => (entry, Rule.load store catalog entry)

/-- The rules that the entries load as; entries that do not load have none. -/
def rules (listing : Listing) : List Rule :=
  listing.filterMap fun item => item.2.toOption

/-- What becomes of an entry behind `earlier`: it fails if it does not load, or if one of those
loads as a rule of the same name. -/
def fate (earlier : Listing) (loaded : Except Fault Rule) : Except Fault Rule :=
  match loaded with
  | .error fault => .error fault
  | .ok rule =>
      if ∃ other ∈ rules earlier, other.name = rule.name then .error (.duplicateRule rule.name)
      else .ok rule

/-- What is said about an entry: why it is skipped, or the number of its rule. -/
def notice (place : Listing × String × Except Fault Rule) : Notice :=
  match fate place.1 place.2.2 with
  | .error fault => .skipped place.2.1 fault
  | .ok _ => .registered place.2.1 ⟨(Rule.distinct (rules place.1)).length⟩

/-- The entries that are not skipped, behind `earlier`. -/
def keptAfter (earlier listing : Listing) : Listing :=
  ((precededBy earlier listing).filter fun place => (fate place.1 place.2.2).isOk).map Prod.snd

def kept (listing : Listing) : Listing :=
  keptAfter [] listing

theorem keptAfter_cons (earlier : Listing) (item : String × Except Fault Rule) (rest : Listing) :
    keptAfter earlier (item :: rest) =
      if (fate earlier item.2).isOk then item :: keptAfter (earlier ++ [item]) rest
      else keptAfter (earlier ++ [item]) rest := by
  unfold keptAfter
  rw [precededBy, List.filter_cons]
  split <;> rfl

theorem mem_of_mem_kept {listing : Listing} {item : String × Except Fault Rule}
    (member : item ∈ kept listing) : item ∈ listing := by
  obtain ⟨place, filtered, rfl⟩ := List.mem_map.mp member
  exact mem_of_mem_precededBy (List.mem_filter.mp filtered).1

/-- Where every entry loads as it did, the entries that were kept load as what was kept of them. -/
theorem ofEntries_kept {store later : Store} {catalog : Catalog}
    (unchanged : ∀ entry, Rule.load later catalog entry = Rule.load store catalog entry)
    (entries : List String) :
    let kept := kept (ofEntries store catalog entries)
    ofEntries later catalog (kept.map Prod.fst) = kept := by
  intro kept
  show (kept.map Prod.fst).map _ = kept
  rw [List.map_map]
  refine (List.map_congr_left ?_).trans (List.map_id kept)
  intro item member
  obtain ⟨entry, _, rfl⟩ := List.mem_map.mp (mem_of_mem_kept member)
  exact congrArg (Prod.mk entry) (unchanged entry)

theorem rules_append (listing later : Listing) :
    rules (listing ++ later) = rules listing ++ rules later :=
  List.filterMap_append

/-- An entry is worth a warning if it is skipped, and else a message for those who look closely. -/
theorem severity_notice (place : Listing × String × Except Fault Rule) :
    (notice place).severity = if (fate place.1 place.2.2).isOk then .debug else .warn := by
  unfold notice
  cases fate place.1 place.2.2 <;> rfl

end Listing

namespace RuleSet

/-- The set is well-formed, and its rules are those of the listing, each name once. -/
structure Tells (set : RuleSet) (listing : Listing) : Prop where
  wellFormed : set.WellFormed
  rules : set.rules.toList = Rule.distinct (Listing.rules listing)

theorem tells_empty : empty.Tells [] where
  wellFormed := wellFormed_empty
  rules := rfl

variable {set : RuleSet} {earlier : Listing}

theorem Tells.size_eq (tells : set.Tells earlier) :
    set.size = (Rule.distinct (Listing.rules earlier)).length := by
  rw [← tells.rules]
  exact Array.length_toList.symm

theorem Tells.find?_eq_none_iff (tells : set.Tells earlier) (name : String) :
    set.find? name = none ↔ ¬ ∃ other ∈ Listing.rules earlier, other.name = name := by
  rw [RuleSet.find?_eq_none_iff tells.wellFormed, tells.rules, ← Rule.exists_name_distinct]
  simp only [not_exists, not_and]

/-- A set that tells a listing enrolls the next entry exactly if its fate is to become a rule, and
tells the longer listing afterwards. -/
theorem Tells.enroll (tells : set.Tells earlier) (item : String × Except Fault Rule) :
    let outcome := set.enroll item.1 item.2
    outcome.rules.Tells (earlier ++ [item]) ∧ outcome.notice = Listing.notice (earlier, item) ∧
      if (Listing.fate earlier item.2).isOk then
        outcome.notice = .registered item.1 ⟨set.size⟩ ∧ outcome.rules.size = set.size + 1
      else outcome.rules = set := by
  obtain ⟨entry, loaded⟩ := item
  cases loaded with
  | error fault =>
      refine ⟨⟨tells.wellFormed, ?_⟩, rfl, rfl⟩
      rw [Listing.rules_append]
      exact tells.rules.trans (congrArg Rule.distinct (List.append_nil _).symm)
  | ok rule =>
      have extended : Listing.rules (earlier ++ [(entry, .ok rule)]) =
          Listing.rules earlier ++ [rule] := Listing.rules_append earlier _
      by_cases occurred : ∃ other ∈ Listing.rules earlier, other.name = rule.name
      · have failed : Listing.fate earlier (.ok rule) = .error (.duplicateRule rule.name) :=
          if_pos occurred
        have taken : (set.find? rule.name).isSome := by
          rw [Option.isSome_iff_ne_none, ne_eq, tells.find?_eq_none_iff]
          exact not_not_intro occurred
        dsimp only
        rw [enroll_of_taken taken, Listing.notice]
        dsimp only
        rw [failed]
        refine ⟨⟨tells.wellFormed, ?_⟩, rfl, rfl⟩
        rw [extended, Rule.distinct_concat, if_pos occurred]
        exact tells.rules
      · have passed : Listing.fate earlier (.ok rule) = .ok rule := if_neg occurred
        have free := (tells.find?_eq_none_iff rule.name).mpr occurred
        dsimp only
        rw [enroll_of_free free, Listing.notice]
        dsimp only
        rw [passed, ← tells.size_eq]
        refine ⟨⟨wellFormed_append tells.wellFormed free, ?_⟩, rfl, rfl, Array.size_push _⟩
        rw [extended, Rule.distinct_concat, if_neg occurred, ← tells.rules]
        exact Array.toList_push

/-- A set that tells the listing so far tells all of it in the end. -/
theorem Tells.enrollAll (tells : set.Tells earlier) (listing : Listing) :
    (set.enrollAll listing).rules.Tells (earlier ++ listing) ∧
      (set.enrollAll listing).notices = (precededBy earlier listing).map Listing.notice := by
  induction listing generalizing set earlier with
  | nil => exact ⟨by rwa [List.append_nil], rfl⟩
  | cons item rest inductionHypothesis =>
      obtain ⟨goesOn, said, _⟩ := tells.enroll item
      obtain ⟨ended, saidLater⟩ := inductionHypothesis goesOn
      rw [List.append_assoc] at ended
      exact ⟨ended, congrArg₂ List.cons said saidLater⟩

/-- Without the entries that are skipped the set becomes the same, and every entry is enrolled under
the next number. -/
theorem Tells.enrollAll_kept (tells : set.Tells earlier) (listing : Listing) :
    let kept := Listing.keptAfter earlier listing
    (set.enrollAll kept).rules = (set.enrollAll listing).rules ∧
      (set.enrollAll kept).notices =
        kept.mapIdx (fun index item => .registered item.1 ⟨set.size + index⟩) ∧
      (set.enrollAll listing).rules.size = set.size + kept.length := by
  induction listing generalizing set earlier with
  | nil => exact ⟨rfl, rfl, rfl⟩
  | cons item rest inductionHypothesis =>
      obtain ⟨goesOn, _, outcome⟩ := tells.enroll item
      obtain ⟨sameRules, said, counted⟩ := inductionHypothesis goesOn
      dsimp only at sameRules said counted ⊢
      rw [Listing.keptAfter_cons]
      split at outcome
      case isTrue passed =>
        obtain ⟨registered, grown⟩ := outcome
        rw [if_pos passed, List.mapIdx_cons, List.length_cons]
        refine ⟨sameRules, ?_, ?_⟩
        · refine congrArg₂ List.cons registered (said.trans ?_)
          rw [grown]
          simp only [Nat.add_assoc, Nat.add_comm 1]
        · show (RuleSet.enrollAll _ rest).rules.size = _
          rw [counted, grown]
          omega
      -- A skipped entry leaves the set that the rest begins with as it was.
      case isFalse failed =>
        rw [if_neg failed]
        rw [outcome] at sameRules said counted
        have skipped : (set.enrollAll (item :: rest)).rules = (set.enrollAll rest).rules :=
          congrArg (fun left : RuleSet => (left.enrollAll rest).rules) outcome
        rw [skipped]
        exact ⟨sameRules, said, counted⟩

/-- Loading entries one by one enrolls what came of loading each. -/
theorem rules_enrollAll_ofEntries (set : RuleSet) (store : Store) (catalog : Catalog)
    (entries : List String) :
    (set.enrollAll (Listing.ofEntries store catalog entries)).rules =
      entries.foldl (fun set entry => (set.load store catalog entry).rules) set := by
  induction entries generalizing set with
  | nil => rfl
  | cons entry rest inductionHypothesis =>
      exact inductionHypothesis (set.load store catalog entry).rules

/-- The number that an entry is registered under is that of its rule, also when all is loaded. -/
theorem Tells.get_of_fate {listing before after : Listing} (tells : set.Tells listing)
    {item : String × Except Fault Rule} {rule : Rule} (split : listing = before ++ item :: after)
    (passed : Listing.fate before item.2 = .ok rule) :
    set.get? ⟨(Rule.distinct (Listing.rules before)).length⟩ = some rule := by
  obtain ⟨entry, loaded⟩ := item
  cases loaded with
  | error fault => contradiction
  | ok loadedRule =>
      by_cases occurred : ∃ other ∈ Listing.rules before, other.name = loadedRule.name
      · have failed : Listing.fate before (.ok loadedRule) = .error _ := if_pos occurred
        exact absurd (failed.symm.trans passed) (by simp)
      · have same : Except.ok loadedRule = Except.ok rule := (if_neg occurred).symm.trans passed
        obtain rfl := Except.ok.inj same
        have inFront : Rule.distinct (Listing.rules before) ++ [loadedRule] <+:
            set.rules.toList := by
          have first : Rule.distinct (Listing.rules before ++ [loadedRule]) =
              Rule.distinct (Listing.rules before) ++ [loadedRule] := by
            rw [Rule.distinct_concat, if_neg occurred]
          rw [tells.rules, split, Listing.rules_append, ← first]
          have next : Listing.rules ((entry, .ok loadedRule) :: after) =
              [loadedRule] ++ Listing.rules after := rfl
          rw [next, ← List.append_assoc]
          exact Rule.distinct_prefix _ _
        obtain ⟨later, whole⟩ := inFront
        unfold get?
        rw [← Array.getElem?_toList, ← whole, List.append_assoc]
        simp

end RuleSet

/-- Whoever loads the entries, what comes of each of them stands at its place in the list. -/
theorem Policy.loadEach_eq {workers : Workers} (keepsOrder : workers.KeepsOrder) (store : Store)
    (catalog : Catalog) (options : Options) (entries : List String) :
    loadEach workers store catalog options entries = Listing.ofEntries store catalog entries := by
  unfold loadEach
  split
  case isTrue => exact keepsOrder.collect_eq_map _ entries
  case isFalse => rfl

/-- Loading a store enrolls what came of loading the listed entries. -/
theorem Policy.load_eq {workers : Workers} (keepsOrder : workers.KeepsOrder) {store : Store}
    {catalog : Catalog} {options : Options} {listed : Option (List String)} {listing : Listing}
    (isListed : store.names? (Store.key options.root .selections) = listed)
    (loads : Listing.ofEntries store catalog (listed.getD []) = listing) :
    load workers store catalog options =
      let enrolled := RuleSet.empty.enrollAll listing
      let policy := ofRules enrolled.rules options
      { policy
        notices :=
          (if listed.isNone then [.noEntries (Store.key options.root .selections)] else []) ++
            enrolled.notices ++ [.ready enrolled.rules.size listing.length policy.coverage.size] } := by
  subst isListed loads
  unfold load
  dsimp only
  rw [loadEach_eq keepsOrder]

/-- Of a missing list a load speaks first, then of every entry in its turn, and last of all
together. -/
theorem Policy.notices_load {workers : Workers} (keepsOrder : workers.KeepsOrder) (store : Store)
    (catalog : Catalog) (options : Options) :
    let listKey := Store.key options.root .selections
    let entries := (store.names? listKey).getD []
    let loading := load workers store catalog options
    loading.notices =
      (if (store.names? listKey).isNone then [.noEntries listKey] else []) ++
        (precededBy [] (Listing.ofEntries store catalog entries)).map Listing.notice ++
        [.ready loading.policy.rules.size entries.length loading.policy.coverage.size] := by
  intro listKey entries loading
  have loaded : loading = _ := load_eq keepsOrder rfl rfl
  have said := (RuleSet.tells_empty.enrollAll (Listing.ofEntries store catalog entries)).2
  rw [loaded, ← said]
  simp only [Listing.ofEntries, List.length_map]
  rfl

/-- A missing list and every skipped entry are worth a warning, and only those. -/
theorem Policy.severities_load {workers : Workers} (keepsOrder : workers.KeepsOrder)
    (store : Store) (catalog : Catalog) (options : Options) :
    let listed := store.names? (Store.key options.root .selections)
    (load workers store catalog options).notices.map Notice.severity =
      (if listed.isNone then [.warn] else []) ++
        (precededBy [] (Listing.ofEntries store catalog (listed.getD []))).map (fun place =>
          if (Listing.fate place.1 place.2.2).isOk then .debug else .warn) ++ [.info] := by
  intro listed
  have opening : (if listed.isNone then
      [Notice.noEntries (Store.key options.root .selections)] else []).map Notice.severity =
      if listed.isNone then [.warn] else [] := by
    split <;> rfl
  have each : Notice.severity ∘ Listing.notice = _ := funext Listing.severity_notice
  rw [notices_load keepsOrder, List.map_append, List.map_append, opening, List.map_map, each]
  rfl

/-- Loading a store yields the rules that the listed entries load as, of each name the first, as
loading the entries one by one does. Every entry is told of in its turn: it is skipped with a
warning, or registered under the number of its rule. Then follows how many were loaded, for anyone
who asks for more than warnings; that there is no list is a warning of its own. A list without its
skipped entries, all else unchanged, loads as the same policy with nothing skipped; and whether
entries are compiled side by side makes no difference, as long as the workers keep the order. -/
theorem loading_keeps_what_validates {workers : Workers} (keepsOrder : workers.KeepsOrder)
    (store : Store) (catalog : Catalog) (options : Options) :
    let listKey := Store.key options.root .selections
    let entries := (store.names? listKey).getD []
    let listing := Listing.ofEntries store catalog entries
    let loading := Policy.load workers store catalog options
    let kept := Listing.kept listing
    let trimmedStore := store.set listKey (.names (kept.map Prod.fst))
    let trimmed := Policy.load workers trimmedStore catalog options
    loading.policy.rules.rules.toList = Rule.distinct (Listing.rules listing) ∧
    loading.policy = .ofRules
      (entries.foldl (fun set entry => (set.load store catalog entry).rules) .empty) options ∧
    loading.notices =
      (if (store.names? listKey).isNone then [.noEntries listKey] else []) ++
        (precededBy [] listing).map Listing.notice ++
        [.ready loading.policy.rules.size entries.length loading.policy.coverage.size] ∧
    loading.notices.map Notice.severity =
      (if (store.names? listKey).isNone then [.warn] else []) ++
        (precededBy [] listing).map (fun place =>
          if (Listing.fate place.1 place.2.2).isOk then .debug else .warn) ++ [.info] ∧
    (∀ before item after rule, listing = before ++ item :: after →
      Listing.fate before item.2 = .ok rule →
        loading.policy.rules.get? ⟨(Rule.distinct (Listing.rules before)).length⟩ = some rule) ∧
    (∀ entry, Rule.load trimmedStore catalog entry = Rule.load store catalog entry) ∧
    trimmed.policy = loading.policy ∧
    trimmed.notices = kept.mapIdx (fun index item => .registered item.1 ⟨index⟩) ++
      [.ready kept.length kept.length loading.policy.coverage.size] ∧
    ∀ parallelCompile,
      let other := Policy.load workers store catalog { options with parallelCompile }
      other.policy.rules = loading.policy.rules ∧
        other.policy.coverage = loading.policy.coverage ∧ other.notices = loading.notices := by
  intro listKey entries listing loading kept trimmedStore trimmed
  have tells := (RuleSet.tells_empty.enrollAll listing).1
  obtain ⟨sameRules, saidTrimmed, counted⟩ := RuleSet.tells_empty.enrollAll_kept listing
  have unchanged : ∀ entry, Rule.load trimmedStore catalog entry =
      Rule.load store catalog entry := by
    intro entry
    exact Rule.load_congr (Store.agreeOn_set_selections options.root entry _) catalog
  -- Every entry that is kept loads as it did, so the trimmed list is the listing that was kept.
  have trimmedListing : Listing.ofEntries trimmedStore catalog (kept.map Prod.fst) = kept :=
    Listing.ofEntries_kept unchanged entries
  have loaded : loading = _ := Policy.load_eq keepsOrder rfl rfl
  have loadedTrimmed : trimmed = _ :=
    Policy.load_eq keepsOrder (Store.names?_set store listKey _) trimmedListing
  have rules : loading.policy.rules = (RuleSet.empty.enrollAll listing).rules :=
    congrArg (·.policy.rules) loaded
  have samePolicy : trimmed.policy = loading.policy := by
    rw [loaded, loadedTrimmed]
    exact congrArg (Policy.ofRules · options) sameRules
  refine ⟨?_, ?_, Policy.notices_load keepsOrder store catalog options,
    Policy.severities_load keepsOrder store catalog options, ?_, unchanged, samePolicy, ?_, ?_⟩
  · rw [rules]
    exact tells.rules
  · rw [loaded, ← RuleSet.rules_enrollAll_ofEntries]
  · intro before item after rule split passed
    rw [rules]
    exact tells.get_of_fate split passed
  · have size : loading.policy.rules.size = kept.length := by
      rw [rules, counted]
      exact Nat.zero_add _
    have numbered : (RuleSet.empty.enrollAll kept).notices =
        kept.mapIdx fun index item => .registered item.1 ⟨index⟩ := by
      refine saidTrimmed.trans ?_
      simp only [show RuleSet.empty.size = 0 from rfl, Nat.zero_add]
      rfl
    rw [← numbered, ← samePolicy]
    rw [← samePolicy] at size
    rw [loadedTrimmed] at size ⊢
    exact congrArg (fun count => _ ++ [Notice.ready count _ _]) size
  · intro parallelCompile other
    have otherLoaded : other = _ := Policy.load_eq keepsOrder rfl rfl
    rw [otherLoaded, loaded]
    exact ⟨rfl, rfl, rfl⟩

/-- The second entry is for a module that is not known, and the third takes the name of the
first. -/
theorem loading_keeps_what_validates_sample :
    let catalog := Catalog.empty.insert "app" ⟨0x1000, 0x40⟩
    let selections : List Selection :=
      [⟨"whole", "app", none, [], []⟩, ⟨"lost", "ghost", none, [], []⟩,
        ⟨"late", "app", some "main", [], []⟩, ⟨"part", "app", some "main", [⟨0x8, 0x20⟩], []⟩]
    let store := (selections.foldl Store.addSelection .empty).set
      (Store.key "late" .id) (.text "whole")
    let before := Listing.ofEntries store catalog ["whole", "lost", "late"]
    let loading := Policy.load .tasks store catalog .standard
    Workers.tasks.KeepsOrder ∧
      loading.policy.rules.rules.toList.map Rule.name = ["whole", "part"] ∧
      loading.notices.map Notice.severity = [.debug, .warn, .warn, .debug, .info] ∧
      (∃ rule, Listing.fate before (Rule.load store catalog "part") = .ok rule ∧
        loading.policy.rules.get? ⟨1⟩ = some rule) ∧
      (Policy.load .tasks store catalog .sequential).notices = loading.notices := by
  intro catalog selections store before loading
  have listed : store.names? (Store.key Options.standard.root .selections) =
      some ["whole", "lost", "late", "part"] := by decide +kernel
  rcases loading_keeps_what_validates Workers.keepsOrder_tasks store catalog .standard with
    ⟨rules, _, _, severities, numbered, _, _, _, alike⟩
  rw [listed] at rules severities numbered
  have names : loading.policy.rules.rules.toList.map Rule.name = ["whole", "part"] :=
    (congrArg (List.map Rule.name) rules).trans (by decide +kernel)
  have passes : (Listing.fate before (Rule.load store catalog "part")).isOk = true := by
    decide +kernel
  have second : (Rule.distinct (Listing.rules before)).length = 1 := by decide +kernel
  cases fate : Listing.fate before (Rule.load store catalog "part") with
  | error fault =>
      rw [fate] at passes
      exact absurd passes Bool.false_ne_true
  | ok rule =>
      have present := numbered before ("part", Rule.load store catalog "part") [] rule rfl fate
      rw [second] at present
      exact ⟨Workers.keepsOrder_tasks, names, severities.trans (by decide +kernel),
        ⟨rule, rfl, present⟩, (alike false).2.2⟩

end InstrumentScope
