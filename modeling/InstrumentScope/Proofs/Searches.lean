import InstrumentScope.Proofs.ListedEntries
import InstrumentScope.Proofs.PathMemory
import Mathlib.Data.List.DropRight
import Mathlib.Data.List.Nodup

/-!
Contract: a path searches the rules for what is activated on it and is new to it.

A search is what an activation takes when its path does not know the mapping.
What it leads to is remembered, also if no rule applies, so that the searches
taken and the mappings known grow together. A copy knows what the path knew that
it was copied from. What a path knows is therefore told by its activations and
by what it knew when it began.

Owns:
- the searches that one event takes;
- the paths of a run, one after the other under each name, and what is activated on them;
- the searches of a run, none of which is taken twice.

Does not own:
- what is remembered of a search (`PathMemory`);
- the number of the searches (`SearchCounts`).
-/

namespace InstrumentScope

namespace PathEvent

/-- The path on which the event activates a mapping, and the mapping. -/
def activated? : PathEvent → Option (String × Mapping)
  | activate path mapping | enter path mapping => some (path, mapping)
  | _ => none

/-- The name under which a path begins: as a copy, or afresh. -/
def begun? : PathEvent → Option String
  | fork _ copy => some copy
  | restart path => some path
  | _ => none

end PathEvent

namespace Delivery

/-- The path on which the delivery activates a mapping, and the mapping. -/
def activated? (delivery : Delivery) : Option (String × Mapping) :=
  delivery.pathEvent?.bind PathEvent.activated?

/-- The name under which a path begins with the delivery. -/
def begun? (delivery : Delivery) : Option String :=
  delivery.pathEvent?.bind PathEvent.begun?

end Delivery

namespace Paths

variable {paths : Paths}

/-- An event searches the rules if it activates a mapping that its path does not know. -/
theorem Recall.scans_step (allRecall : paths.Recall) (rules : RuleSet) (event : PathEvent) :
    (paths.step rules event).scans = event.activated?.elim 0 fun activated =>
      if (paths.get activated.1).cached activated.2 = none then 1 else 0 := by
  cases event with
  | activate path mapping => exact Path.scans_activate (allRecall path) rules mapping
  | enter path mapping => exact Path.scans_activate (allRecall path) rules mapping
  | leave | inquire | fork | restart => rfl

/-- The path that an event goes on from knows one mapping more for each search. -/
theorem Recall.knownMappings_step (allRecall : paths.Recall) (rules : RuleSet) {event : PathEvent}
    {name : String} (goesOn : event.source? = some name) :
    ((paths.step rules event).paths.get name).knownMappings =
      (paths.get name).knownMappings + (paths.step rules event).scans := by
  cases event with
  | activate path mapping =>
      obtain rfl := Option.some.inj goesOn
      exact (congrArg Path.knownMappings (get_set_self _ _ _)).trans
        (Path.knownMappings_activate (allRecall path) rules mapping)
  | enter path mapping =>
      obtain rfl := Option.some.inj goesOn
      exact (congrArg Path.knownMappings (get_set_self _ _ _)).trans
        (Path.knownMappings_activate (allRecall path) rules mapping)
  | leave path =>
      obtain rfl := Option.some.inj goesOn
      show ((paths.set path (paths.get path).leave).get path).knownMappings = _
      rw [get_set_self]
      rfl
  | inquire path pc => rfl
  | fork path copy =>
      obtain rfl := Option.some.inj goesOn
      show ((paths.set copy (paths.get path)).get path).knownMappings = _
      rw [get_set, ite_self]
      rfl
  | restart path => contradiction

/-- Activating a mapping on a path, or entering it, makes the path know it and changes nothing else
about what is known. -/
private theorem Recall.isSome_cached_set (allRecall : paths.Recall) (rules : RuleSet)
    (path : String) (added : Mapping) {later : Path}
    (remembers : ∀ other, later.cached other =
      ((paths.get path).activate rules added).path.cached other) (name : String)
    (mapping : Mapping) :
    (((paths.set path later).get name).cached mapping).isSome ↔
      ((paths.get name).cached mapping).isSome ∨ path = name ∧ added = mapping := by
  rw [get_set]
  split
  case isTrue same =>
    subst same
    rw [remembers, Path.cached_activate (allRecall path) rules added]
    split
    case isTrue isAdded => simp [isAdded]
    case isFalse isOther => simp [isOther]
  case isFalse other => simp [other]

/-- A path that does not begin with the event knows what it knew and what is activated on it. -/
theorem Recall.isSome_cached_step (allRecall : paths.Recall) (rules : RuleSet) {event : PathEvent}
    {name : String} (notBegun : event.begun? ≠ some name) (mapping : Mapping) :
    (((paths.step rules event).paths.get name).cached mapping).isSome ↔
      ((paths.get name).cached mapping).isSome ∨ event.activated? = some (name, mapping) := by
  cases event with
  | activate path added =>
      rw [PathEvent.activated?, Option.some.injEq, Prod.mk.injEq]
      exact allRecall.isSome_cached_set rules path added (fun _ => rfl) name mapping
  | enter path added =>
      have remembers : ∀ other, ((paths.get path).enter rules added).path.cached other =
          ((paths.get path).activate rules added).path.cached other := fun _ => rfl
      rw [PathEvent.activated?, Option.some.injEq, Prod.mk.injEq]
      exact allRecall.isSome_cached_set rules path added remembers name mapping
  | leave path =>
      show (((paths.set path (paths.get path).leave).get name).cached mapping).isSome ↔ _
      rw [get_set]
      split
      case isTrue same => simp [PathEvent.activated?, ← same, Path.leave, Path.cached]
      case isFalse => simp [PathEvent.activated?]
  | inquire path pc => exact (or_iff_left (Option.some_ne_none _ ∘ Eq.symm)).symm
  | fork path copy =>
      have other : copy ≠ name := fun same => notBegun (congrArg some same)
      show (((paths.set copy (paths.get path)).get name).cached mapping).isSome ↔ _
      rw [get_set, if_neg other]
      simp [PathEvent.activated?]
  | restart path =>
      have other : path ≠ name := fun same => notBegun (congrArg some same)
      show (((paths.set path .fresh).get name).cached mapping).isSome ↔ _
      rw [get_set, if_neg other]
      simp [PathEvent.activated?]

/-- A delivery searches the rules if it activates a mapping that its path does not know. -/
theorem Recall.scans_outcome (allRecall : paths.Recall) (delivery : Delivery) :
    (delivery.outcome paths).effects.scans = delivery.activated?.elim 0 fun activated =>
      if (paths.get activated.1).cached activated.2 = none then 1 else 0 := by
  unfold Delivery.activated?
  cases amounts : delivery.pathEvent? with
  | none => exact (delivery.outcome_of_no_pathEvent paths amounts).2
  | some event =>
      exact (delivery.outcome_of_pathEvent paths amounts).2.trans (allRecall.scans_step _ event)

theorem Recall.knownMappings_outcome (allRecall : paths.Recall) {delivery : Delivery}
    {name : String} (goesOn : delivery.event.source? = some name) :
    ((delivery.outcome paths).fleet.paths.get name).knownMappings =
      (paths.get name).knownMappings + (delivery.outcome paths).effects.scans := by
  cases amounts : delivery.pathEvent? with
  | none =>
      obtain ⟨untouched, unsearched⟩ := delivery.outcome_of_no_pathEvent paths amounts
      rw [untouched, unsearched, Nat.add_zero]
  | some event =>
      obtain ⟨samePaths, sameScans⟩ := delivery.outcome_of_pathEvent paths amounts
      obtain ⟨_, sameSource, _⟩ := Delivery.concerns_of_pathEvent amounts
      rw [samePaths, sameScans]
      exact allRecall.knownMappings_step _ (sameSource.symm.trans goesOn)

theorem Recall.isSome_cached_outcome (allRecall : paths.Recall) {delivery : Delivery}
    {name : String} (notBegun : delivery.begun? ≠ some name) (mapping : Mapping) :
    (((delivery.outcome paths).fleet.paths.get name).cached mapping).isSome ↔
      ((paths.get name).cached mapping).isSome ∨ delivery.activated? = some (name, mapping) := by
  unfold Delivery.begun? at notBegun
  unfold Delivery.activated?
  cases amounts : delivery.pathEvent? with
  | none =>
      rw [(delivery.outcome_of_no_pathEvent paths amounts).1]
      exact (or_iff_left (Option.some_ne_none _ ∘ Eq.symm)).symm
  | some event =>
      rw [amounts] at notBegun
      rw [(delivery.outcome_of_pathEvent paths amounts).1]
      exact allRecall.isSome_cached_step _ notBegun mapping

end Paths

/-- A path in a sequence of deliveries: the name that it goes by, and how many deliveries it takes
until it begins. One name may stand for several paths, one after the other. -/
structure Strand where
  name : String
  start : Nat
deriving DecidableEq, Repr

namespace Strand

/-- The path that goes by the name after the deliveries. -/
def of (deliveries : List Delivery) (name : String) : Strand :=
  ⟨name, (deliveries.rdropWhile fun delivery => delivery.begun? ≠ some name).length⟩

/-- The path knew the mapping from its beginning, since the path it was copied from knew it. -/
def Inherits (deliveries : List Delivery) (strand : Strand) (mapping : Mapping) : Prop :=
  (((Paths.empty.after (deliveries.take strand.start)).get strand.name).cached mapping).isSome

instance (deliveries : List Delivery) (strand : Strand) (mapping : Mapping) :
    Decidable (strand.Inherits deliveries mapping) := by
  unfold Inherits
  infer_instance

variable {deliveries : List Delivery} {delivery : Delivery} {name : String}

theorem start_of_le : (of deliveries name).start ≤ deliveries.length :=
  (List.rdropWhile_prefix _ deliveries).length_le

theorem of_concat_of_begun (begins : delivery.begun? = some name) :
    of (deliveries ++ [delivery]) name = ⟨name, deliveries.length + 1⟩ := by
  unfold of
  rw [List.rdropWhile_concat_neg _ _ _ (by simp [begins]), List.length_append,
    List.length_singleton]

theorem of_concat_of_not_begun (notBegun : delivery.begun? ≠ some name) :
    of (deliveries ++ [delivery]) name = of deliveries name := by
  unfold of
  rw [List.rdropWhile_concat_pos _ _ _ (by simp [notBegun])]

/-- What a path inherits is settled once it has begun. -/
theorem inherits_append {strand : Strand} (begun : strand.start ≤ deliveries.length)
    (later : List Delivery) (mapping : Mapping) :
    strand.Inherits (deliveries ++ later) mapping ↔ strand.Inherits deliveries mapping := by
  unfold Inherits
  rw [List.take_append_of_le_length begun]

end Strand

namespace Delivery

/-- What the delivery activates, behind the earlier ones, with the path that it activates it on. -/
def activation? (earlier : List Delivery) (delivery : Delivery) : Option (Strand × Mapping) :=
  delivery.activated?.map fun activated => (.of earlier activated.1, activated.2)

/-- What the deliveries activate, in order. -/
def activations (deliveries : List Delivery) : List (Strand × Mapping) :=
  (precededBy [] deliveries).filterMap fun place => place.2.activation? place.1

/-- What the deliveries search the rules for, in order. -/
def searches (deliveries : List Delivery) : List (Strand × Mapping) :=
  ((precededBy [] deliveries).filter fun place =>
    (place.2.outcome (Paths.empty.after place.1)).effects.scans ≠ 0).filterMap fun place =>
      place.2.activation? place.1

variable (deliveries : List Delivery) (delivery : Delivery)

theorem activations_concat :
    activations (deliveries ++ [delivery]) =
      activations deliveries ++ (delivery.activation? deliveries).toList := by
  unfold activations
  rw [precededBy_concat, List.filterMap_append, List.nil_append]
  simp only [List.filterMap_cons, List.filterMap_nil]
  cases delivery.activation? deliveries <;> rfl

theorem searches_concat :
    searches (deliveries ++ [delivery]) =
      searches deliveries ++
        if (delivery.outcome (Paths.empty.after deliveries)).effects.scans = 0 then []
        else (delivery.activation? deliveries).toList := by
  unfold searches
  rw [precededBy_concat, List.filter_append, List.filterMap_append, List.nil_append,
    List.filter_singleton]
  by_cases unsearched :
      (delivery.outcome (Paths.empty.after deliveries)).effects.scans = 0
  · simp [unsearched]
  · simp only [unsearched, ne_eq, not_false_eq_true, decide_true, cond_true, if_false,
      List.filterMap_cons, List.filterMap_nil]
    cases delivery.activation? deliveries <;> rfl

variable {deliveries delivery}

/-- Nothing is activated on a path before it begins. -/
theorem start_lt_of_mem_activations {strand : Strand} {mapping : Mapping}
    (activated : (strand, mapping) ∈ activations deliveries) :
    strand.start < deliveries.length := by
  obtain ⟨place, member, isActivation⟩ := List.mem_filterMap.mp activated
  obtain ⟨found, _, same⟩ := Option.map_eq_some_iff.mp isActivation
  obtain ⟨rfl, _⟩ := Prod.mk.inj same
  have shorter := (prefix_of_mem_precededBy member).length_le
  rw [List.length_append, List.length_singleton, List.nil_append] at shorter
  exact Nat.lt_of_lt_of_le (Nat.lt_succ_of_le Strand.start_of_le) shorter

theorem activation?_eq_some_iff {earlier : List Delivery} {name : String} {mapping : Mapping} :
    delivery.activation? earlier = some (.of earlier name, mapping) ↔
      delivery.activated? = some (name, mapping) := by
  unfold activation?
  rw [Option.map_eq_some_iff]
  constructor
  · rintro ⟨activated, isActivated, same⟩
    obtain ⟨samePath, sameMapping⟩ := Prod.mk.inj same
    rw [isActivated, ← sameMapping, ← show activated.1 = name from congrArg Strand.name samePath]
  · intro isActivated
    exact ⟨_, isActivated, rfl⟩

end Delivery

/-- A path knows the mappings that it inherits and those that are activated on it. -/
theorem Paths.isSome_cached_after (deliveries : List Delivery) (name : String)
    (mapping : Mapping) :
    (((empty.after deliveries).get name).cached mapping).isSome ↔
      (Strand.of deliveries name).Inherits deliveries mapping ∨
        (Strand.of deliveries name, mapping) ∈ Delivery.activations deliveries := by
  -- Taken from the last delivery back: it begins the path, or the path goes on as it was.
  induction deliveries using List.reverseRecOn with
  | nil => exact (or_iff_left List.not_mem_nil).symm
  | append_singleton deliveries delivery inductionHypothesis =>
      by_cases begins : delivery.begun? = some name
      · rw [Strand.of_concat_of_begun begins]
        have whole : (deliveries ++ [delivery]).take (deliveries.length + 1) =
            deliveries ++ [delivery] := List.take_of_length_le (Nat.le_of_eq List.length_append)
        have unused : (⟨name, deliveries.length + 1⟩, mapping) ∉
            Delivery.activations (deliveries ++ [delivery]) := by
          intro activated
          have early := Delivery.start_lt_of_mem_activations activated
          rw [List.length_append] at early
          exact Nat.lt_irrefl _ early
        rw [or_iff_left unused]
        unfold Strand.Inherits
        dsimp only
        rw [whole]
      · have allRecall := recall_empty.after deliveries
        rw [Strand.of_concat_of_not_begun begins, after_concat,
          allRecall.isSome_cached_outcome begins, inductionHypothesis,
          Strand.inherits_append Strand.start_of_le, Delivery.activations_concat, List.mem_append,
          Option.mem_toList, Delivery.activation?_eq_some_iff, or_assoc]

namespace Delivery

variable {deliveries : List Delivery} {delivery : Delivery}

theorem scans_of_no_activation (idle : delivery.activation? deliveries = none) :
    (delivery.outcome (Paths.empty.after deliveries)).effects.scans = 0 := by
  have allRecall := Paths.recall_empty.after deliveries
  rw [allRecall.scans_outcome, Option.map_eq_none_iff.mp idle]
  rfl

/-- A delivery searches once for what is new on its path, and not at all for what is not. -/
theorem scans_of_activation {activation : Strand × Mapping}
    (recorded : delivery.activation? deliveries = some activation) :
    (delivery.outcome (Paths.empty.after deliveries)).effects.scans =
      if activation.1.Inherits deliveries activation.2 ∨ activation ∈ activations deliveries
      then 0 else 1 := by
  obtain ⟨⟨name, mapping⟩, isActivated, rfl⟩ := Option.map_eq_some_iff.mp recorded
  have allRecall := Paths.recall_empty.after deliveries
  have known := Paths.isSome_cached_after deliveries name mapping
  rw [allRecall.scans_outcome, isActivated]
  dsimp only [Option.elim_some]
  cases held : ((Paths.empty.after deliveries).get name).cached mapping with
  | none =>
      rw [held] at known
      rw [if_pos rfl, if_neg fun old => Bool.false_ne_true (known.mpr old)]
  | some reached =>
      rw [held] at known
      rw [if_neg (Option.some_ne_none reached), if_pos (known.mp rfl)]

/-- What is searched for is what is activated on a path that does not inherit it. -/
theorem mem_searches_iff {strand : Strand} {mapping : Mapping} :
    (strand, mapping) ∈ searches deliveries ↔
      (strand, mapping) ∈ activations deliveries ∧ ¬ strand.Inherits deliveries mapping := by
  induction deliveries using List.reverseRecOn with
  | nil => simp [searches, activations, precededBy]
  | append_singleton deliveries delivery inductionHypothesis =>
      rw [searches_concat, activations_concat, List.mem_append, List.mem_append,
        inductionHypothesis, Option.mem_toList]
      by_cases isLast : delivery.activation? deliveries = some (strand, mapping)
      · have begun : strand.start ≤ deliveries.length := by
          obtain ⟨found, _, same⟩ := Option.map_eq_some_iff.mp isLast
          obtain ⟨rfl, _⟩ := Prod.mk.inj same
          exact Strand.start_of_le
        rw [scans_of_activation isLast, isLast, Strand.inherits_append begun]
        split
        case isTrue old =>
          simp only [if_true, List.not_mem_nil, or_false, or_true, true_and,
            and_iff_right_iff_imp]
          exact old.resolve_left
        case isFalse new =>
          simp only [Nat.one_ne_zero, if_false, Option.toList_some, List.mem_singleton, or_true,
            true_and, true_iff]
          exact fun inherits => new (Or.inl inherits)
      · have absent : (strand, mapping) ∉
            if (delivery.outcome (Paths.empty.after deliveries)).effects.scans = 0 then []
            else (delivery.activation? deliveries).toList := by
          split
          · exact List.not_mem_nil
          · rw [Option.mem_toList]
            exact isLast
        rw [or_iff_left absent, or_iff_left isLast]
        refine and_congr_right fun activated => not_congr ?_
        exact (Strand.inherits_append
          (Nat.le_of_lt (start_lt_of_mem_activations activated)) [delivery] mapping).symm

/-- No path searches for a mapping twice. -/
theorem nodup_searches (deliveries : List Delivery) : (searches deliveries).Nodup := by
  induction deliveries using List.reverseRecOn with
  | nil => exact List.nodup_nil
  | append_singleton deliveries delivery inductionHypothesis =>
      rw [searches_concat]
      split
      case isTrue => rwa [List.append_nil]
      case isFalse searched =>
        cases recorded : delivery.activation? deliveries with
        | none => exact absurd (scans_of_no_activation recorded) searched
        | some activation =>
            have absent : activation ∉ searches deliveries := by
              intro member
              apply searched
              rw [scans_of_activation recorded, if_pos (Or.inr (mem_searches_iff.mp member).1)]
            rw [Option.toList_some, ← List.concat_eq_append]
            exact inductionHypothesis.concat absent

end Delivery

end InstrumentScope
