import InstrumentScope.Proofs.Decision
import InstrumentScope.Proofs.Searches
import InstrumentScope.Session
import Mathlib.Algebra.BigOperators.Group.Finset.Basic

/-!
Contract: the searches that a session counts are those of its paths, each for a
mapping that the path comes to know by itself.

Owns:
- the searches of a run, added up path by path;
- the searches that a session counts.

Does not own:
- which mappings a path searches for (`Searches`).
-/

namespace InstrumentScope

namespace Delivery

/-- The paths that something is activated on. -/
def strands (deliveries : List Delivery) : Finset Strand :=
  ((activations deliveries).map Prod.fst).toFinset

/-- The mappings that are activated on the path, other than those that it inherits. -/
def resolvedOn (deliveries : List Delivery) (strand : Strand) : Finset Mapping :=
  (((activations deliveries).filter fun activation =>
    activation.1 = strand ∧ ¬ strand.Inherits deliveries activation.2).map Prod.snd).toFinset

variable {deliveries : List Delivery}

/-- Each search of the rules is for one mapping on one path. -/
theorem length_searches (deliveries : List Delivery) :
    (searches deliveries).length = Paths.empty.scans deliveries := by
  induction deliveries using List.reverseRecOn with
  | nil => rfl
  | append_singleton deliveries delivery inductionHypothesis =>
      rw [searches_concat, List.length_append, inductionHypothesis, Paths.scans_concat]
      congr 1
      cases recorded : delivery.activation? deliveries with
      | none =>
          rw [scans_of_no_activation recorded]
          rfl
      | some activation =>
          rw [scans_of_activation recorded]
          split <;> rfl

theorem mem_resolvedOn_iff {strand : Strand} {mapping : Mapping} :
    mapping ∈ resolvedOn deliveries strand ↔
      (strand, mapping) ∈ activations deliveries ∧ ¬ strand.Inherits deliveries mapping := by
  unfold resolvedOn
  simp only [List.mem_toFinset, List.mem_map, List.mem_filter, decide_eq_true_eq]
  constructor
  · rintro ⟨_, ⟨activated, rfl, new⟩, rfl⟩
    exact ⟨activated, new⟩
  · rintro ⟨activated, new⟩
    exact ⟨(strand, mapping), ⟨activated, rfl, new⟩, rfl⟩

/-- What is searched for on one path are the mappings resolved on it, each once. -/
theorem card_searches_of_strand (deliveries : List Delivery) (strand : Strand) :
    ((searches deliveries).toFinset.filter fun search => search.1 = strand).card =
      (resolvedOn deliveries strand).card := by
  have listed : ((searches deliveries).toFinset.filter fun search => search.1 = strand) =
      (resolvedOn deliveries strand).map ⟨Prod.mk strand, Prod.mk_right_injective strand⟩ := by
    ext ⟨other, mapping⟩
    simp only [Finset.mem_filter, List.mem_toFinset, mem_searches_iff, Finset.mem_map,
      mem_resolvedOn_iff, Function.Embedding.coeFn_mk, Prod.mk.injEq, exists_eq_right_right]
    constructor
    · rintro ⟨found, rfl⟩
      exact ⟨found, rfl⟩
    · rintro ⟨found, rfl⟩
      exact ⟨found, rfl⟩
  rw [listed, Finset.card_map]

/-- The searches of all paths together. -/
theorem scans_eq_sum (deliveries : List Delivery) :
    Paths.empty.scans deliveries =
      ∑ strand ∈ strands deliveries, (resolvedOn deliveries strand).card := by
  have onStrands : ∀ search ∈ (searches deliveries).toFinset, search.1 ∈ strands deliveries := by
    intro search member
    have activated := (mem_searches_iff.mp (List.mem_toFinset.mp member)).1
    exact List.mem_toFinset.mpr (List.mem_map_of_mem activated)
  calc Paths.empty.scans deliveries
      = (searches deliveries).toFinset.card := by
        rw [List.toFinset_card_of_nodup (nodup_searches deliveries), length_searches]
    _ = ∑ strand ∈ strands deliveries,
          ((searches deliveries).toFinset.filter fun search => search.1 = strand).card :=
        Finset.card_eq_sum_card_fiberwise onStrands
    _ = ∑ strand ∈ strands deliveries, (resolvedOn deliveries strand).card :=
        Finset.sum_congr rfl fun strand _ => card_searches_of_strand deliveries strand

end Delivery

namespace Session

/-- What a session delivers when it performs events: to its monitor under the policy in force, or,
before there is one, to paths alone under the rules gathered so far. -/
def deliveries (session : Session) (events : List Event) : List Delivery :=
  match session.live with
  | some live => Fleet.deliveries live.policy ⟨live.monitor, session.paths⟩ events
  | none => events.map (⟨.ofRules session.gathered .standard, .fresh, ·⟩)

theorem performGathering_deliveries {session later : Session} {events : List Event}
    {answers : List Answer} (policy : Policy) (monitor : Monitor)
    (performed : session.performGathering events = some (answers, later))
    (gathered : policy.rules = session.gathered) :
    later.live = session.live ∧
      later.paths = session.paths.after (events.map (⟨policy, monitor, ·⟩)) ∧
      later.gatheredScans =
        session.gatheredScans + session.paths.scans (events.map (⟨policy, monitor, ·⟩)) := by
  induction events generalizing session answers with
  | nil =>
      obtain ⟨_, rfl⟩ := Prod.mk.inj (Option.some.inj performed)
      exact ⟨rfl, rfl, rfl⟩
  | cons event rest inductionHypothesis =>
      cases event with
      | onPaths event =>
          obtain ⟨⟨_, _⟩, performedRest, same⟩ := Option.bind_eq_some_iff.mp performed
          obtain ⟨_, rfl⟩ := Prod.mk.inj (Option.some.inj same)
          obtain ⟨sameLive, samePaths, sameScans⟩ := inductionHypothesis performedRest gathered
          obtain ⟨eventPaths, eventScans⟩ :=
            (Delivery.mk policy monitor (.onPaths event)).outcome_of_pathEvent session.paths rfl
          dsimp only at eventPaths eventScans
          rw [gathered] at eventPaths eventScans
          refine ⟨sameLive, ?_, ?_⟩
          · rw [samePaths, List.map_cons, Paths.after_cons, eventPaths]
          · rw [sameScans, List.map_cons, Paths.scans, eventPaths, eventScans, Nat.add_assoc]
      | _ => contradiction

theorem step_perform_of_live {session : Session} {live : Live} (isLive : session.live = some live)
    (events : List Event) :
    session.step (.perform events) = some (session.performLive live events) := by
  unfold step
  rw [isLive]

theorem step_perform_of_gathering {session : Session} (gathers : session.live = none)
    (events : List Event) :
    session.step (.perform events) = (session.performGathering events).map fun outcome =>
      .quiet (.answers outcome.1) outcome.2 := by
  unfold step
  rw [gathers]

/-- A session counts the searches of what it delivers. -/
theorem perform_deliveries {session : Session} {events : List Event} {report : Report}
    (performed : session.step (.perform events) = some report) :
    report.session.paths = session.paths.after (session.deliveries events) ∧
      report.session.scans = session.scans + session.paths.scans (session.deliveries events) := by
  unfold deliveries scans
  cases isLive : session.live with
  | some live =>
      rw [step_perform_of_live isLive] at performed
      obtain rfl := Option.some.inj performed
      obtain ⟨samePaths, sameScans⟩ :=
        Fleet.run_deliveries live.policy ⟨live.monitor, session.paths⟩ events
      exact ⟨samePaths, congrArg (live.scans + ·) sameScans⟩
  | none =>
      rw [step_perform_of_gathering isLive] at performed
      obtain ⟨outcome, gathered, rfl⟩ := Option.map_eq_some_iff.mp performed
      obtain ⟨sameLive, samePaths, sameScans⟩ := performGathering_deliveries
        (.ofRules session.gathered .standard) .fresh gathered rfl
      refine ⟨samePaths, ?_⟩
      dsimp only [Report.quiet]
      rw [sameLive, isLive]
      exact sameScans

end Session

/-- Each event searches the rules as often as the path that it goes on from comes to know a mapping:
once if it activates one that the path does not know, and not at all otherwise. So no path searches
for a mapping twice, and the searches of a run are, over all its paths, the mappings activated on
each that it does not inherit. A session counts these searches, and going live adds none. -/
theorem mappings_are_searched_once (deliveries : List Delivery) :
    (∀ delivery : Delivery,
      let paths := Paths.empty.after deliveries
      let outcome := delivery.outcome paths
      (outcome.effects.scans = delivery.activated?.elim 0 fun activated =>
        if (paths.get activated.1).cached activated.2 = none then 1 else 0) ∧
      ∀ name, delivery.event.source? = some name →
        (outcome.fleet.paths.get name).knownMappings =
          (paths.get name).knownMappings + outcome.effects.scans) ∧
    (Delivery.searches deliveries).Nodup ∧
    (∀ strand mapping, (strand, mapping) ∈ Delivery.searches deliveries ↔
      (strand, mapping) ∈ Delivery.activations deliveries ∧
        ¬ strand.Inherits deliveries mapping) ∧
    Paths.empty.scans deliveries =
      ∑ strand ∈ Delivery.strands deliveries, (Delivery.resolvedOn deliveries strand).card ∧
    (∀ session events report, Session.step session (.perform events) = some report →
      report.session.paths = session.paths.after (session.deliveries events) ∧
      report.session.scans =
        session.scans + session.paths.scans (session.deliveries events)) ∧
    ∀ session options, ∃ report, Session.step session (.goLive options) = some report ∧
      report.session.scans = session.gatheredScans := by
  have allRecall := Paths.recall_empty.after deliveries
  refine ⟨?_, Delivery.nodup_searches deliveries, ?_, Delivery.scans_eq_sum deliveries, ?_, ?_⟩
  · intro delivery
    exact ⟨allRecall.scans_outcome delivery, fun _ goesOn => allRecall.knownMappings_outcome goesOn⟩
  · exact fun _ _ => Delivery.mem_searches_iff
  · exact fun _ _ _ performed => Session.perform_deliveries performed
  · exact fun _ _ => ⟨_, rfl, rfl⟩

namespace Sample

/-- A path that is told of its mapping twice, is copied, and whose copy then moves elsewhere. -/
def deliveries : List Delivery :=
  Fleet.deliveries (.ofRules (.ofSources sources) .standard) .fresh [
    .needed "origin" mapping 0x7000,
    .blockStart "origin" (some mapping) ⟨1⟩ 0x7000,
    .onPaths (.fork "origin" "copy"),
    .onPaths (.activate "copy" mapping),
    .transition "copy" (some mapping) (some { mapping with context := "pid-2" }),
    .execute "copy" 0x7000]

end Sample

theorem mappings_are_searched_once_sample :
    Paths.empty.scans Sample.deliveries = 2 ∧
      Delivery.strands Sample.deliveries = {⟨"origin", 0⟩, ⟨"copy", 3⟩} := by
  obtain ⟨_, _, _, total, _⟩ := mappings_are_searched_once Sample.deliveries
  rw [total]
  decide +kernel

end InstrumentScope
