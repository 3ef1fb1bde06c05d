import InstrumentScope.Proofs.PathKnowledge
import InstrumentScope.Proofs.Registration

/-!
Contract: the run-time decision, from the sources that were registered.

Between the spans of a user and the answer for an address lie placement,
painting, two tables, the memory of a path and the load address. None of them
shows: the answer is what the governing source says about the offset.

Owns:
- the decision of a list of sources;
- its agreement with every way of asking a path.
-/

namespace InstrumentScope

/-- Of the registered sources the one that governs the mapping asks for the code at `pc`, which
lies in its image. -/
def RuleSource.Decides (registered : List RuleSource) (mapping : Mapping) (pc : Address) : Prop :=
  ∃ source ∈ mapping.governing? RuleSource.module RuleSource.context registered,
    mapping.loadBase ≤ pc ∧ pc - mapping.loadBase < source.image.size ∧
    source.Selects (pc - mapping.loadBase)

instance (registered : List RuleSource) (mapping : Mapping) (pc : Address) :
    Decidable (RuleSource.Decides registered mapping pc) := by
  unfold RuleSource.Decides
  infer_instance

/-- A set decides what the sources decide that it holds. -/
theorem RuleSet.decides_of_holds {set : RuleSet} {kept : List RuleSource} (holds : set.Holds kept)
    (mapping : Mapping) (pc : Address) :
    set.decides mapping pc = true ↔ RuleSource.Decides kept mapping pc := by
  rw [decides_eq_true_iff, get_resolve holds.wellFormed, holds.rules_eq,
    Mapping.governing?_map]
  constructor
  · intro ruled
    rcases ruled with ⟨rule, found, selects⟩
    obtain ⟨source, governs, rfl⟩ := Option.map_eq_some_iff.mp found
    have compilable := holds.compilable source (Mapping.governing?_eq_some governs).1
    obtain ⟨above, found⟩ := Rule.selects_eq_true_iff.mp selects
    obtain ⟨inside, asked⟩ := (RuleSource.lookup_rule compilable _).mp found
    exact ⟨source, governs, above, inside, asked⟩
  · intro decided
    rcases decided with ⟨source, governs, above, inside, asked⟩
    have compilable := holds.compilable source (Mapping.governing?_eq_some governs).1
    have found := (RuleSource.lookup_rule compilable _).mpr ⟨inside, asked⟩
    exact ⟨source.rule, Option.map_eq_some_iff.mpr ⟨source, governs, rfl⟩,
      Rule.selects_eq_true_iff.mpr ⟨above, found⟩⟩

theorem Monitor.execute_eq_enable_iff {policy : Policy} {path : Path} {pc : Address} :
    execute policy path pc = .enable ↔ path.isInstrumented policy.rules pc = true := by
  unfold execute
  cases path.isInstrumented policy.rules pc <;> simp [Signal.toward]

/-- However a path got where it is, and whichever monitor is asked, code of a mapping needs
instrumentation exactly if the registered sources decide so, and code of the path's current mapping
is instrumented, or enabled when it runs, exactly if they decide so for that mapping. -/
theorem decision_follows_sources (sources : List RuleSource) (options : Options)
    (monitor : Monitor) {path : Path} (reachable : path.Reachable (.ofSources sources)) :
    let policy := Policy.ofRules (.ofSources sources) options
    let registered := RuleSource.registered sources
    (∀ mapping pc, (monitor.needed policy path mapping pc).answer = true ↔
      RuleSource.Decides registered mapping pc) ∧
    (∀ pc, path.isInstrumented policy.rules pc = true ↔
      ∃ mapping, path.current = some mapping ∧ RuleSource.Decides registered mapping pc) ∧
    (∀ pc, Monitor.execute policy path pc = .enable ↔
      ∃ mapping, path.current = some mapping ∧ RuleSource.Decides registered mapping pc) := by
  intro policy registered
  have holds : policy.rules.Holds registered := RuleSet.holds_ofSources sources
  have coherent : path.Coherent policy.rules := Path.coherent_of_reachable reachable
  have current : ∀ pc, path.isInstrumented policy.rules pc = true ↔
      ∃ mapping, path.current = some mapping ∧ RuleSource.Decides registered mapping pc := by
    intro pc
    rw [Path.isInstrumented_of_coherent coherent, Option.any_eq_true]
    simp only [RuleSet.decides_of_holds holds]
  refine ⟨?_, current, ?_⟩
  · intro mapping pc
    rw [Monitor.answer_needed coherent, RuleSet.decides_of_holds holds]
  · intro pc
    rw [Monitor.execute_eq_enable_iff]
    exact current pc

namespace Sample

/-- A source that does not compile, one for every context, one for a single context, and one whose
name is taken by then. -/
def sources : List RuleSource := [
  ⟨"inverted", "app", .any, ⟨0x1000, 0x100⟩, [⟨0x20, 0x10⟩], []⟩,
  ⟨"whole", "app", .any, ⟨0x1000, 0x100⟩, [], []⟩,
  ⟨"part", "app", .named "pid-1", ⟨0x1000, 0x100⟩, [⟨0x0, 0x40⟩, ⟨0x20, 0x80⟩], [⟨0x10, 0x18⟩]⟩,
  ⟨"part", "app", .named "pid-1", ⟨0x1000, 0x100⟩, [], []⟩]

/-- The module of the sources, moved away from its link address. -/
def mapping : Mapping :=
  ⟨"app", "pid-1", 0x1000, 0x7000, 0x100⟩

/-- A path that entered the mapping after it had been elsewhere in the module. -/
def path : Path :=
  ((Path.fresh.activate (.ofSources sources) { mapping with context := "pid-2" }).path.enter
    (.ofSources sources) mapping).path

theorem path_reachable : path.Reachable (.ofSources sources) :=
  .enter mapping (.activate { mapping with context := "pid-2" } .fresh)

end Sample

theorem decision_follows_sources_sample :
    Sample.path.Reachable (.ofSources Sample.sources) ∧
      (Monitor.fresh.needed (.ofRules (.ofSources Sample.sources) .standard) Sample.path
        Sample.mapping 0x7008).answer = true ∧
      Monitor.execute (.ofRules (.ofSources Sample.sources) .standard) Sample.path 0x7010 ≠
        .enable := by
  obtain ⟨needed, _, executed⟩ :=
    decision_follows_sources Sample.sources .standard .fresh Sample.path_reachable
  refine ⟨Sample.path_reachable, (needed Sample.mapping 0x7008).mpr (by decide), ?_⟩
  intro enabled
  obtain ⟨mapping, isCurrent, decided⟩ := (executed 0x7010).mp enabled
  have same : Sample.mapping = mapping := Option.some.inj isCurrent
  subst same
  exact absurd decided (by decide)

end InstrumentScope
