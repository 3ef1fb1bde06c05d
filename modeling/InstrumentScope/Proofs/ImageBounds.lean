import InstrumentScope.Proofs.Causes
import InstrumentScope.Proofs.Decision

/-!
Contract: instrumentation stays in the image that a rule was compiled for.

Two sizes bound an address: that of the mapping it is asked of, and that of the
image which the rule for the mapping was compiled for. A question is judged by
the second alone, and that the two differ is a complaint of its own. So nothing
is instrumented below the start of a mapping, and nothing past its end unless
the mapping is smaller than the image.

Owns:
- the addresses within a size from the start of a mapping;
- what lies past the image of a rule and what past the end of a mapping, for any two sizes;
- the number of complaints after a question.

Does not own:
- which units of its image a rule selects (`Compilation`);
- which modules a run complains about (`Complaints`, `Causes`).
-/

namespace InstrumentScope

namespace Mapping

/-- The address is one of the `size` addresses from the start of the mapping on. -/
def Within (mapping : Mapping) (size : UInt64) (pc : Address) : Prop :=
  mapping.loadBase ≤ pc ∧ pc - mapping.loadBase < size

variable {mapping : Mapping} {pc : Address}

theorem contains_iff_within : mapping.contains pc = true ↔ mapping.Within mapping.size pc := by
  unfold contains offset? Word.sub? Within
  split
  case isTrue above => simp [above]
  case isFalse below => simp [below]

theorem Within.mono {size larger : UInt64} (within : mapping.Within size pc)
    (enlarged : size ≤ larger) : mapping.Within larger pc :=
  ⟨within.1, UInt64.lt_of_lt_of_le within.2 enlarged⟩

/-- Past the end of a mapping that is not too small for an image is past the image. -/
theorem not_within_of_not_contains {image : Image} (outside : mapping.contains pc = false)
    (enough : image.size ≤ mapping.size) : ¬ mapping.Within image.size pc := by
  intro within
  have inside : mapping.contains pc = true := contains_iff_within.mpr (within.mono enough)
  rw [outside] at inside
  contradiction

end Mapping

variable {policy : Policy} {path : Path} {mapping : Mapping} {pc : Address}

/-- A rule selects nothing but units of its image. -/
theorem Rule.within_of_selects {rule : Rule} (selects : rule.selects mapping pc = true) :
    mapping.Within rule.image.size pc := by
  rcases selects_eq_true_iff.mp selects with ⟨above, selected⟩
  refine ⟨above, UInt64.not_le.mp ?_⟩
  intro beyond
  rw [lookup_eq_none_iff.mpr beyond] at selected
  contradiction

namespace RuleSet

variable {rules : RuleSet}

theorem within_of_decides (decided : rules.decides mapping pc = true) :
    ∃ rule, (rules.resolve mapping).bind rules.get? = some rule ∧
      mapping.Within rule.image.size pc := by
  rcases decides_eq_true_iff.mp decided with ⟨rule, governed, selects⟩
  exact ⟨rule, governed, Rule.within_of_selects selects⟩

/-- Outside the image of the rule that governs a mapping nothing is decided to be instrumented. -/
theorem decides_of_not_within {rule : Rule}
    (governed : (rules.resolve mapping).bind rules.get? = some rule)
    (outside : ¬ mapping.Within rule.image.size pc) : rules.decides mapping pc = false := by
  cases decided : rules.decides mapping pc with
  | false => rfl
  | true =>
      rcases within_of_decides decided with ⟨found, isFound, within⟩
      rw [governed, Option.some.injEq] at isFound
      exact absurd (isFound ▸ within) outside

/-- The cause for a complaint about an address is that the image does not reach it. -/
theorem liesOutside_iff_not_within {rule : Rule}
    (governed : (rules.resolve mapping).bind rules.get? = some rule) :
    rules.LiesOutside mapping pc ↔ ¬ mapping.Within rule.image.size pc := by
  rw [liesOutside_iff, governed]
  simp only [Option.mem_some_iff, exists_eq_left', Mapping.Within, not_and_or, UInt64.not_le,
    UInt64.not_lt]

end RuleSet

namespace Monitor

variable (monitor : Monitor)

theorem outOfBoundsReports_checkSize (rule : Rule) :
    (monitor.checkSize mapping rule).monitor.outOfBoundsReports = monitor.outOfBoundsReports := by
  unfold outOfBoundsReports
  rw [(monitor.complaints_checkSize mapping rule).1]

/-- A module is counted the first time only. -/
theorem outOfBoundsReports_reportOutOfBounds (options : Options) (mapping : Mapping)
    (pc : Address) :
    (monitor.reportOutOfBounds options mapping pc).monitor.outOfBoundsReports =
      monitor.outOfBoundsReports + if mapping.module ∈ monitor.outOfBounds then 0 else 1 := by
  unfold reportOutOfBounds
  split
  case isTrue known => rw [if_pos (Std.ExtTreeSet.contains_iff_mem.mp known), Nat.add_zero]
  case isFalse fresh =>
    have absent : mapping.module ∉ monitor.outOfBounds :=
      fun known => fresh (Std.ExtTreeSet.contains_iff_mem.mpr known)
    show (monitor.outOfBounds.insert mapping.module).size = _
    rw [if_neg absent, Std.ExtTreeSet.size_insert, if_neg fresh]
    rfl

/-- A question about an address outside is counted unless the module has been counted before. -/
theorem outOfBoundsReports_needed (coherent : path.Coherent policy.rules)
    (outside : policy.rules.LiesOutside mapping pc) :
    (monitor.needed policy path mapping pc).monitor.outOfBoundsReports =
      monitor.outOfBoundsReports + if mapping.module ∈ monitor.outOfBounds then 0 else 1 := by
  rcases outside with ⟨rule, governed, unanswered⟩
  have resolved : (path.activate policy.rules mapping).rule = policy.rules.resolve mapping :=
    (Path.activate_of_coherent coherent mapping).1
  unfold needed
  dsimp only
  rw [resolved, Option.mem_def.mp governed]
  dsimp only
  rw [unanswered]
  dsimp only
  rw [outOfBoundsReports_reportOutOfBounds, outOfBoundsReports_checkSize,
    (monitor.complaints_checkSize mapping rule).1]

end Monitor

/-- What a path over the rules is told to instrument, by a question about any mapping or for its
current one, lies in the image that the governing rule was compiled for, and so in the mapping,
unless that is smaller. A question about a governed mapping and an address outside the image, or
outside a mapping that is not smaller, is denied, and its module is counted as one that was asked
about outside, once. If the sizes differ, in whichever direction, a question complains of that. -/
theorem instrumentation_stays_in_compiled_image (coherent : path.Coherent policy.rules)
    (monitor : Monitor) (mapping : Mapping) (pc : Address) :
    let asked := monitor.needed policy path mapping pc
    let governing := (policy.rules.resolve mapping).bind policy.rules.get?
    (asked.answer = true ∨
        path.current = some mapping ∧ path.isInstrumented policy.rules pc = true →
      ∃ rule, governing = some rule ∧ mapping.Within rule.image.size pc ∧
        (rule.image.size ≤ mapping.size → mapping.contains pc = true)) ∧
    ∀ rule, governing = some rule →
      (¬ mapping.Within rule.image.size pc ∨
          mapping.contains pc = false ∧ rule.image.size ≤ mapping.size →
        asked.answer = false ∧ mapping.module ∈ asked.monitor.outOfBounds ∧
          asked.monitor.outOfBoundsReports =
            monitor.outOfBoundsReports + if mapping.module ∈ monitor.outOfBounds then 0 else 1) ∧
      (mapping.size ≠ rule.image.size → mapping.module ∈ asked.monitor.sizeMismatches) := by
  intro asked governing
  have answered : asked.answer = policy.rules.decides mapping pc :=
    Monitor.answer_needed coherent mapping pc
  have complained := monitor.complaints_needed coherent mapping pc mapping.module
  constructor
  · intro instrumented
    have decided : policy.rules.decides mapping pc = true := by
      rcases instrumented with answer | ⟨isCurrent, answer⟩
      · exact answered.symm.trans answer
      · rw [Path.isInstrumented_of_coherent coherent, isCurrent] at answer
        exact answer
    rcases RuleSet.within_of_decides decided with ⟨rule, governs, within⟩
    refine ⟨rule, governs, within, ?_⟩
    intro enough
    exact Mapping.contains_iff_within.mpr (within.mono enough)
  · intro rule governs
    constructor
    · intro strays
      have outside : ¬ mapping.Within rule.image.size pc := by
        rcases strays with outside | ⟨uncontained, enough⟩
        · exact outside
        · exact Mapping.not_within_of_not_contains uncontained enough
      have lies : policy.rules.LiesOutside mapping pc :=
        (RuleSet.liesOutside_iff_not_within governs).mpr outside
      exact ⟨answered.trans (RuleSet.decides_of_not_within governs outside),
        complained.1.mpr (Or.inr ⟨lies, rfl⟩), monitor.outOfBoundsReports_needed coherent lies⟩
    · intro differs
      exact complained.2.mpr (Or.inr ⟨(RuleSet.mismatches_of_governed governs).mpr differs, rfl⟩)

/-- A mapping that is larger than the image: the second address lies in it, but past the image. -/
theorem instrumentation_stays_in_compiled_image_sample :
    let policy := Policy.ofRules (.ofSources Sample.sources) .standard
    let grown : Mapping := { Sample.mapping with size := 0x200 }
    let asked := Monitor.fresh.needed policy Sample.path grown 0x7150
    Sample.path.Coherent policy.rules ∧
      (Monitor.fresh.needed policy Sample.path grown 0x7008).answer = true ∧
      grown.contains 0x7008 = true ∧ grown.contains 0x7150 = true ∧
      asked.answer = false ∧ "app" ∈ asked.monitor.outOfBounds ∧
      asked.monitor.outOfBoundsReports = 1 ∧ "app" ∈ asked.monitor.sizeMismatches := by
  intro policy grown asked
  have coherent : Sample.path.Coherent policy.rules :=
    Path.coherent_of_reachable Sample.path_reachable
  have needed : (Monitor.fresh.needed policy Sample.path grown 0x7008).answer = true := by
    decide +kernel
  have sizes : ∀ rule, (policy.rules.resolve grown).bind policy.rules.get? = some rule →
      rule.image.size = 0x100 := by
    have size : ((policy.rules.resolve grown).bind policy.rules.get?).map (·.image.size) =
        some 0x100 := by decide +kernel
    intro rule governs
    rw [governs] at size
    exact Option.some.inj size
  rcases instrumentation_stays_in_compiled_image coherent .fresh grown 0x7008 with ⟨bounded, _⟩
  rcases bounded (Or.inl needed) with ⟨rule, governs, _, contained⟩
  have image := sizes rule governs
  rcases instrumentation_stays_in_compiled_image coherent .fresh grown 0x7150 with ⟨_, judged⟩
  rcases judged rule governs with ⟨denied, mismatched⟩
  have outside : ¬ grown.Within rule.image.size 0x7150 := by
    rw [image]
    exact fun within => absurd within.2 (by decide)
  rcases denied (Or.inl outside) with ⟨answer, reported, counted⟩
  refine ⟨coherent, needed, contained ?_, by decide, answer, reported, ?_, mismatched ?_⟩
  · rw [image]
    decide
  · have uncounted : grown.module ∉ Monitor.fresh.outOfBounds := Std.ExtTreeSet.not_mem_empty
    rw [counted, if_neg uncounted]
    rfl
  · rw [image]
    decide

/-- In a mapping that is smaller than the image, code is instrumented that the mapping does not
hold, and nothing is counted as asked about outside. -/
theorem shrunk_mapping_judged_past_its_end :
    let policy := Policy.ofRules
      (.ofSources [⟨"whole", "app", .any, ⟨0x1000, 0x100⟩, [], []⟩]) .standard
    let shrunk : Mapping := ⟨"app", "pid-1", 0x1000, 0x1000, 0x4⟩
    let path := (Path.fresh.enter policy.rules shrunk).path
    let asked := Monitor.fresh.needed policy path shrunk 0x1005
    path.Reachable policy.rules ∧ path.current = some shrunk ∧
      shrunk.contains 0x1005 = false ∧
      asked.answer = true ∧ path.isInstrumented policy.rules 0x1005 = true ∧
      "app" ∉ asked.monitor.outOfBounds ∧ asked.monitor.outOfBoundsReports = 0 ∧
      "app" ∈ asked.monitor.sizeMismatches := by
  intro policy shrunk path asked
  refine ⟨.enter shrunk .fresh, rfl, ?_⟩
  decide +kernel

end InstrumentScope
