import InstrumentScope.Proofs.PathKnowledge
import InstrumentScope.Proofs.Resolution

/-!
Contract: code is judged by the address that it was linked at.

A user thinks of spans of linked addresses, while a decision is taken at a
run-time address through the distance to the load address. Both count from a
base, and in an image that fits no unit is too far from either. So the two agree
for every load address, up to the top of the address space, and the same code
loaded elsewhere is judged alike.

Owns:
- the linked address of a run-time address, in terms of natural numbers;
- the linked addresses that placed spans ask for, and their agreement with the
  units that a rule selects.
-/

namespace InstrumentScope

namespace Image

/-- Placed spans ask for the code of the image that was linked at `address`: some span to include
contains it, or none is given at all, and no span to exclude does. -/
def AsksFor (image : Image) (included excluded : List AddressSpan) (address : Address) : Prop :=
  (image.base ≤ address ∧ address - image.base < image.size) ∧
    (included = [] ∨ ∃ span ∈ included, span.Contains address) ∧
    ¬ ∃ span ∈ excluded, span.Contains address

/-- Every unit of an image that fits has an address. -/
theorem add?_base_of_inside {image : Image} (fits : image.Fits) {offset : UInt64}
    (inside : offset < image.size) :
    Word.add? image.base offset = some (image.base + offset) := by
  rw [UInt64.lt_iff_toNat_lt] at inside
  unfold Fits at fits
  exact if_pos (by omega)

/-- An address lies in the image exactly if its distance from the base is that of a unit. -/
theorem inside_iff {image : Image} {offset : UInt64} {address : Address}
    (linked : Word.add? image.base offset = some address) :
    image.base ≤ address ∧ address - image.base < image.size ↔ offset < image.size := by
  rw [Word.add?_eq_some_iff] at linked
  have above : image.base ≤ address := by
    rw [UInt64.le_iff_toNat_le]
    omega
  rw [and_iff_right above, UInt64.lt_iff_toNat_lt, UInt64.lt_iff_toNat_lt,
    UInt64.toNat_sub_of_le _ _ above]
  omega

end Image

/-- A span that starts in the image or past it covers the units whose addresses it contains. -/
theorem AddressSpan.covers_iff_contains {span : AddressSpan} {base address : Address}
    {unit : UInt64} (above : base ≤ span.start) (linked : Word.add? base unit = some address) :
    span.Covers base unit ↔ span.Contains address := by
  rw [Word.add?_eq_some_iff] at linked
  unfold Covers Contains
  rw [and_iff_right above, linked, UInt64.le_iff_toNat_le, UInt64.lt_iff_toNat_lt]

namespace OffsetSpan

theorem base_le_start_rebase {image : Image} {span : OffsetSpan}
    (placeable : span.Placeable image) : image.base ≤ (span.rebase image).start := by
  have start := (toNat_rebase placeable).1
  rw [UInt64.le_iff_toNat_le]
  omega

/-- Placed spans contain an address exactly if the spans, as written, contain its distance from the
base. -/
theorem exists_contains_rebase {image : Image} {spans : List OffsetSpan}
    (placeable : ∀ span ∈ spans, span.Placeable image) {offset : UInt64} {address : Address}
    (linked : Word.add? image.base offset = some address) :
    (∃ placed ∈ spans.map (rebase image), placed.Contains address) ↔
      ∃ span ∈ spans, span.Contains offset := by
  rw [← exists_covers_rebase placeable]
  apply exists_congr
  intro placed
  apply and_congr_right
  intro member
  rcases List.mem_map.mp member with ⟨span, inSpans, rfl⟩
  have above := base_le_start_rebase (placeable span inSpans)
  exact (AddressSpan.covers_iff_contains above linked).symm

end OffsetSpan

namespace Mapping

/-- Run-time and linked addresses are equally far from their bases. -/
theorem native?_eq_some_iff {mapping : Mapping} {pc native : Address} :
    mapping.native? pc = some native ↔
      mapping.loadBase ≤ pc ∧ Word.add? mapping.base (pc - mapping.loadBase) = some native := by
  unfold native? offset? Word.sub?
  split
  case isTrue above => simp [above]
  case isFalse below => simp [below]

theorem toNat_native {mapping : Mapping} {pc native : Address}
    (linked : mapping.native? pc = some native) :
    native.toNat = mapping.base.toNat + (pc.toNat - mapping.loadBase.toNat) := by
  rw [native?_eq_some_iff, Word.add?_eq_some_iff] at linked
  rw [← linked.2, UInt64.toNat_sub_of_le _ _ linked.1]

/-- Code at the distance of a unit from the load address was linked inside the image. -/
theorem exists_native {mapping : Mapping} {image : Image} (fits : image.Fits)
    (sameBase : mapping.base = image.base) {pc : Address} (above : mapping.loadBase ≤ pc)
    (inside : pc - mapping.loadBase < image.size) :
    ∃ native, mapping.native? pc = some native ∧
      image.base ≤ native ∧ native - image.base < image.size := by
  have linked := Image.add?_base_of_inside fits inside
  refine ⟨_, ?_, (Image.inside_iff linked).mpr inside⟩
  rw [native?_eq_some_iff, sameBase]
  exact ⟨above, linked⟩

end Mapping

namespace RuleSource

variable {source : RuleSource} {mapping : Mapping}

/-- What a source selects by offset its placed spans ask for by address. -/
theorem selects_iff_asksFor (compilable : source.Compilable) {offset : UInt64} {address : Address}
    (linked : Word.add? source.image.base offset = some address) :
    offset < source.image.size ∧ source.Selects offset ↔
      source.image.AsksFor (source.included.map (OffsetSpan.rebase source.image))
        (source.excluded.map (OffsetSpan.rebase source.image)) address := by
  unfold Image.AsksFor Selects
  rw [Image.inside_iff linked, OffsetSpan.exists_contains_rebase compilable.2.1 linked,
    OffsetSpan.exists_contains_rebase compilable.2.2 linked, List.map_eq_nil_iff]

/-- The rule of a source selects the code at a run-time address exactly if the code has a linked
address that the placed spans ask for. -/
theorem selects_rule_iff (compilable : source.Compilable)
    (sameBase : mapping.base = source.image.base) (pc : Address) :
    source.rule.selects mapping pc = true ↔
      ∃ native, mapping.native? pc = some native ∧
        source.image.AsksFor (source.included.map (OffsetSpan.rebase source.image))
          (source.excluded.map (OffsetSpan.rebase source.image)) native := by
  rw [Rule.selects_eq_true_iff, lookup_rule compilable]
  simp only [Mapping.native?_eq_some_iff, sameBase]
  constructor
  · intro selected
    rcases selected with ⟨above, inside, asked⟩
    have linked := Image.add?_base_of_inside compilable.1 inside
    exact ⟨_, ⟨above, linked⟩, (selects_iff_asksFor compilable linked).mp ⟨inside, asked⟩⟩
  · intro asked
    rcases asked with ⟨native, ⟨above, linked⟩, asked⟩
    exact ⟨above, (selects_iff_asksFor compilable linked).mpr asked⟩

end RuleSource

/-- A mapping resolves to the same rule wherever it is loaded. -/
theorem RuleSet.resolve_moveTo (set : RuleSet) (mapping : Mapping) (loadBase : Address) :
    set.resolve (mapping.moveTo loadBase) = set.resolve mapping :=
  set.resolve_congr rfl rfl

/-- On a path over the rules, code of a governed mapping needs instrumentation exactly if it has a
linked address that the placed spans ask for. -/
theorem Monitor.answer_needed_iff_asksFor {policy : Policy} {path : Path} {source : RuleSource}
    {mapping : Mapping} (compilable : source.Compilable)
    (governs : (policy.rules.resolve mapping).bind policy.rules.get? = some source.rule)
    (sameBase : mapping.base = source.image.base) (reachable : path.Reachable policy.rules)
    (monitor : Monitor) (pc : Address) :
    (monitor.needed policy path mapping pc).answer = true ↔
      ∃ native, mapping.native? pc = some native ∧
        source.image.AsksFor (source.included.map (OffsetSpan.rebase source.image))
          (source.excluded.map (OffsetSpan.rebase source.image)) native := by
  rw [answer_needed (Path.coherent_of_reachable reachable), RuleSet.decides, governs,
    Option.any_some]
  exact RuleSource.selects_rule_iff compilable sameBase pc

/-- Let the rule that a source compiles to govern a mapping that was linked at the base of the
source's image. Every run-time address at the distance of a unit from the load address has a linked
address, which lies in the image, and the code there needs instrumentation exactly if the placed
spans say so for the linked address. So wherever the module is loaded, code with the same linked
address is judged alike. -/
theorem decisions_follow_native_addresses {policy : Policy} {source : RuleSource} {rule : Rule}
    {mapping : Mapping} {included excluded : List AddressSpan}
    (placedIncluded : source.image.place source.included = .ok included)
    (placedExcluded : source.image.place source.excluded = .ok excluded)
    (compiled : source.compile = .ok rule)
    (governs : (policy.rules.resolve mapping).bind policy.rules.get? = some rule)
    (sameBase : mapping.base = source.image.base) :
    (∀ pc, mapping.loadBase ≤ pc → pc - mapping.loadBase < source.image.size →
      ∃ native, mapping.native? pc = some native ∧
        native.toNat = mapping.base.toNat + (pc.toNat - mapping.loadBase.toNat) ∧
        source.image.base ≤ native ∧ native - source.image.base < source.image.size ∧
        ∀ (monitor : Monitor) (path : Path), path.Reachable policy.rules →
          ((monitor.needed policy path mapping pc).answer = true ↔
            (included = [] ∨ ∃ span ∈ included, span.Contains native) ∧
              ¬ ∃ span ∈ excluded, span.Contains native)) ∧
    ∀ loadBase pc otherPc : Address,
      (mapping.moveTo loadBase).native? otherPc = mapping.native? pc →
      ∀ (monitor otherMonitor : Monitor) (path otherPath : Path),
        path.Reachable policy.rules → otherPath.Reachable policy.rules →
          (otherMonitor.needed policy otherPath (mapping.moveTo loadBase) otherPc).answer =
            (monitor.needed policy path mapping pc).answer := by
  rcases RuleSource.compile_eq_ok_iff.mp compiled with ⟨compilable, isRule⟩
  have includedPlaced := (Image.place_eq_ok_iff.mp placedIncluded).2.2
  have excludedPlaced := (Image.place_eq_ok_iff.mp placedExcluded).2.2
  subst isRule includedPlaced excludedPlaced
  constructor
  · intro pc above inside
    rcases Mapping.exists_native compilable.1 sameBase above inside with
      ⟨native, isNative, inImage⟩
    refine ⟨native, isNative, Mapping.toNat_native isNative, inImage.1, inImage.2, ?_⟩
    intro monitor path reachable
    rw [Monitor.answer_needed_iff_asksFor compilable governs sameBase reachable, isNative]
    simp only [Option.some.injEq, exists_eq_left']
    exact and_iff_right inImage
  · intro loadBase pc otherPc sameNative monitor otherMonitor path otherPath reachable
      otherReachable
    have otherGoverns :
        (policy.rules.resolve (mapping.moveTo loadBase)).bind policy.rules.get? =
          some source.rule := by
      rw [RuleSet.resolve_moveTo]
      exact governs
    rw [Bool.eq_iff_iff,
      Monitor.answer_needed_iff_asksFor compilable governs sameBase reachable,
      Monitor.answer_needed_iff_asksFor compilable otherGoverns sameBase otherReachable, sameNative]

namespace Sample

/-- Spans in an image whose last unit is linked at the top of the address space. -/
def topmost : RuleSource :=
  ⟨"top", "app", .any, ⟨0xffffffffffffff00, 0x100⟩, [⟨0x10, 0x20⟩, ⟨0x80, 0xff⟩],
    [⟨0x90, 0xa0⟩]⟩

end Sample

/-- The last unit that is included is judged alike at its link address and near the start of the
address space. -/
theorem decisions_follow_native_addresses_sample :
    let source := Sample.topmost
    let policy := Policy.ofRules (.ofSources [source]) .standard
    let mapping : Mapping := ⟨"app", "pid-1", 0xffffffffffffff00, 0x0, 0x100⟩
    source.image.place source.included = .ok [⟨0xffffffffffffff10, 0xffffffffffffff20⟩,
        ⟨0xffffffffffffff80, 0xffffffffffffffff⟩] ∧
      source.image.place source.excluded = .ok [⟨0xffffffffffffff90, 0xffffffffffffffa0⟩] ∧
      (policy.rules.resolve mapping).bind policy.rules.get? = some source.rule ∧
      mapping.native? 0xfe = some 0xfffffffffffffffe ∧
      (Monitor.fresh.needed policy .fresh mapping 0xfe).answer = true ∧
      (Monitor.fresh.needed policy .fresh (mapping.moveTo 0xffffffffffffff00)
        0xfffffffffffffffe).answer = true := by
  intro source policy mapping
  have placedIncluded : source.image.place source.included =
      .ok [⟨0xffffffffffffff10, 0xffffffffffffff20⟩, ⟨0xffffffffffffff80, 0xffffffffffffffff⟩] :=
    Image.place_eq_ok_iff.mpr (by decide)
  have placedExcluded : source.image.place source.excluded =
      .ok [⟨0xffffffffffffff90, 0xffffffffffffffa0⟩] :=
    Image.place_eq_ok_iff.mpr (by decide)
  have compiled : source.compile = .ok source.rule :=
    RuleSource.compile_of_compilable (by decide)
  have governs : (policy.rules.resolve mapping).bind policy.rules.get? = some source.rule := by
    decide +kernel
  rcases decisions_follow_native_addresses placedIncluded placedExcluded compiled governs rfl with
    ⟨agree, relocated⟩
  rcases agree 0xfe (by decide) (by decide) with ⟨native, isNative, _, _, _, judged⟩
  have isTop : mapping.native? 0xfe = some 0xfffffffffffffffe := by decide
  have same := Option.some.inj (isTop.symm.trans isNative)
  subst same
  have needed := (judged Monitor.fresh .fresh .fresh).mpr (by decide)
  refine ⟨placedIncluded, placedExcluded, governs, isTop, needed, ?_⟩
  rw [relocated 0xffffffffffffff00 0xfe 0xfffffffffffffffe (by decide) .fresh .fresh .fresh .fresh
    .fresh .fresh]
  exact needed

end InstrumentScope
