import InstrumentScope.Proofs.Compilation
import Mathlib.Data.List.Forall2

/-!
Contract: which lists of spans are placed, where, and which fault refuses the others.

The image is judged before any span, so an image that does not fit refuses even
the empty list. After that the first span that cannot be placed gives the fault,
with the ends that it would have had modulo the word size. The sums and
differences that lead to a placed span stay within a word: its stop is checked,
and its start lies below.

Owns:
- what holds of a placed span;
- the fault of a refused list, and the fault of a source that does not compile.
-/

namespace InstrumentScope

namespace OffsetSpan

/-- The ends of the placed span are those of the span counted from the base, its length is taken
without borrowing, and it has a unit and only units of the image. -/
structure PlacedIn (image : Image) (span : OffsetSpan) (placed : AddressSpan) : Prop where
  start : Word.add? image.base span.start = some placed.start
  stop : Word.add? image.base span.stop = some placed.stop
  nonempty : placed.start < placed.stop
  length : placed.length? = some placed.length
  length_eq : span.start.toNat + placed.length.toNat = span.stop.toNat
  inside : ∀ address, placed.Contains address →
    image.base ≤ address ∧ address - image.base < image.size

theorem placedIn_rebase {image : Image} {span : OffsetSpan} (placeable : span.Placeable image) :
    span.PlacedIn image (span.rebase image) := by
  have length : (span.rebase image).length.toNat =
      (span.rebase image).stop.toNat - (span.rebase image).start.toNat :=
    UInt64.toNat_sub_of_le _ _ (start_le_stop_rebase placeable)
  obtain ⟨start, stop⟩ := toNat_rebase placeable
  obtain ⟨nonempty, inside, _⟩ := placeable
  rw [UInt64.lt_iff_toNat_lt] at nonempty
  rw [UInt64.le_iff_toNat_le] at inside
  constructor
  case start => rw [Word.add?_eq_some_iff, start]
  case stop => rw [Word.add?_eq_some_iff, stop]
  case nonempty =>
    rw [UInt64.lt_iff_toNat_lt]
    omega
  case length =>
    rw [AddressSpan.length?_eq_some_iff]
    omega
  case length_eq => omega
  case inside =>
    intro address contained
    unfold AddressSpan.Contains at contained
    rw [UInt64.le_iff_toNat_le, UInt64.lt_iff_toNat_lt] at contained
    have above : image.base ≤ address := by
      rw [UInt64.le_iff_toNat_le]
      omega
    refine ⟨above, ?_⟩
    rw [UInt64.lt_iff_toNat_lt, UInt64.toNat_sub_of_le _ _ above]
    omega

theorem place_eq_ok_iff {image : Image} {span : OffsetSpan} {placed : AddressSpan} :
    span.place image = .ok placed ↔ span.Placeable image ∧ placed = span.rebase image := by
  by_cases placeable : span.Placeable image
  · simp [place_of_placeable placeable, placeable, eq_comm]
  · simp [place_of_not_placeable placeable, placeable]

theorem placementFault_eq (image : Image) (span : OffsetSpan) :
    span.placementFault image =
      if span.stop ≤ span.start then
        .emptySpan (image.base + span.start) (image.base + span.stop)
      else .outsideImage (image.base + span.start) (image.base + span.stop) image := by
  unfold placementFault
  by_cases nonempty : span.start < span.stop
  · rw [if_pos nonempty, if_neg (UInt64.not_le.mpr nonempty)]
  · rw [if_neg nonempty, if_pos (UInt64.not_lt.mp nonempty)]

end OffsetSpan

namespace Image

theorem not_fits_iff (image : Image) :
    ¬ image.Fits ↔ 0 < image.size ∧ UInt64.size < image.base.toNat + image.size.toNat := by
  have baseBound := image.base.toNat_lt
  rw [Fits, UInt64.lt_iff_toNat_lt, UInt64.toNat_zero]
  simp only [UInt64.size]
  omega

/-- The first span that cannot be placed gives the fault. -/
theorem place_of_not_placeable {image : Image} (fits : image.Fits) {spans : List OffsetSpan}
    (unplaceable : ∃ span ∈ spans, ¬ span.Placeable image) :
    ∃ earlier span later, spans = earlier ++ span :: later ∧
      (∀ other ∈ earlier, other.Placeable image) ∧ ¬ span.Placeable image ∧
      image.place spans = .error (span.placementFault image) := by
  obtain ⟨earlier, span, later, split, placeable, faulty⟩ := exists_first_not_placeable unplaceable
  refine ⟨earlier, span, later, split, placeable, faulty, ?_⟩
  rw [place_of_fits fits, split]
  exact placeEach_append_of_not_placeable placeable faulty later

theorem place_of_placeable {image : Image} (fits : image.Fits) {spans : List OffsetSpan}
    (placeable : ∀ span ∈ spans, span.Placeable image) :
    image.place spans = .ok (spans.map (OffsetSpan.rebase image)) :=
  place_eq_ok_iff.mpr ⟨fits, placeable, rfl⟩

/-- No span gives the fault of an image that does not fit. -/
theorem place_eq_imageOverflow_iff {image : Image} {spans : List OffsetSpan} :
    image.place spans = .error (.imageOverflow image) ↔ ¬ image.Fits := by
  constructor
  · intro refused fits
    by_cases placeable : ∀ span ∈ spans, span.Placeable image
    · rw [place_of_placeable fits placeable] at refused
      contradiction
    · have unplaceable : ∃ span ∈ spans, ¬ span.Placeable image := by simpa using placeable
      obtain ⟨_, span, _, _, _, _, fault⟩ := place_of_not_placeable fits unplaceable
      rw [fault, OffsetSpan.placementFault] at refused
      split at refused <;> simp at refused
  · intro overflows
    exact place_of_not_fits overflows spans

theorem placedIn_of_place {image : Image} {spans : List OffsetSpan} {placed : List AddressSpan}
    (accepted : image.place spans = .ok placed) :
    List.Forall₂ (OffsetSpan.PlacedIn image) spans placed := by
  obtain ⟨_, placeable, rfl⟩ := place_eq_ok_iff.mp accepted
  rw [List.forall₂_map_right_iff, List.forall₂_same]
  intro span member
  exact OffsetSpan.placedIn_rebase (placeable span member)

end Image

/-- The spans to exclude are looked at only when those to include are placed. -/
theorem RuleSource.compile_eq_error_iff {source : RuleSource} {fault : Fault} :
    source.compile = .error fault ↔
      source.image.place source.included = .error fault ∨
      (∃ placed, source.image.place source.included = .ok placed) ∧
        source.image.place source.excluded = .error fault := by
  unfold compile
  cases source.image.place source.included with
  | error first => simp [bind, Except.bind]
  | ok included =>
      cases source.image.place source.excluded with
      | error second => simp [bind, Except.bind]
      | ok excluded => simp [bind, Except.bind, pure, Except.pure]

/-- A list is refused for its image, even the empty list, exactly if the image has units and its last
unit has no address. In any other image it is placed exactly if every span can be placed, then span
by span in order, and otherwise the first span that cannot be placed gives the fault. No sum and no
difference of a placed span leaves the word. A source is refused for the spans to include first. -/
theorem spans_are_placed_or_refused (image : Image) (spans : List OffsetSpan) :
    let overflows := 0 < image.size ∧ UInt64.size < image.base.toNat + image.size.toNat
    (image.place spans = .error (.imageOverflow image) ↔ overflows) ∧
    (¬ overflows →
      ((∃ placed, image.place spans = .ok placed) ↔
        ∀ span ∈ spans, span.start < span.stop ∧ span.stop ≤ image.size ∧
          image.base.toNat + span.stop.toNat < UInt64.size)) ∧
    (∀ placed, image.place spans = .ok placed →
      List.Forall₂ (OffsetSpan.PlacedIn image) spans placed) ∧
    (¬ overflows → (∃ span ∈ spans, ¬ span.Placeable image) →
      ∃ earlier span later, spans = earlier ++ span :: later ∧
        (∀ other ∈ earlier, other.Placeable image) ∧ ¬ span.Placeable image ∧
        image.place spans = .error (
          if span.stop ≤ span.start then
            .emptySpan (image.base + span.start) (image.base + span.stop)
          else .outsideImage (image.base + span.start) (image.base + span.stop) image)) ∧
    (∀ span placed, OffsetSpan.place image span = .ok placed →
      Word.add? image.base span.start = some placed.start ∧
      placed.length? = some placed.length) ∧
    ∀ (source : RuleSource) (fault : Fault), source.compile = .error fault ↔
      source.image.place source.included = .error fault ∨
      (∃ placed, source.image.place source.included = .ok placed) ∧
        source.image.place source.excluded = .error fault := by
  intro overflows
  have fits_of_not_overflows : ¬ overflows → image.Fits := by
    intro within
    exact not_not.mp (mt image.not_fits_iff.mp within)
  refine ⟨?_, ?_, fun placed => Image.placedIn_of_place, ?_, ?_,
    fun source fault => RuleSource.compile_eq_error_iff⟩
  · exact Image.place_eq_imageOverflow_iff.trans image.not_fits_iff
  · intro within
    constructor
    · intro accepted
      obtain ⟨placed, accepted⟩ := accepted
      exact (Image.place_eq_ok_iff.mp accepted).2.1
    · intro placeable
      exact ⟨_, Image.place_of_placeable (fits_of_not_overflows within) placeable⟩
  · intro within unplaceable
    obtain ⟨earlier, span, later, split, placeable, faulty, refused⟩ :=
      Image.place_of_not_placeable (fits_of_not_overflows within) unplaceable
    refine ⟨earlier, span, later, split, placeable, faulty, ?_⟩
    rw [refused, OffsetSpan.placementFault_eq]
  · intro span placed accepted
    obtain ⟨placeable, rfl⟩ := OffsetSpan.place_eq_ok_iff.mp accepted
    have placedIn := OffsetSpan.placedIn_rebase placeable
    exact ⟨placedIn.start, placedIn.length⟩

/-- An image may end at the top of the address space, but no span of it may. -/
example : Image.place ⟨0xfffffffffffff000, 0x1000⟩ [⟨0x800, 0xfff⟩, ⟨0x0, 0x1000⟩] =
    .error (.outsideImage 0xfffffffffffff000 0x0 ⟨0xfffffffffffff000, 0x1000⟩) := by
  rfl

end InstrumentScope
