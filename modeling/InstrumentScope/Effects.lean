import InstrumentScope.Notice

/-!
Contract: what an event does beside its answer, as data.

Owns:
- the effects of one event and of several in a row.
-/

namespace InstrumentScope

/-- The searches through the rules, the notices and the marks that an event brings about. -/
structure Effects where
  scans : Nat
  notices : List Notice
  marks : List Mark
deriving DecidableEq, Repr

namespace Effects

def none : Effects :=
  ⟨0, [], []⟩

def append (effects later : Effects) : Effects :=
  ⟨effects.scans + later.scans, effects.notices ++ later.notices, effects.marks ++ later.marks⟩

instance : Append Effects :=
  ⟨append⟩

@[simp]
theorem scans_append (effects later : Effects) :
    (effects ++ later).scans = effects.scans + later.scans := rfl

@[simp]
theorem notices_append (effects later : Effects) :
    (effects ++ later).notices = effects.notices ++ later.notices := rfl

@[simp]
theorem marks_append (effects later : Effects) :
    (effects ++ later).marks = effects.marks ++ later.marks := rfl

@[simp]
theorem none_append (effects : Effects) : none ++ effects = effects := by
  show append none effects = effects
  simp [append, none]

theorem append_assoc (first second third : Effects) :
    first ++ second ++ third = first ++ (second ++ third) := by
  show append (append first second) third = append first (append second third)
  simp only [append, Nat.add_assoc, List.append_assoc]

end Effects

end InstrumentScope
