import InstrumentScope.Notice
import InstrumentScope.Rule.Loading

/-!
Contract: entries become registered rules, or are skipped with a notice.

An entry that fails, or whose rule has a taken name, leaves the set as it was.
It has no influence on any other entry.

Owns:
- the enrollment of one loaded entry and of a list of them.
-/

namespace InstrumentScope

namespace RuleSet

/-- A set after an entry was enrolled or skipped, and what there is to say about it. -/
structure Enrollment where
  rules : RuleSet
  enrolled : Bool
  notice : Notice

/-- Registers the outcome of loading an entry. -/
def enroll (set : RuleSet) (entry : String) (loaded : Except Fault Rule) : Enrollment :=
  let registration := set.settle loaded
  match registration.answer with
  | .error fault => ⟨registration.rules, false, .skipped entry fault⟩
  | .ok id => ⟨registration.rules, true, .registered entry id⟩

def load (set : RuleSet) (store : Store) (catalog : Catalog) (entry : String) : Enrollment :=
  set.enroll entry (Rule.load store catalog entry)

/-- A set after several entries were enrolled or skipped, and what there is to say about them. -/
structure Enrollments where
  rules : RuleSet
  notices : List Notice

/-- Registers the outcomes of loading several entries, in order. -/
def enrollAll (set : RuleSet) : List (String × Except Fault Rule) → Enrollments
  | [] => ⟨set, []⟩
  | (entry, loaded) :: rest =>
      let first := set.enroll entry loaded
      let others := first.rules.enrollAll rest
      ⟨others.rules, first.notice :: others.notices⟩

/-- The set after an enrollment is the set after the registration, whatever is said about it. -/
theorem rules_enroll (set : RuleSet) (entry : String) (loaded : Except Fault Rule) :
    (set.enroll entry loaded).rules = (set.settle loaded).rules := by
  unfold enroll
  dsimp only
  split <;> rfl

theorem enroll_of_free {set : RuleSet} {rule : Rule} (free : set.find? rule.name = none)
    (entry : String) :
    set.enroll entry (.ok rule) = ⟨set.append rule, true, .registered entry ⟨set.size⟩⟩ := by
  simp only [enroll, settle, register_of_free free]

theorem enroll_of_taken {set : RuleSet} {rule : Rule} (taken : (set.find? rule.name).isSome)
    (entry : String) :
    set.enroll entry (.ok rule) = ⟨set, false, .skipped entry (.duplicateRule rule.name)⟩ := by
  simp only [enroll, settle, register_of_taken taken]

end RuleSet

end InstrumentScope
