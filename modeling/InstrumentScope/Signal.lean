import InstrumentScope.Word

/-!
Contract: requests to change the instrumentation mode, and the marks that a
block translation leaves in the code of a block.

Owns:
- block handles, signals and marks.

Does not own:
- the receiver of marks (`Transcript`).
-/

namespace InstrumentScope

structure BlockId where
  number : UInt64
deriving DecidableEq, Repr

def BlockId.text (block : BlockId) : String :=
  s!"BlockId({block.number.toNat})"

/-- A request to run instrumented, or natively, from some instruction on. -/
inductive Signal where
  | enable
  | disable
deriving DecidableEq, Repr

namespace Signal

/-- The signal that leads into the instrumented mode, or out of it. -/
def toward (instrumented : Bool) : Signal :=
  if instrumented then enable else disable

def isEnable : Signal → Bool
  | enable => true
  | disable => false

def text : Signal → String
  | enable => "enable"
  | disable => "disable"

@[simp]
theorem isEnable_toward (instrumented : Bool) : (toward instrumented).isEnable = instrumented := by
  cases instrumented <;> rfl

end Signal

/-- What a block translation leaves at an instruction of a block: a change of mode, or a request to
decide the mode again whenever the instruction runs. -/
inductive Mark where
  | signal (block : BlockId) (pc : Address) (signal : Signal)
  | check (block : BlockId) (pc : Address)
deriving DecidableEq, Repr

end InstrumentScope
