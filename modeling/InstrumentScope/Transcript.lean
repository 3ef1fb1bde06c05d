import InstrumentScope.Signal

/-!
Contract: the receiver of marks keeps all of them, in order.

Signals and checks are kept apart. A receiver may also take signals only.

Owns:
- the transcript and what can be asked of it.
-/

namespace InstrumentScope

structure SignalMark where
  block : BlockId
  pc : Address
  signal : Signal
deriving DecidableEq, Repr

structure CheckMark where
  block : BlockId
  pc : Address
deriving DecidableEq, Repr

/-- All signals and all checks, each in the order received. -/
structure Transcript where
  signals : List SignalMark
  checks : List CheckMark
deriving DecidableEq, Repr

namespace Transcript

def empty : Transcript :=
  ⟨[], []⟩

def record (transcript : Transcript) : Mark → Transcript
  | .signal block pc signal =>
      { transcript with signals := transcript.signals ++ [⟨block, pc, signal⟩] }
  | .check block pc => { transcript with checks := transcript.checks ++ [⟨block, pc⟩] }

def ofMarks (marks : List Mark) : Transcript :=
  marks.foldl record empty

def append (transcript later : Transcript) : Transcript :=
  ⟨transcript.signals ++ later.signals, transcript.checks ++ later.checks⟩

def isEmpty (transcript : Transcript) : Bool :=
  transcript.signals.isEmpty && transcript.checks.isEmpty

/-- The transcript of a receiver that ignores checks. -/
def withoutChecks (transcript : Transcript) : Transcript :=
  { transcript with checks := [] }

def forBlock (transcript : Transcript) (block : BlockId) : List SignalMark :=
  transcript.signals.filter (·.block == block)

private theorem foldl_record (marks : List Mark) (transcript : Transcript) :
    marks.foldl record transcript = transcript.append (ofMarks marks) := by
  unfold ofMarks
  induction marks generalizing transcript with
  | nil => simp [append, empty]
  | cons mark rest inductionHypothesis =>
      rw [List.foldl_cons, List.foldl_cons, inductionHypothesis,
        inductionHypothesis (record empty mark)]
      cases mark <;> simp [record, append, empty]

theorem ofMarks_append (marks later : List Mark) :
    ofMarks (marks ++ later) = (ofMarks marks).append (ofMarks later) := by
  conv => lhs; unfold ofMarks
  rw [List.foldl_append, foldl_record later]
  rfl

end Transcript

end InstrumentScope
