import InstrumentScope.Effects
import InstrumentScope.Hook
import InstrumentScope.Path
import InstrumentScope.Policy
import Std.Data.ExtTreeSet

/-!
Contract: the answers to the engine's events, while blocks are translated and
while they run.

Translation is sequential, so at most one block is open at a time. Inside it a
signal is left exactly where the mode has to change, and a check wherever some
context selects the code. What belongs to a path is in the path handed to each
event; the monitor itself keeps the open block and which modules it has
complained about.

Every event is a function. Its outcome carries the monitor and the path
afterwards, and its effects: searches through the rules, notices and marks.

Owns:
- the open block and the complaints;
- one function per event.

Does not own:
- the resolution of rules on a path (`Path`);
- several paths side by side (`Fleet`).
-/

namespace InstrumentScope

/-- The block whose translation is under way. -/
structure OpenBlock where
  block : BlockId
  mapping : Mapping
  /-- The mode that the signals left so far lead to; none while it is unknown. -/
  mode : Option Bool
deriving DecidableEq, Repr

/-- The state shared by all paths. The two sets stand for one set of modules with their complaints,
which threads may share; events read and write it one at a time. -/
structure Monitor where
  openBlock : Option OpenBlock
  /-- The modules that were asked about at an address outside their rule's image. -/
  outOfBounds : Std.ExtTreeSet String
  /-- The modules mapped with another size than their rule was compiled for. -/
  sizeMismatches : Std.ExtTreeSet String

namespace Monitor

def fresh : Monitor :=
  ⟨none, ∅, ∅⟩

/-- The answer to an event on one path, with everything that the event changed. -/
structure Outcome (α : Type) where
  answer : α
  monitor : Monitor
  path : Path
  effects : Effects

def outOfBoundsReports (monitor : Monitor) : Nat :=
  monitor.outOfBounds.size

def sizeMismatchReports (monitor : Monitor) : Nat :=
  monitor.sizeMismatches.size

/-- The events that are always wanted. The rest is asked for block by block. -/
def subscriptions : HookSet :=
  .ofList [.blockStart, .blockEnd, .moduleTransition]

/-- The events that are wanted inside an open block. -/
def blockHooks : HookSet :=
  .ofList [.instructionStart, .instructionExecute, .blockEnd]

/-- The monitor after a complaint was considered, and what is said about it. -/
structure Complaint where
  monitor : Monitor
  notices : List Notice

/-- Compares the size of a mapping with that of its rule's image. The first mismatch of a module
is worth a notice. -/
def checkSize (monitor : Monitor) (mapping : Mapping) (rule : Rule) : Complaint :=
  if mapping.size = rule.image.size ∨ monitor.sizeMismatches.contains mapping.module then
    ⟨monitor, []⟩
  else
    { monitor := { monitor with sizeMismatches := monitor.sizeMismatches.insert mapping.module }
      notices := [.sizeMismatch mapping rule.name rule.image.size] }

/-- Takes note of an address outside the image of a mapping's rule. The first such address of a
module is worth a notice, if the options say so. -/
def reportOutOfBounds (options : Options) (monitor : Monitor) (mapping : Mapping) (pc : Address) :
    Complaint :=
  if monitor.outOfBounds.contains mapping.module then
    ⟨monitor, []⟩
  else
    { monitor := { monitor with outOfBounds := monitor.outOfBounds.insert mapping.module }
      notices := if options.warnOutOfBounds then [.outOfBounds pc mapping] else [] }

/-- A path moves to `destination`, or out of every module. The answer is the rule of the
destination. -/
def transition (policy : Policy) (monitor : Monitor) (path : Path)
    (origin destination : Option Mapping) : Outcome (Option RuleId) :=
  match destination with
  | none => ⟨none, monitor, path.leave, ⟨0, (origin.map Notice.left).toList, []⟩⟩
  | some mapping =>
      let entry := path.enter policy.rules mapping
      match entry.rule.bind policy.rules.get? with
      | none => ⟨entry.rule, monitor, entry.path, ⟨entry.scans, [.entered mapping none], []⟩⟩
      | some rule =>
          let checked := monitor.checkSize mapping rule
          { answer := entry.rule
            monitor := checked.monitor
            path := entry.path
            effects := ⟨entry.scans, .entered mapping (some rule.name) :: checked.notices, []⟩ }

/-- The code at `pc` of a mapping needs instrumentation on this path. The mapping becomes the
path's active mapping, not its current one. -/
def needed (policy : Policy) (monitor : Monitor) (path : Path) (mapping : Mapping) (pc : Address) :
    Outcome Bool :=
  let activation := path.activate policy.rules mapping
  match activation.rule.bind policy.rules.get? with
  | none => ⟨false, monitor, activation.path, ⟨activation.scans, [], []⟩⟩
  | some rule =>
      let checked := monitor.checkSize mapping rule
      match (mapping.offset? pc).bind rule.lookup with
      | some isSelected =>
          { answer := isSelected
            monitor := checked.monitor
            path := activation.path
            effects := ⟨activation.scans, checked.notices, []⟩ }
      | none =>
          let reported := checked.monitor.reportOutOfBounds policy.options mapping pc
          { answer := false
            monitor := reported.monitor
            path := activation.path
            effects := ⟨activation.scans, checked.notices ++ reported.notices, []⟩ }

/-- The translation of a block begins. A block of a module that no rule selects stays native and
needs no further events. Any block still open is forgotten. -/
def blockStart (policy : Policy) (monitor : Monitor) (path : Path) (mapping : Option Mapping)
    (block : BlockId) (pc : Address) : Outcome HookSet :=
  match mapping.filter fun mapping => policy.coverage.isSelected mapping.module with
  | none => ⟨.empty, { monitor with openBlock := none }, path, .none⟩
  | some mapping =>
      let activation := path.activate policy.rules mapping
      -- A closed predecessor leaves the engine in native mode.
      let mode := if policy.options.closeBlocks then some false else none
      { answer := blockHooks
        monitor := { monitor with openBlock := some ⟨block, mapping, mode⟩ }
        path := activation.path
        effects := ⟨activation.scans, [.tracking block mapping pc], []⟩ }

/-- The translation of an instruction of a block begins. A check is left if any context selects
the instruction, and a signal if it needs another mode than the signals so far lead to. The answer
is that signal. Instructions of a block that is not open are ignored. -/
def instructionStart (policy : Policy) (monitor : Monitor) (path : Path) (block : BlockId)
    (pc : Address) : Outcome (Option Signal) :=
  match monitor.openBlock.filter (·.block == block) with
  | none => ⟨none, monitor, path, .none⟩
  | some opened =>
      let checks := if policy.coverage.selects opened.mapping pc then [.check block pc] else []
      let decision := monitor.needed policy path opened.mapping pc
      if opened.mode = some decision.answer then
        { answer := none
          monitor := decision.monitor
          path := decision.path
          effects := ⟨decision.effects.scans, decision.effects.notices, checks⟩ }
      else
        let signal := Signal.toward decision.answer
        { answer := some signal
          monitor := { decision.monitor with
            openBlock := some { opened with mode := some decision.answer } }
          path := decision.path
          effects := {
            scans := decision.effects.scans
            notices := decision.effects.notices ++ [.switched block signal pc]
            marks := checks ++ [.signal block pc signal] } }

/-- The outcome of the end of a block, which concerns no path. -/
structure Closing where
  answer : Option Signal
  monitor : Monitor
  marks : List Mark

/-- The translation of a block ends before `pc`. A block that ends instrumented is closed by a
signal if the options say so. The end of a block that is not open is ignored. -/
def blockEnd (policy : Policy) (monitor : Monitor) (block : BlockId) (pc : Address) : Closing :=
  match monitor.openBlock.filter (·.block == block) with
  | none => ⟨none, monitor, []⟩
  | some opened =>
      let closed := { monitor with openBlock := none }
      if opened.mode = some true ∧ policy.options.closeBlocks then
        ⟨some .disable, closed, [.signal block pc .disable]⟩
      else
        ⟨none, closed, []⟩

/-- A checked instruction runs on a path. The answer is the mode the path needs there. -/
def execute (policy : Policy) (path : Path) (pc : Address) : Signal :=
  .toward (path.isInstrumented policy.rules pc)

end Monitor

end InstrumentScope
