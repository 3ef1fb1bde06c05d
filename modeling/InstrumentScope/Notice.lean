import InstrumentScope.Mapping
import InstrumentScope.RuleSet.Basic
import InstrumentScope.Signal

/-!
Contract: everything worth telling the user, as data.

Owns:
- the notices, how severe each is, and their wording.

Does not own:
- where and whether notices are written down.
-/

namespace InstrumentScope

inductive Severity where
  | error
  | warn
  | info
  | debug
  | trace
deriving DecidableEq, Repr

namespace Severity

def rank : Severity → Nat
  | error => 0
  | warn => 1
  | info => 2
  | debug => 3
  | trace => 4

def text : Severity → String
  | error => "ERROR"
  | warn => "WARN"
  | info => "INFO"
  | debug => "DEBUG"
  | trace => "TRACE"

end Severity

/-- Something that happened and that a user may want to know. -/
inductive Notice where
  | registered (entry : String) (id : RuleId)
  | skipped (entry : String) (fault : Fault)
  /-- No entries are listed under the key. -/
  | noEntries (key : String)
  /-- Of `total` entries `loaded` became rules, for `modules` modules. -/
  | ready (loaded total modules : Nat)
  /-- A path left a mapping for code outside every module. -/
  | left (mapping : Mapping)
  /-- A path entered a mapping that the named rule, if any, governs. -/
  | entered (mapping : Mapping) (rule : Option String)
  | tracking (block : BlockId) (mapping : Mapping) (pc : Address)
  | switched (block : BlockId) (signal : Signal) (pc : Address)
  /-- The mapping has another size than the image its rule was compiled for. -/
  | sizeMismatch (mapping : Mapping) (rule : String) (compiled : UInt64)
  /-- An address outside the mapping was asked about. -/
  | outOfBounds (pc : Address) (mapping : Mapping)
deriving DecidableEq, Repr

namespace Notice

/-- How urgent a notice is depends on its kind alone. -/
def severity : Notice → Severity
  | skipped .. | noEntries .. | sizeMismatch .. | outOfBounds .. => .warn
  | ready .. => .info
  | registered .. | left .. | entered .. => .debug
  | tracking .. | switched .. => .trace

def text : Notice → String
  | registered entry id => s!"Registered code selection '{entry}' as {id.text}"
  | skipped entry fault => s!"Skipping code selection '{entry}': {fault.report}"
  | noEntries key => s!"No code selections configured under '{key}'"
  | ready loaded total modules =>
      s!"Code selection ready: {loaded}/{total} entries loaded, {modules} modules indexed"
  | left mapping => s!"Left {mapping.text}, execution is native"
  | entered mapping (some rule) => s!"Entered {mapping.text}, selected by '{rule}'"
  | entered mapping none => s!"Entered {mapping.text}, no selection applies"
  | tracking block mapping pc =>
      s!"Tracking block {block.text} of {mapping.text} at {Word.hex pc}"
  | switched block signal pc =>
      s!"Block {block.text}: {signal.text} instrumentation at {Word.hex pc}"
  | sizeMismatch mapping rule compiled =>
      s!"{mapping.text} is mapped with size {Word.hex mapping.size}, " ++
        s!"but '{rule}' was compiled for {Word.hex compiled}"
  | outOfBounds pc mapping =>
      s!"Address {Word.hex pc} lies outside {mapping.text}, treating it as not instrumented"

/-- The notice is at least as urgent as `threshold`. -/
def reaches (notice : Notice) (threshold : Severity) : Bool :=
  notice.severity.rank ≤ threshold.rank

end Notice

end InstrumentScope
