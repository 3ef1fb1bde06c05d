import InstrumentScope.Store

/-!
Contract: how rules are loaded and how much is said about it.

No option changes which code a rule selects.

Owns:
- the options and their presets.
-/

namespace InstrumentScope

/-- The behaviour that a user may choose. -/
structure Options where
  root : String
  /-- Entries are compiled by workers side by side, not one after the other. -/
  parallelCompile : Bool
  /-- An address outside a module is worth a notice. -/
  warnOutOfBounds : Bool
  /-- A block that ends instrumented is closed by a signal. Otherwise the mode a block starts in is
  unknown and its first instruction is always signalled. -/
  closeBlocks : Bool
deriving DecidableEq, Repr

namespace Options

/-- Everything on, under the default root. -/
def standard : Options :=
  ⟨Store.defaultRoot, true, true, true⟩

def quiet : Options :=
  { standard with warnOutOfBounds := false }

def sequential : Options :=
  { standard with parallelCompile := false }

end Options

end InstrumentScope
