import InstrumentScope.Image.Basic

/-!
Contract: the reasons why a rule is refused, and their wording.

Every fault arises while rules are compiled or loaded. Questions about compiled
rules never fail.

Owns:
- the causes;
- the message of a cause, and its wording inside a notice.
-/

namespace InstrumentScope

/-- A reason to refuse a rule. Addresses are given after placement, modulo the word size. -/
inductive Fault where
  /-- A span whose start is not below its stop. -/
  | emptySpan (start stop : Address)
  | outsideImage (start stop : Address) (image : Image)
  /-- An image whose last unit has no address. -/
  | imageOverflow (image : Image)
  | missingKey (key : String)
  | unnamedModule (entry : String)
  | unknownModule (module : String)
  | duplicateRule (name : String)
deriving DecidableEq, Repr

namespace Fault

def message : Fault → String
  | emptySpan start stop =>
      s!"Invalid range [{Word.hex start}, {Word.hex stop}) - start must be below end"
  | outsideImage start stop image =>
      s!"Range [{Word.hex start}, {Word.hex stop}) lies outside module image " ++
        s!"[{Word.hex image.base}, {Word.hex image.base} + {Word.hex image.size})"
  | imageOverflow image =>
      s!"Module image {Word.hex image.base} + {Word.hex image.size} overflows"
  | missingKey key => s!"Missing configuration key '{key}'"
  | unnamedModule entry => s!"Entry '{entry}' names an empty module"
  | unknownModule module => s!"Module '{module}' could not be resolved to a base and size"
  | duplicateRule name => s!"A selection descriptor with id '{name}' is already registered"

/-- The settings themselves are malformed, rather than a span, a name or a reference in them. -/
def isMalformed : Fault → Bool
  | imageOverflow _ | unnamedModule _ => true
  | _ => false

/-- The wording of a fault inside a notice: malformed settings are marked as such. The place in the
program where they were noticed, which a log may give behind the mark, is left out. -/
def report (fault : Fault) : String :=
  if fault.isMalformed then "Config - " ++ fault.message else fault.message

end Fault

end InstrumentScope
