/-!
Contract: which execution contexts a rule speaks about.

Owns:
- the pattern, its reading from a setting, its text and the contexts it accepts.
-/

namespace InstrumentScope

/-- The contexts that a rule applies in: all of them, or the one of a given name. -/
inductive ContextPattern where
  | any
  | named (name : String)
deriving DecidableEq, Repr

namespace ContextPattern

/-- The text that stands for every context in a setting. -/
def wildcard : String := "*"

/-- The pattern that a setting means. An absent setting and the wildcard mean every context. -/
def ofSetting : Option String → ContextPattern
  | none => any
  | some name => if name = wildcard then any else named name

/-- The pattern accepts a context of this name. -/
def accepts : ContextPattern → String → Bool
  | any, _ => true
  | named name, context => name == context

/-- The pattern accepts every context by being the wildcard. A context that is merely named like
the wildcard is not meant. -/
def isAny : ContextPattern → Bool
  | any => true
  | named _ => false

/-- The name of the context, or the wildcard. -/
def text : ContextPattern → String
  | any => wildcard
  | named name => name

@[simp]
theorem accepts_any (context : String) : any.accepts context = true := rfl

@[simp]
theorem accepts_named {name context : String} :
    (named name).accepts context = true ↔ name = context := by
  simp [accepts]

end ContextPattern

end InstrumentScope
