import InstrumentScope.Image.Catalog
import InstrumentScope.Rule.Basic
import InstrumentScope.Store

/-!
Contract: an entry of the store is read as the source of a rule, then compiled.

The module is looked at first: it must be set, must not be the empty text and
must be known to the catalog. Everything else has a default: the rule is named
like its entry, applies in every context and has no spans.

Owns:
- reading and loading one entry.
-/

namespace InstrumentScope

def RuleSource.read (store : Store) (catalog : Catalog) (entry : String) :
    Except Fault RuleSource :=
  let moduleKey := Store.key entry .module
  match store.text? moduleKey with
  | none => .error (.missingKey moduleKey)
  | some module =>
      if module = "" then .error (.unnamedModule entry)
      else match catalog.image? module with
        | none => .error (.unknownModule module)
        | some image => .ok {
            name := (store.text? (Store.key entry .id)).getD entry
            module := module
            context := .ofSetting (store.text? (Store.key entry .context))
            image := image
            included := (store.spans? (Store.key entry .included)).getD []
            excluded := (store.spans? (Store.key entry .excluded)).getD [] }

def Rule.load (store : Store) (catalog : Catalog) (entry : String) : Except Fault Rule := do
  let source ← RuleSource.read store catalog entry
  source.compile

end InstrumentScope
