import InstrumentScope.Span.Basic
import Std.Data.ExtTreeMap

/-!
Contract: a flat store of typed settings.

A key holds one value, of one of three types. Reading a key as another type
than it holds is like reading an absent key. The settings of an entry live
under keys made of the entry's name, a dot and a fixed word, and the entries of
a root are listed under the root's own key.

Owns:
- keys, values, typed reads and writes;
- the settings that describe one selection.

Does not own:
- what the settings mean (`Rule.Loading`).
-/

namespace InstrumentScope

inductive Setting where
  | text (value : String)
  | spans (value : List OffsetSpan)
  | names (value : List String)
deriving DecidableEq, Repr

structure Store where
  settings : Std.ExtTreeMap String Setting

/-- The words that end the keys in use. -/
inductive KeyWord where
  | selections
  | id
  | module
  | context
  | included
  | excluded
deriving DecidableEq, Repr

/-- One selection as its author gives it. -/
structure Selection where
  entry : String
  module : String
  context : Option String
  included : List OffsetSpan
  excluded : List OffsetSpan
deriving DecidableEq, Repr

def KeyWord.text : KeyWord → String
  | selections => "selections"
  | id => "id"
  | module => "module"
  | context => "context"
  | included => "include"
  | excluded => "exclude"

namespace Store

/-- The key of `word` within the settings of `owner`. -/
def joinKey (owner word : String) : String :=
  owner ++ "." ++ word

/-- The key of a key word within the settings of `owner`. -/
def key (owner : String) (word : KeyWord) : String :=
  joinKey owner word.text

/-- The root whose entries are read unless another is asked for. -/
def defaultRoot : String := "codesel"

def empty : Store :=
  ⟨∅⟩

/-- Gives `key` a value, in place of any earlier one of whatever type. -/
def set (store : Store) (key : String) (value : Setting) : Store :=
  ⟨store.settings.insert key value⟩

def text? (store : Store) (key : String) : Option String :=
  match store.settings[key]? with
  | some (.text value) => some value
  | _ => none

def spans? (store : Store) (key : String) : Option (List OffsetSpan) :=
  match store.settings[key]? with
  | some (.spans value) => some value
  | _ => none

def names? (store : Store) (key : String) : Option (List String) :=
  match store.settings[key]? with
  | some (.names value) => some value
  | _ => none

/-- Gives `key` a value if there is one to give. -/
def setSome (store : Store) (key : String) : Option Setting → Store
  | some value => store.set key value
  | none => store

/-- The setting for a list of spans: no span needs no setting. -/
def spansSetting : List OffsetSpan → Option Setting
  | [] => none
  | span :: rest => some (.spans (span :: rest))

/-- Lists one more entry under the default root. -/
def appendEntry (store : Store) (entry : String) : Store :=
  let listKey := key defaultRoot .selections
  store.set listKey (.names ((store.names? listKey).getD [] ++ [entry]))

/-- Adds a selection under the default root. Its entry doubles as the name of its rule. -/
def addSelection (store : Store) (selection : Selection) : Store :=
  (store.appendEntry selection.entry)
    |>.set (key selection.entry .module) (.text selection.module)
    |>.setSome (key selection.entry .context) (selection.context.map .text)
    |>.setSome (key selection.entry .included) (spansSetting selection.included)
    |>.setSome (key selection.entry .excluded) (spansSetting selection.excluded)

/-- A write is seen under its own key and under no other. -/
theorem getElem?_set (store : Store) (written key : String) (value : Setting) :
    (store.set written value).settings[key]? =
      if written = key then some value else store.settings[key]? := by
  simp [set, Std.ExtTreeMap.getElem?_insert]

end Store

end InstrumentScope
