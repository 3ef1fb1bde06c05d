import InstrumentScope.Proofs.Selections

/-!
Contract: what is written for one entry is read for that entry alone.

The store is flat: all entries and all roots share one table of keys, and a
name may look like a key of another name. Since keys are told apart by owner
and word, a write is a frame: the settings of every other entry stay, and so do
the lists of entries under every root, unless the write is to such a list.

Owns:
- single writes and what they leave alone;
- the rule of an entry after any number of writes.

Does not own:
- keys told apart (`StoreKeys`);
- what selections are read as (`Selections`).
-/

namespace InstrumentScope

namespace Store

variable {store other later : Store} {entry : String}

theorem AgreeOn.trans (first : store.AgreeOn other entry) (second : other.AgreeOn later entry) :
    store.AgreeOn later entry :=
  fun word owned => (first word owned).trans (second word owned)

/-- A write to the store: one setting, or a selection with all that it says. -/
inductive Write where
  | set (owner : String) (word : KeyWord) (value : Setting)
  | add (selection : Selection)
deriving DecidableEq, Repr

/-- The write is to a setting of the entry. A list of entries is no setting of one. -/
def Write.sets (entry : String) : Write → Bool
  | set owner word _ => owner == entry && word != .selections
  | add selection => selection.entry == entry

def write (store : Store) : Write → Store
  | .set owner word value => store.set (key owner word) value
  | .add selection => store.addSelection selection

def writeAll (store : Store) (writes : List Write) : Store :=
  writes.foldl write store

/-- The settings of an entry stay as they are unless the write is to one of them. -/
theorem agreeOn_write {write : Write} (foreign : write.sets entry = false) :
    (store.write write).AgreeOn store entry := by
  cases write with
  | set owner written value =>
      apply agreeOn_set
      intro word owned same
      rcases key_inj.mp same with ⟨isOwner, isWord⟩
      simp [Write.sets, isOwner, isWord, owned] at foreign
  | add selection =>
      intro word owned
      have apart : selection.entry ≠ entry := by simpa [Write.sets] using foreign
      show (store.addSelection selection).settings[key entry word]? = _
      rw [getElem?_addSelection store selection entry owned, if_neg apart]

/-- The same write keeps stores in agreement: what it leaves behind for an entry does not depend on
anything else that is in the store. -/
theorem AgreeOn.write (agree : store.AgreeOn other entry) (write : Write) :
    (store.write write).AgreeOn (other.write write) entry := by
  intro word owned
  cases write with
  | set owner written value =>
      show (store.set (key owner written) value).settings[key entry word]? =
        (other.set (key owner written) value).settings[key entry word]?
      rw [getElem?_set, getElem?_set, agree word owned]
  | add selection =>
      show (store.addSelection selection).settings[key entry word]? =
        (other.addSelection selection).settings[key entry word]?
      rw [getElem?_addSelection store selection entry owned,
        getElem?_addSelection other selection entry owned, agree word owned]

/-- Of all writes those to an entry are enough for its settings. -/
theorem AgreeOn.writeAll (agree : store.AgreeOn other entry) (writes : List Write) :
    (store.writeAll writes).AgreeOn (other.writeAll (writes.filter (·.sets entry))) entry := by
  -- The stores drift apart with every foreign write, but not on the entry.
  induction writes generalizing store other with
  | nil => exact agree
  | cons write rest inductionHypothesis =>
      cases own : write.sets entry with
      | true =>
          rw [List.filter_cons_of_pos own]
          exact inductionHypothesis (agree.write write)
      | false =>
          rw [List.filter_cons_of_neg (by simp [own])]
          exact inductionHypothesis ((agreeOn_write own).trans agree)

/-- A setting of an entry is no list of entries, under whatever root. -/
theorem names?_set_of_owned {word : KeyWord} (owned : word ≠ .selections) (value : Setting)
    (root : String) :
    (store.set (key entry word) value).names? (key root .selections) =
      store.names? (key root .selections) := by
  apply names?_congr
  have apart : key entry word ≠ key root .selections := fun same => owned (key_inj.mp same).2
  rw [getElem?_set, if_neg apart]

end Store

/-- However a store is written to, the rule of an entry is loaded from the writes to the entry's own
settings, as if no others had been made. -/
theorem Rule.load_writeAll (store : Store) (writes : List Store.Write) (catalog : Catalog)
    (entry : String) :
    load (store.writeAll writes) catalog entry =
      load (store.writeAll (writes.filter (·.sets entry))) catalog entry :=
  load_congr (Store.AgreeOn.writeAll (fun _ _ => rfl) writes) catalog

/-- A write that sets nothing of an entry might as well not have been made. -/
theorem Rule.load_write (store : Store) (catalog : Catalog) {entry : String} {write : Store.Write}
    (foreign : write.sets entry = false) :
    load (store.write write) catalog entry = load store catalog entry := by
  have noneOwn : [write].filter (·.sets entry) = [] := by simp [foreign]
  have loaded := load_writeAll store [write] catalog entry
  rw [noneOwn] at loaded
  exact loaded

/-- Keys are for one word of one owner, whatever dots a name holds. So a write under any key of an
entry, of whatever type, and a selection of it change nothing of what another entry is loaded as.
A setting of an entry does not change the entries listed under any root, and a list of entries does
not change what any entry is loaded as. -/
theorem entries_are_isolated :
    (∀ owner word otherOwner otherWord,
      Store.key owner word = Store.key otherOwner otherWord ↔
        owner = otherOwner ∧ word = otherWord) ∧
    (∀ store entry other, entry ≠ other →
      (∀ word value catalog,
        Rule.load (store.set (Store.key entry word) value) catalog other =
          Rule.load store catalog other) ∧
      ∀ selection : Selection, selection.entry = entry → ∀ catalog,
        Rule.load (store.addSelection selection) catalog other =
          Rule.load store catalog other) ∧
    (∀ (store : Store) entry word, word ≠ .selections → ∀ value root,
      (store.set (Store.key entry word) value).names? (Store.key root .selections) =
        store.names? (Store.key root .selections)) ∧
    ∀ store root value entry catalog,
      Rule.load (store.set (Store.key root .selections) value) catalog entry =
        Rule.load store catalog entry := by
  refine ⟨fun _ _ _ _ => Store.key_inj, ?_, ?_, ?_⟩
  · intro store entry other apart
    constructor
    · intro word value catalog
      have foreign : (Store.Write.set entry word value).sets other = false := by
        simp [Store.Write.sets, apart]
      exact Rule.load_write store catalog foreign
    · intro selection named catalog
      have foreign : (Store.Write.add selection).sets other = false := by
        simp [Store.Write.sets, named, apart]
      exact Rule.load_write store catalog foreign
  · intro store entry word owned value root
    exact Store.names?_set_of_owned owned value root
  · intro store root value entry catalog
    have foreign : (Store.Write.set root .selections value).sets entry = false := by
      simp [Store.Write.sets]
    exact Rule.load_write store catalog foreign

/-- The second entry has the name of the first one's key for its module. -/
theorem entries_are_isolated_sample :
    let catalog := Catalog.empty.insert "app" ⟨0x1000, 0x40⟩
    let store := Store.empty.addSelection ⟨"part", "app", none, [⟨0x8, 0x20⟩], []⟩
    let selection : Selection := ⟨"part.module", "ghost", some "main", [], []⟩
    Store.key "part" .module = selection.entry ∧ selection.entry ≠ "part" ∧
      Store.key selection.entry .module ≠ Store.key "part" .module ∧
      KeyWord.id ≠ .selections ∧ (Rule.load store catalog "part").isOk ∧
      Rule.load (store.addSelection selection) catalog "part" = Rule.load store catalog "part" ∧
      Rule.load (store.set (Store.key selection.entry .module) (.names [])) catalog "part" =
        Rule.load store catalog "part" ∧
      (store.set (Store.key "part" .id) (.text "other")).names?
        (Store.key Store.defaultRoot .selections) = some ["part"] ∧
      Rule.load (store.set (Store.key "part" .selections) (.text "none")) catalog "part" =
        Rule.load store catalog "part" := by
  intro catalog store selection
  have apart : selection.entry ≠ "part" := by decide
  have owned : KeyWord.id ≠ .selections := by decide
  rcases entries_are_isolated with ⟨keys, frames, lists, listing⟩
  rcases frames store selection.entry "part" apart with ⟨sets, adds⟩
  have listed : store.names? (Store.key Store.defaultRoot .selections) = some ["part"] := by
    decide +kernel
  have keysApart : Store.key selection.entry .module ≠ Store.key "part" .module :=
    fun same => apart ((keys _ _ _ _).mp same).1
  exact ⟨by decide, apart, keysApart, owned, by decide +kernel, adds selection rfl catalog,
    sets .module (.names []) catalog,
    (lists store "part" .id owned (.text "other") Store.defaultRoot).trans listed,
    listing store "part" (.text "none") "part" catalog⟩

end InstrumentScope
