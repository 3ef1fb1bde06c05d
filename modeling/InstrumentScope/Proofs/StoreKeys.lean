import InstrumentScope.Rule.Loading

/-!
Contract: the settings of different entries never share a key.

A key is the name of its owner, a dot and a fixed word. A name may hold dots, and
may look like a key of another owner. The words hold none, so the last dot of a
key is where the name ends.

Owns:
- keys told apart by owner and word;
- the settings that the source of an entry is read from, and the writes that
  leave them alone.
-/

namespace InstrumentScope

/-- A row that is cut at its last separator can be cut in one way only. -/
theorem append_separator_inj {α : Type} {separator : α} {front other back otherBack : List α}
    (free : separator ∉ back) (otherFree : separator ∉ otherBack)
    (same : front ++ separator :: back = other ++ separator :: otherBack) :
    front = other ∧ back = otherBack := by
  have uncut : ∀ {middle rest end' : List α}, separator ∉ rest →
      separator :: rest = middle ++ separator :: end' → middle = [] ∧ rest = end' := by
    intro middle rest end' restFree split
    cases middle with
    | nil => exact ⟨rfl, (List.cons.inj split).2⟩
    | cons head middle =>
        have inside : separator ∈ rest := by
          rw [(List.cons.inj split).2]
          simp
        exact absurd inside restFree
  rcases List.append_eq_append_iff.mp same with ⟨middle, longer, split⟩ | ⟨middle, longer, split⟩
  · obtain ⟨rfl, rfl⟩ := uncut free split
    exact ⟨by simpa using longer.symm, rfl⟩
  · obtain ⟨rfl, rfl⟩ := uncut otherFree split
    exact ⟨by simpa using longer, rfl⟩

theorem KeyWord.dot_not_mem_text (word : KeyWord) : '.' ∉ word.text.toList := by
  cases word <;> decide

theorem KeyWord.text_inj {word other : KeyWord} : word.text = other.text ↔ word = other := by
  cases word <;> cases other <;> decide

namespace Store

theorem toList_joinKey (owner word : String) :
    (joinKey owner word).toList = owner.toList ++ '.' :: word.toList := by
  simp [joinKey]

/-- Keys are the same only if they are for the same word of the same owner. -/
@[simp]
theorem key_inj {owner other : String} {word otherWord : KeyWord} :
    key owner word = key other otherWord ↔ owner = other ∧ word = otherWord := by
  constructor
  · intro same
    have sameLists := congrArg String.toList same
    unfold key at sameLists
    rw [toList_joinKey, toList_joinKey] at sameLists
    obtain ⟨sameOwner, sameWord⟩ :=
      append_separator_inj word.dot_not_mem_text otherWord.dot_not_mem_text sameLists
    exact ⟨String.toList_inj.mp sameOwner, KeyWord.text_inj.mp (String.toList_inj.mp sameWord)⟩
  · rintro ⟨rfl, rfl⟩
    rfl

/-- Both stores hold the same settings for the entry. A list of entries is no setting of one. -/
def AgreeOn (store other : Store) (entry : String) : Prop :=
  ∀ word, word ≠ .selections →
    store.settings[key entry word]? = other.settings[key entry word]?

variable {store other : Store}

theorem text?_congr {key : String} (same : store.settings[key]? = other.settings[key]?) :
    store.text? key = other.text? key := by
  unfold text?
  rw [same]

theorem spans?_congr {key : String} (same : store.settings[key]? = other.settings[key]?) :
    store.spans? key = other.spans? key := by
  unfold spans?
  rw [same]

theorem names?_congr {key : String} (same : store.settings[key]? = other.settings[key]?) :
    store.names? key = other.names? key := by
  unfold names?
  rw [same]

theorem names?_set (store : Store) (key : String) (entries : List String) :
    (store.set key (.names entries)).names? key = some entries := by
  unfold names?
  rw [getElem?_set, if_pos rfl]

/-- A write under a key that is not the entry's leaves the entry's settings alone. -/
theorem agreeOn_set {written entry : String}
    (foreign : ∀ word, word ≠ .selections → written ≠ key entry word) (value : Setting) :
    (store.set written value).AgreeOn store entry := by
  intro word owned
  rw [getElem?_set, if_neg (foreign word owned)]

/-- Listing entries, under whatever root, is no write to the settings of an entry. -/
theorem agreeOn_set_selections (root entry : String) (value : Setting) :
    (store.set (key root .selections) value).AgreeOn store entry := by
  apply agreeOn_set
  intro word owned same
  exact owned (key_inj.mp same).2.symm

end Store

theorem RuleSource.read_congr {store other : Store} {entry : String}
    (agree : store.AgreeOn other entry) (catalog : Catalog) :
    read store catalog entry = read other catalog entry := by
  unfold read
  dsimp only
  rw [Store.text?_congr (agree .module (by decide)), Store.text?_congr (agree .id (by decide)),
    Store.text?_congr (agree .context (by decide)),
    Store.spans?_congr (agree .included (by decide)),
    Store.spans?_congr (agree .excluded (by decide))]

theorem Rule.load_congr {store other : Store} {entry : String}
    (agree : store.AgreeOn other entry) (catalog : Catalog) :
    load store catalog entry = load other catalog entry := by
  unfold load
  rw [RuleSource.read_congr agree]

end InstrumentScope
