/-!
Contract: work on the items of a list that is done side by side.

How workers share out the items, and in which order they finish, is theirs to
choose. What can be relied on is said by `Workers.KeepsOrder`: every result is
collected at the position of the item that it was made from.

Owns:
- workers, and the order of what they collect;
- workers with one task for each item.
-/

namespace InstrumentScope

/-- A way to apply a function to all items of a list and to collect the results. -/
structure Workers where
  collect : {α β : Type} → (α → β) → List α → List β

namespace Workers

/-- At every position the result is that of the item there, and there are no others. -/
def KeepsOrder (workers : Workers) : Prop :=
  ∀ {α β : Type} (work : α → β) (items : List α) (position : Nat),
    (workers.collect work items)[position]? = items[position]?.map work

/-- A task is started for every item, and then each is waited for in turn. -/
def tasks : Workers where
  collect work items :=
    (items.map fun item => Task.spawn fun _ => work item).map Task.get

/-- Workers that keep the order collect what doing the work item by item yields. -/
theorem KeepsOrder.collect_eq_map {workers : Workers} (keepsOrder : workers.KeepsOrder)
    {α β : Type} (work : α → β) (items : List α) :
    workers.collect work items = items.map work := by
  apply List.ext_getElem?
  intro position
  rw [keepsOrder, List.getElem?_map]

theorem keepsOrder_tasks : tasks.KeepsOrder := by
  intro α β work items position
  show ((items.map fun item => Task.spawn fun _ => work item).map Task.get)[position]? = _
  rw [List.map_map, List.getElem?_map]
  rfl

end Workers

end InstrumentScope
