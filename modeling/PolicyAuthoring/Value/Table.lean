import PolicyAuthoring.Value.Basic

/-!
# Ordered tables

Tables keyed by values. An entry keeps the place at which its key was first put, and the key as it
was written then; putting an equal key again replaces what is stored under it. A table with one
entry per key arises from the empty one by `Table.put` and `Table.putNew`.
-/

namespace PolicyAuthoring.Table

variable {α : Type}

/-- What is stored under a key. -/
def lookup (table : Table α) (key : Value) : Option α :=
  (table.find? fun entry => entry.1.same key).map Prod.snd

/-- Whether something is stored under a key. -/
def contains (table : Table α) (key : Value) : Bool :=
  table.any fun entry => entry.1.same key

/-- Store under a key, replacing what was there. -/
def put : Table α → Value → α → Table α
  | [], key, a => [(key, a)]
  | entry :: rest, key, a =>
    if entry.1.same key then (entry.1, a) :: rest else entry :: put rest key a

/-- Store under a key unless something is there. -/
def putNew (table : Table α) (key : Value) (a : α) : Table α :=
  if table.contains key then table else table.put key a

/-- Remove the entry with a key. -/
def erase (table : Table α) (key : Value) : Table α :=
  table.eraseP fun entry => entry.1.same key

/-- The keys in order. -/
def keys (table : Table α) : List Value := table.map Prod.fst

/-- Put entries one after the other into the empty table. -/
def ofEntries (entries : List (Value × α)) : Table α :=
  entries.foldl (fun table entry => table.put entry.1 entry.2) []

@[simp] theorem lookup_nil (key : Value) : lookup ([] : Table α) key = none := rfl

theorem lookup_cons (entry : Value × α) (rest : Table α) (key : Value) :
    lookup (entry :: rest) key = if entry.1.same key then some entry.2 else lookup rest key := by
  unfold lookup
  by_cases h : entry.1.same key <;> simp [h]

/-- A key is contained exactly when looking it up finds something. -/
theorem contains_eq_isSome (table : Table α) (key : Value) :
    table.contains key = (table.lookup key).isSome := by
  induction table with
  | nil => rfl
  | cons entry rest ih =>
    rw [lookup_cons]
    unfold contains at ih ⊢
    by_cases h : entry.1.same key <;> simp [h, ih]

/-- Putting a key that is not there adds its entry at the end. -/
theorem put_of_not_contains {table : Table α} {key : Value} (h : table.contains key = false)
    (a : α) : table.put key a = table ++ [(key, a)] := by
  induction table with
  | nil => rfl
  | cons entry rest ih =>
    simp only [contains, List.any_cons, Bool.or_eq_false_iff] at h
    simp only [put, h.1, List.cons_append]
    rw [ih (by simpa [contains] using h.2)]
    simp

end PolicyAuthoring.Table
