/-! Finite maps as lists of bindings. A key is bound at most once, and the list keeps
the order in which keys were first bound. -/
namespace TripleCube

abbrev Assoc (κ α : Type) := List (κ × α)

namespace Assoc

variable {κ α β : Type} [DecidableEq κ]

def find? : Assoc κ α → κ → Option α
  | [], _ => none
  | (k, value) :: rest, key => if k = key then some value else find? rest key

/-- Binds a key. A key that is already bound keeps its place. -/
def insert : Assoc κ α → κ → α → Assoc κ α
  | [], key, value => [(key, value)]
  | (k, old) :: rest, key, value =>
    if k = key then (key, value) :: rest else (k, old) :: insert rest key value

def erase : Assoc κ α → κ → Assoc κ α
  | [], _ => []
  | (k, value) :: rest, key => if k = key then rest else (k, value) :: erase rest key

/-- Changes the value of a key, if the key is bound. -/
def modify (bindings : Assoc κ α) (key : κ) (f : α → α) : Assoc κ α :=
  bindings.map fun (k, value) => if k = key then (k, f value) else (k, value)

def mapValues (f : α → β) (bindings : Assoc κ α) : Assoc κ β :=
  bindings.map fun (key, value) => (key, f value)

@[simp] theorem find?_nil (key : κ) : find? ([] : Assoc κ α) key = none := rfl

theorem find?_cons (k key : κ) (value : α) (rest : Assoc κ α) :
    find? ((k, value) :: rest) key = if k = key then some value else find? rest key := rfl

@[simp] theorem find?_insert (bindings : Assoc κ α) (key other : κ) (value : α) :
    find? (insert bindings key value) other =
      if key = other then some value else find? bindings other := by
  fun_induction insert bindings key value <;> grind [find?_cons]

@[simp] theorem find?_modify (bindings : Assoc κ α) (key other : κ) (f : α → α) :
    find? (modify bindings key f) other =
      if key = other then (find? bindings other).map f else find? bindings other := by
  induction bindings with
  | nil => simp [modify]
  | cons head rest ih =>
    simp only [modify, List.map_cons] at ih ⊢
    grind [find?_cons]

@[simp] theorem find?_mapValues (f : α → β) (bindings : Assoc κ α) (key : κ) :
    find? (mapValues f bindings) key = (find? bindings key).map f := by
  induction bindings with
  | nil => rfl
  | cons head rest ih =>
    simp only [mapValues, List.map_cons] at ih ⊢
    rw [find?_cons, find?_cons, ih]
    split <;> rfl

end Assoc

end TripleCube
