import TripleCube.Assoc

/-! The keys of a finite map. Only binding a new key and taking a key away change them. -/
namespace TripleCube.Assoc

variable {κ α : Type}

/-- The keys, in the order in which they were first bound. -/
def keys (bindings : Assoc κ α) : List κ := bindings.map Prod.fst

@[simp] theorem keys_nil : keys ([] : Assoc κ α) = [] := rfl

@[simp] theorem keys_cons (binding : κ × α) (rest : Assoc κ α) :
    keys (binding :: rest) = binding.1 :: keys rest := rfl

theorem length_keys (bindings : Assoc κ α) : bindings.keys.length = bindings.length :=
  List.length_map _

variable [DecidableEq κ] {bindings : Assoc κ α} {key : κ}

@[simp] theorem keys_modify (bindings : Assoc κ α) (key : κ) (f : α → α) :
    keys (bindings.modify key f) = bindings.keys := by
  rw [keys, modify, List.map_map]
  refine List.map_congr_left fun binding _ => ?_
  by_cases same : binding.1 = key <;> simp [same]

@[simp] theorem keys_erase (bindings : Assoc κ α) (key : κ) :
    keys (bindings.erase key) = bindings.keys.erase key := by
  fun_induction erase bindings key with
  | case1 => rfl
  | case2 key value rest => simp
  | case3 key other value rest different ih => simp [different, ih]

theorem keys_insert (fresh : key ∉ bindings.keys) (value : α) :
    keys (bindings.insert key value) = bindings.keys ++ [key] := by
  fun_induction insert bindings key value with
  | case1 => rfl
  | case2 => simp at fresh
  | case3 key value other old rest different ih =>
    rw [keys_cons, List.mem_cons, not_or] at fresh
    rw [keys_cons, ih fresh.2, keys_cons, List.cons_append]

theorem isSome_find?_iff : (bindings.find? key).isSome ↔ key ∈ bindings.keys := by
  induction bindings with
  | nil => simp
  | cons first rest ih =>
    obtain ⟨k, value⟩ := first
    rw [find?_cons, keys_cons, List.mem_cons, ← ih]
    by_cases same : k = key
    · simp [same]
    · simp [same, Ne.symm same]

theorem find?_eq_none (unbound : key ∉ bindings.keys) : bindings.find? key = none := by
  rw [← isSome_find?_iff] at unbound
  exact Option.not_isSome_iff_eq_none.mp unbound

theorem find?_of_mem (nodup : bindings.keys.Nodup) {value : α} (bound : (key, value) ∈ bindings) :
    bindings.find? key = some value := by
  induction bindings with
  | nil => cases bound
  | cons first rest ih =>
    obtain ⟨k, other⟩ := first
    rw [keys_cons, List.nodup_cons] at nodup
    rw [find?_cons]
    rcases List.mem_cons.mp bound with same | later
    · cases same
      exact if_pos rfl
    · have listed : key ∈ keys rest := List.mem_map_of_mem later
      rw [if_neg (ne_of_mem_of_not_mem listed nodup.1).symm]
      exact ih nodup.2 later

end TripleCube.Assoc
