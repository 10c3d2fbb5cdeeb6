import Mathlib

/-!
# Stores with one slot per key

A store is a function from keys to optional values. `storeAll` puts a list of
entries in, one after the other; with distinct keys no entry overwrites another.
-/
namespace VelumOS.Base.KeyedStore

variable {κ ν : Type} [DecidableEq κ]

def storeAll (store : κ → Option ν) (entries : List (κ × ν)) : κ → Option ν :=
  entries.foldl (fun store entry => Function.update store entry.1 (some entry.2)) store

@[simp] theorem storeAll_nil (store : κ → Option ν) : storeAll store [] = store := rfl

@[simp] theorem storeAll_cons (store : κ → Option ν) (entry : κ × ν) (rest : List (κ × ν)) :
    storeAll store (entry :: rest) =
      storeAll (Function.update store entry.1 (some entry.2)) rest := rfl

/-- A key without an entry keeps its slot. -/
theorem storeAll_of_absent (store : κ → Option ν) (entries : List (κ × ν)) (key : κ)
    (absent : key ∉ entries.map Prod.fst) : storeAll store entries key = store key := by
  induction entries generalizing store with
  | nil => rfl
  | cons entry rest ih =>
    rw [List.map_cons, List.mem_cons, not_or] at absent
    rw [storeAll_cons, ih _ absent.2, Function.update_of_ne absent.1]

/-- Distinct keys: each entry is in its slot. -/
theorem storeAll_of_mem (store : κ → Option ν) (entries : List (κ × ν)) (key : κ) (value : ν)
    (unique : (entries.map Prod.fst).Nodup) (member : (key, value) ∈ entries) :
    storeAll store entries key = some value := by
  induction entries generalizing store with
  | nil => cases member
  | cons entry rest ih =>
    rw [List.map_cons, List.nodup_cons] at unique
    rw [storeAll_cons]
    rcases List.mem_cons.mp member with rfl | later
    · rw [storeAll_of_absent _ _ _ unique.1, Function.update_self]
    · exact ih _ unique.2 later

/-- What a slot holds after entries with distinct keys were stored. -/
theorem storeAll_eq_some_iff (store : κ → Option ν) (entries : List (κ × ν)) (key : κ) (value : ν)
    (unique : (entries.map Prod.fst).Nodup) :
    storeAll store entries key = some value ↔ (key, value) ∈ entries ∨
      (key ∉ entries.map Prod.fst ∧ store key = some value) := by
  by_cases present : key ∈ entries.map Prod.fst
  · obtain ⟨⟨found, held⟩, member, rfl⟩ := List.mem_map.mp present
    have stored := storeAll_of_mem store entries found held unique member
    constructor
    · intro same
      rw [stored] at same
      exact .inl (Option.some.inj same ▸ member)
    · intro either
      rcases either with inside | ⟨absent, _⟩
      · exact storeAll_of_mem store entries found value unique inside
      · exact absurd present absent
  · rw [storeAll_of_absent store entries key present]
    constructor
    · exact fun old => .inr ⟨present, old⟩
    · intro either
      rcases either with inside | ⟨_, old⟩
      · exact absurd (List.mem_map_of_mem inside) present
      · exact old

/-- Storing empties no slot. -/
theorem storeAll_isSome (store : κ → Option ν) (entries : List (κ × ν)) (key : κ)
    (full : (store key).isSome) : (storeAll store entries key).isSome := by
  induction entries generalizing store with
  | nil => exact full
  | cons entry rest ih =>
    rw [storeAll_cons]
    apply ih
    by_cases same : key = entry.1
    · rw [same, Function.update_self]
      rfl
    · rwa [Function.update_of_ne same]

end VelumOS.Base.KeyedStore
