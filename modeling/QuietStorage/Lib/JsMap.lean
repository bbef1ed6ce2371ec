import Mathlib.Data.List.Nodup
import Mathlib.Data.List.Basic
import Mathlib.Tactic.Common

/-!
# Lib.JsMap — the insertion-ordered map of the language

`Map` of ECMAScript: at most one entry for a key, enumerated in the order of first insertion. The
entries are a list whose keys are distinct, and that is a field of the structure, so a map with two
entries for one key cannot be built.

`set` overwrites in place or appends, `delete` removes, `get?` reads. What the modules above use of
them is how a read answers after a write (`get?_set_self`, `get?_set_of_ne`, `get?_delete_self`,
`get?_delete_of_ne`) and that a map of size zero answers nothing (`size_eq_zero_iff`).
-/

set_option autoImplicit false

namespace QuietStorage.Lib

universe u v

/-- An insertion-ordered map with at most one entry for a key. -/
structure JsMap (κ : Type u) (ν : Type v) where
  entries : List (κ × ν)
  keysNodup : (entries.map Prod.fst).Nodup

namespace JsMap

variable {κ : Type u} {ν : Type v}

/-- `new Map()`. -/
def empty : JsMap κ ν := ⟨[], List.nodup_nil⟩

/-- `map.size`. -/
def size (m : JsMap κ ν) : Nat := m.entries.length

/-- `map.keys()`, in the order of the map. -/
def keys (m : JsMap κ ν) : List κ := m.entries.map Prod.fst

/-- `map.values()`, in the order of the map. -/
def values (m : JsMap κ ν) : List ν := m.entries.map Prod.snd

variable [DecidableEq κ]

/-- The value of the entry of a key in a list of entries. -/
def find? (k : κ) : List (κ × ν) → Option ν
  | [] => none
  | e :: es => if e.1 = k then some e.2 else find? k es

/-- `map.get(k)`. -/
def get? (m : JsMap κ ν) (k : κ) : Option ν := find? k m.entries

/-- Overwrite the entry of a key, or append one. -/
def put (k : κ) (v : ν) : List (κ × ν) → List (κ × ν)
  | [] => [(k, v)]
  | e :: es => if e.1 = k then (k, v) :: es else e :: put k v es

theorem put_keys (k : κ) (v : ν) (es : List (κ × ν)) :
    (put k v es).map Prod.fst =
      if k ∈ es.map Prod.fst then es.map Prod.fst else es.map Prod.fst ++ [k] := by
  induction es with
  | nil => rfl
  | cons e es ih =>
    by_cases here : e.1 = k
    · subst here
      simp only [put, if_true, List.map_cons, List.mem_cons, true_or]
    · have elsewhere : ¬ k = e.1 := fun h => here h.symm
      simp only [put, here, if_false, List.map_cons, ih, List.mem_cons, elsewhere, false_or]
      split <;> rfl

/-- `map.set(k, v)`. -/
def set (m : JsMap κ ν) (k : κ) (v : ν) : JsMap κ ν where
  entries := put k v m.entries
  keysNodup := by
    rw [put_keys]
    split
    · exact m.keysNodup
    · next fresh =>
      refine List.nodup_append.mpr ⟨m.keysNodup, List.nodup_singleton k, ?_⟩
      intro a ha b hb equal
      rw [List.mem_singleton] at hb
      exact fresh (hb ▸ equal ▸ ha)

/-- `map.delete(k)`. -/
def delete (m : JsMap κ ν) (k : κ) : JsMap κ ν where
  entries := m.entries.filter fun e => decide (e.1 ≠ k)
  keysNodup := m.keysNodup.sublist (List.filter_sublist.map Prod.fst)

theorem find?_put_self (k : κ) (v : ν) (es : List (κ × ν)) : find? k (put k v es) = some v := by
  induction es with
  | nil => simp only [put, find?, if_true]
  | cons e es ih =>
    by_cases here : e.1 = k
    · simp only [put, here, if_true, find?]
    · simp only [put, here, if_false, find?, ih]

theorem find?_put_of_ne {k j : κ} (v : ν) (other : j ≠ k) (es : List (κ × ν)) :
    find? j (put k v es) = find? j es := by
  have skip : ¬ k = j := fun h => other h.symm
  induction es with
  | nil => simp only [put, find?, skip, if_false]
  | cons e es ih =>
    by_cases here : e.1 = k
    · simp only [put, here, if_true, find?, skip, if_false]
    · simp only [put, here, if_false, find?, ih]

theorem find?_filter {k j : κ} (es : List (κ × ν)) :
    find? j (es.filter fun e => decide (e.1 ≠ k)) = if j = k then none else find? j es := by
  induction es with
  | nil => simp only [List.filter_nil, find?, ite_self]
  | cons e es ih =>
    by_cases gone : e.1 = k
    · rw [List.filter_cons_of_neg (by simp only [gone, ne_eq, not_true, decide_false,
        Bool.false_eq_true, not_false_eq_true]), ih]
      by_cases same : j = k
      · simp only [same, if_true]
      · have skip : ¬ e.1 = j := fun h => same (h ▸ gone)
        simp only [same, if_false, find?, skip]
    · rw [List.filter_cons_of_pos (by simp only [gone, ne_eq, not_false_eq_true, decide_true])]
      by_cases here : e.1 = j
      · have same : ¬ j = k := fun h => gone (here.trans h)
        simp only [find?, here, if_true, same, if_false]
      · simp only [find?, here, if_false, ih]

@[simp] theorem get?_set_self (m : JsMap κ ν) (k : κ) (v : ν) : (m.set k v).get? k = some v :=
  find?_put_self k v m.entries

theorem get?_set_of_ne (m : JsMap κ ν) {k j : κ} (v : ν) (other : j ≠ k) :
    (m.set k v).get? j = m.get? j :=
  find?_put_of_ne v other m.entries

/-- How a read answers after a write, whichever key it asks for. -/
theorem get?_set (m : JsMap κ ν) (k j : κ) (v : ν) :
    (m.set k v).get? j = if j = k then some v else m.get? j := by
  by_cases same : j = k
  · rw [same, get?_set_self, if_pos rfl]
  · rw [get?_set_of_ne m v same, if_neg same]

/-- How a read answers after a deletion. -/
theorem get?_delete (m : JsMap κ ν) (k j : κ) :
    (m.delete k).get? j = if j = k then none else m.get? j :=
  find?_filter m.entries

theorem get?_delete_self (m : JsMap κ ν) (k : κ) : (m.delete k).get? k = none := by
  rw [get?_delete, if_pos rfl]

theorem get?_delete_of_ne (m : JsMap κ ν) {k j : κ} (other : j ≠ k) :
    (m.delete k).get? j = m.get? j := by
  rw [get?_delete, if_neg other]

/-- What a deletion leaves was there. -/
theorem get?_of_get?_delete {m : JsMap κ ν} {k j : κ} {v : ν}
    (left : (m.delete k).get? j = some v) : m.get? j = some v := by
  rw [get?_delete] at left
  split at left
  · cases left
  · exact left

/-- An entry of a list with distinct keys is the one its key finds. -/
theorem find?_of_mem {k : κ} {v : ν} {es : List (κ × ν)} (nodup : (es.map Prod.fst).Nodup)
    (mem : (k, v) ∈ es) : find? k es = some v := by
  induction es with
  | nil => cases mem
  | cons e es ih =>
    rw [List.map_cons, List.nodup_cons] at nodup
    rcases List.mem_cons.mp mem with rfl | mem
    · simp only [find?, if_true]
    · have skip : ¬ e.1 = k := fun h => nodup.1 (h ▸ List.mem_map_of_mem (f := Prod.fst) mem)
      simp only [find?, skip, if_false, ih nodup.2 mem]

/-- What a key finds is an entry. -/
theorem mem_of_find? {k : κ} {v : ν} {es : List (κ × ν)} (found : find? k es = some v) :
    (k, v) ∈ es := by
  induction es with
  | nil => cases found
  | cons e es ih =>
    by_cases here : e.1 = k
    · simp only [find?, here, if_true, Option.some.injEq] at found
      rw [← here, ← found]
      exact List.mem_cons_self
    · simp only [find?, here, if_false] at found
      exact List.mem_cons_of_mem _ (ih found)

/-- The keys are what a read finds something for. -/
theorem mem_keys_iff (m : JsMap κ ν) (k : κ) : k ∈ m.keys ↔ ∃ v, m.get? k = some v := by
  constructor
  · intro mem
    obtain ⟨e, isEntry, rfl⟩ := List.mem_map.mp mem
    exact ⟨e.2, find?_of_mem m.keysNodup isEntry⟩
  · rintro ⟨v, found⟩
    exact List.mem_map.mpr ⟨(k, v), mem_of_find? found, rfl⟩

theorem put_of_fresh {k : κ} (v : ν) {es : List (κ × ν)} (fresh : k ∉ es.map Prod.fst) :
    put k v es = es ++ [(k, v)] := by
  induction es with
  | nil => rfl
  | cons e es ih =>
    rw [List.map_cons, List.mem_cons, not_or] at fresh
    have elsewhere : ¬ e.1 = k := fun same => fresh.1 same.symm
    simp [put, elsewhere, ih fresh.2]

/-- A map of size zero answers no key, and a map that answers no key has size zero. -/
theorem size_eq_zero_iff (m : JsMap κ ν) : m.size = 0 ↔ ∀ k, m.get? k = none := by
  constructor
  · intro none_ k
    have : m.entries = [] := List.length_eq_zero_iff.mp none_
    simp only [get?, this, find?]
  · intro unread
    refine List.length_eq_zero_iff.mpr (List.eq_nil_iff_forall_not_mem.mpr fun e mem => ?_)
    have := unread e.1
    rw [get?, find?_of_mem (v := e.2) m.keysNodup mem] at this
    cases this

end JsMap

end QuietStorage.Lib
