import Mathlib.Data.List.Nodup

/-!
# Keyed stores

A finite collection of objects in which every key occurs once: what a list of API objects, keyed by
name, is to its readers. The uniqueness of keys is a field of the structure, so a store with two
objects under one key cannot be built and membership in `items` is the same as a lookup
(`Store.mem_items`).
-/

namespace MaintenanceOperator.Lib

/-- A finite set of objects with pairwise distinct keys. -/
structure Store (α : Type) {κ : Type} (key : α → κ) where
  items : List α
  nodup : (items.map key).Nodup

namespace Store
variable {α κ : Type} {key : α → κ} [DecidableEq κ]

/-- The object stored under `k`. -/
def get (s : Store α key) (k : κ) : Option α :=
  s.items.find? (fun a => key a = k)

/-- Remove the object stored under `k`, if any. -/
def erase (s : Store α key) (k : κ) : Store α key where
  items := s.items.filter (fun a => key a ≠ k)
  nodup := s.nodup.sublist (List.filter_sublist.map key)

/-- Store `a` under its own key, replacing what was there. -/
def put (s : Store α key) (a : α) : Store α key where
  items := a :: (s.erase (key a)).items
  nodup := by
    rw [List.map_cons, List.nodup_cons]
    refine ⟨?_, (s.erase (key a)).nodup⟩
    simp [erase]

/-- The store without objects. -/
def empty : Store α key := ⟨[], by simp⟩

/-- The store of a list of objects; later ones under the same key are dropped. -/
def ofList (l : List α) : Store α key := l.foldr (fun a s => s.put a) empty

lemma get_mem {s : Store α key} {k : κ} {a : α} (h : s.get k = some a) : a ∈ s.items :=
  List.mem_of_find?_eq_some h

lemma key_of_get {s : Store α key} {k : κ} {a : α} (h : s.get k = some a) : key a = k := by
  simpa using List.find?_some h

/-- Members are exactly what the lookups return. -/
lemma mem_items {s : Store α key} {a : α} : a ∈ s.items ↔ s.get (key a) = some a := by
  refine ⟨fun ha => ?_, get_mem⟩
  cases e : s.get (key a) with
  | none =>
    have hn := List.find?_eq_none.mp e a ha
    simp at hn
  | some b =>
    have hb := List.inj_on_of_nodup_map s.nodup (get_mem e) ha (key_of_get e)
    rw [hb]

@[simp] lemma get_erase_self (s : Store α key) (k : κ) : (s.erase k).get k = none := by
  simp [get, erase]

@[simp] lemma get_erase_ne {s : Store α key} {k k' : κ} (ne : k ≠ k') :
    (s.erase k').get k = s.get k := by
  simp only [get, erase, List.find?_filter]
  congr 1
  funext a
  by_cases e : key a = k <;> simp [e, ne]

@[simp] lemma get_put_self (s : Store α key) (a : α) : (s.put a).get (key a) = some a := by
  simp [get, put]

@[simp] lemma get_put_ne {s : Store α key} {k : κ} {a : α} (ne : k ≠ key a) :
    (s.put a).get k = s.get k := by
  have h : (s.put a).get k = (s.erase (key a)).get k := by
    simp [get, put, Ne.symm ne]
  rw [h, get_erase_ne ne]

end Store
end MaintenanceOperator.Lib
