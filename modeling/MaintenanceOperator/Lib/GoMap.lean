import Mathlib.Data.List.Basic

/-!
# String-keyed maps

Go maps with string keys (`map[string]V`), kept as association lists so that values stay
computable and comparable. `get?` is the two-value index expression `v, ok := m[k]`, `set` is
assignment, `delete` is the builtin of the same name. Only the key lookups matter to the clients:
every lemma below says what a lookup returns after one operation.
-/

namespace MaintenanceOperator.Lib

/-- A map from strings to `V`. -/
abbrev GoMap (V : Type) := List (String × V)

namespace GoMap
variable {V : Type}

/-- The value stored under `k`, if any (Go `v, ok := m[k]`). -/
def get? (m : GoMap V) (k : String) : Option V :=
  List.lookup k m

/-- Removal of `k` (Go `delete(m, k)`). -/
def delete (m : GoMap V) (k : String) : GoMap V :=
  m.filter (fun kv => kv.1 ≠ k)

/-- Assignment (Go `m[k] = v`). -/
def set (m : GoMap V) (k : String) (v : V) : GoMap V :=
  (k, v) :: delete m k

@[simp] lemma get?_nil (k : String) : get? ([] : GoMap V) k = none := rfl

lemma get?_cons (k k' : String) (v : V) (m : GoMap V) :
    get? ((k', v) :: m) k = if k = k' then some v else get? m k := by
  unfold get?
  by_cases e : k = k'
  · subst e; simp
  · have hb : (k == k') = false := by simpa using e
    rw [List.lookup_cons, hb, if_neg e]

lemma get?_append (m m' : GoMap V) (k : String) :
    get? (m ++ m' : GoMap V) k = (get? m k).or (get? m' k) := by
  induction m with
  | nil => simp
  | cons kv m ih =>
    obtain ⟨k', v⟩ := kv
    rw [List.cons_append, get?_cons, get?_cons, ih]
    split <;> simp

@[simp] lemma get?_delete_self (m : GoMap V) (k : String) : get? (delete m k) k = none := by
  induction m with
  | nil => rfl
  | cons kv m ih =>
    obtain ⟨k', v⟩ := kv
    by_cases e : k' = k
    · simpa [delete, e] using ih
    · have hf : delete ((k', v) :: m) k = (k', v) :: delete m k := by simp [delete, e]
      rw [hf, get?_cons, if_neg (Ne.symm e), ih]

@[simp] lemma get?_delete_ne {m : GoMap V} {k k' : String} (ne : k ≠ k') :
    get? (delete m k') k = get? m k := by
  induction m with
  | nil => rfl
  | cons kv m ih =>
    obtain ⟨k'', v⟩ := kv
    by_cases e : k'' = k'
    · subst e
      have hf : delete ((k'', v) :: m) k'' = delete m k'' := by simp [delete]
      rw [hf, ih, get?_cons, if_neg ne]
    · have hf : delete ((k'', v) :: m) k' = (k'', v) :: delete m k' := by simp [delete, e]
      rw [hf, get?_cons, get?_cons, ih]

@[simp] lemma get?_set_self (m : GoMap V) (k : String) (v : V) :
    get? (set m k v) k = some v := by
  simp [set, get?_cons]

@[simp] lemma get?_set_ne {m : GoMap V} {k k' : String} (v : V) (ne : k ≠ k') :
    get? (set m k' v) k = get? m k := by
  rw [set, get?_cons, if_neg ne, get?_delete_ne ne]

end GoMap
end MaintenanceOperator.Lib
