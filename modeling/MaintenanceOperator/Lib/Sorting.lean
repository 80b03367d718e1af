import Mathlib.Order.Compare
import Mathlib.Data.List.Sort

/-!
# Sorting functions

What a library sort promises for a comparison function: a permutation of its input that is in order.
Nothing is said about the order of elements that compare equal.
-/

namespace MaintenanceOperator.Lib

/-- A sorting function for the comparison `cmp`. -/
structure Sorter {α : Type} (cmp : α → α → Ordering) where
  sort : List α → List α
  perm : ∀ l, (sort l).Perm l
  sorted : ∀ l, (sort l).Pairwise fun a b => (cmp a b).isLE

namespace Sorter
variable {α : Type} {cmp : α → α → Ordering}

lemma mem_sort (s : Sorter cmp) {l : List α} {a : α} : a ∈ s.sort l ↔ a ∈ l := (s.perm l).mem_iff

/-- Where only equal elements compare equal, a list and its permutations have one sorted order,
whatever sorts them. -/
lemma sort_eq_sort [Std.OrientedCmp cmp] (s s' : Sorter cmp) {l l' : List α} (h : l.Perm l')
    (heq : ∀ a ∈ l, ∀ b ∈ l, cmp a b = .eq → a = b) : s.sort l = s'.sort l' := by
  refine List.Perm.eq_of_pairwise ?_ (s.sorted l) (s'.sorted l')
    ((s.perm l).trans (h.trans (s'.perm l').symm))
  intro a b ha hb hab hba
  refine heq a (s.mem_sort.mp ha) b (h.mem_iff.mpr (s'.mem_sort.mp hb)) ?_
  rw [@Std.OrientedCmp.eq_swap _ cmp] at hba
  cases hcmp : cmp a b with
  | lt => simp [hcmp] at hba
  | eq => rfl
  | gt => simp [hcmp] at hab

/-- Insertion sort, for a comparison that is a total preorder. -/
def insertion (cmp : α → α → Ordering) [Std.TransCmp cmp] : Sorter cmp where
  sort := List.insertionSort fun a b => (cmp a b).isLE
  perm := List.perm_insertionSort _
  sorted := by
    have total : Std.Total fun a b : α => (cmp a b).isLE = true := by
      constructor
      intro a b
      have swap : cmp b a = (cmp a b).swap := Std.OrientedCmp.eq_swap
      rw [swap]
      cases cmp a b <;> simp
    have trans : IsTrans α fun a b => (cmp a b).isLE = true :=
      ⟨fun _ _ _ => Std.TransCmp.isLE_trans⟩
    exact List.pairwise_insertionSort _

end Sorter
end MaintenanceOperator.Lib
