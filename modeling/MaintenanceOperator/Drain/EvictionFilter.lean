import MaintenanceOperator.Api.Encoding
import Mathlib.Data.Finset.Basic

/-!
# The pod eviction filter

Port of `PodEvictionFiterEntry.Match` in `api/v1alpha1/utils.go` and of
`drainFilterFromPodEvictionFilters` in `internal/drain/request.go`. Regular expressions are a parameter:
what compiles, and what a compiled one matches. Go ranges over a map in some order, which may be another
one each time, so the order is a parameter, too. `Match` dereferences the regex of its entry without
looking, and the CRD does not require one: the filter panics on the first entry without a regex, unless
an entry before it has already decided that the pod is to be deleted (`podEvictionFilter_total_iff`).
-/

namespace MaintenanceOperator
open Lib

/-- What the filter reads of a Go `corev1.Container`: the names in `Resources.Requests`. -/
structure Container where
  requests : Finset String
  deriving DecidableEq

/-- What the filter reads of a Go `corev1.Pod`. -/
structure Pod where
  containers : List Container
  deriving DecidableEq

/-- Go package `regexp`. -/
structure Regexp where
  Compiled : Type
  compile : String → Option Compiled
  matchString : Compiled → String → Bool

/-- The order of each `range` over a map of requests: that of the `j`-th container, for the `i`-th
entry. -/
structure MapOrder where
  range : Nat → Nat → Finset String → List String
  mem_range : ∀ i j names name, name ∈ range i j names ↔ name ∈ names

/-- How a Go function ends that does not return. -/
inductive Panic where
  | nilDereference
  deriving DecidableEq, Repr

/-- Go `drain.PodDeleteStatus`. -/
structure PodDeleteStatus where
  delete : Bool
  reason : String
  message : String
  deriving DecidableEq, Repr

section Filter
variable (R : Regexp) (order : MapOrder)

/-- Go `PodEvictionFiterEntry.Match`, for the `i`-th entry. -/
def PodEvictionFiterEntry.matchPod (e : PodEvictionFiterEntry) (i : Nat) (pod : Pod) :
    Except Panic Bool :=
  match e.byResourceNameRegex with
  | none => .error .nilDereference
  | some regex =>
    match R.compile regex with
    | none => .ok false
    | some re => .ok (pod.containers.zipIdx.any fun c =>
        (order.range i c.2 c.1.requests).any (R.matchString re))

/-- The loop over the entries from the `i`-th on; `||` does not evaluate its right side if the left one
is true. -/
def anyMatch (pod : Pod) : Nat → Bool → List PodEvictionFiterEntry → Except Panic Bool
  | _, toDelete, [] => .ok toDelete
  | i, toDelete, e :: f => do
    let toDelete ← if toDelete then .ok true else e.matchPod R order i pod
    anyMatch pod (i + 1) toDelete f

/-- Go `drainFilterFromPodEvictionFilters`, applied to a pod. -/
def drainFilterFromPodEvictionFilters (f : List PodEvictionFiterEntry) (pod : Pod) :
    Except Panic PodDeleteStatus := do
  let toDelete ← anyMatch R order pod 0 false f
  return { delete := toDelete, reason := "PodMatchPodEvictionFiters", message := "" }

end Filter

/-- The entry has a regex that compiles and matches a resource that the pod requests. -/
def Selects (R : Regexp) (e : PodEvictionFiterEntry) (pod : Pod) : Prop :=
  ∃ regex re, e.byResourceNameRegex = some regex ∧ R.compile regex = some re ∧
    ∃ c ∈ pod.containers, ∃ name ∈ c.requests, R.matchString re name = true

section Filter
variable {R : Regexp} {order : MapOrder} {e : PodEvictionFiterEntry} {f f' : List PodEvictionFiterEntry}
  {pod : Pod} {i : Nat} {b toDelete : Bool}

lemma Selects.regex (h : Selects R e pod) : e.byResourceNameRegex ≠ none := by
  obtain ⟨regex, re, hr, -⟩ := h
  simp [hr]

/-- The order of the containers does not matter. -/
lemma Selects.perm {cs : List Container} (hp : cs.Perm pod.containers) :
    Selects R e ⟨cs⟩ ↔ Selects R e pod := by
  simp only [Selects, hp.mem_iff]

/-- What the nested loops find. -/
lemma any_range_iff {re : R.Compiled} :
    pod.containers.zipIdx.any (fun c => (order.range i c.2 c.1.requests).any (R.matchString re)) = true ↔
      ∃ c ∈ pod.containers, ∃ name ∈ c.requests, R.matchString re name = true := by
  simp only [List.any_eq_true, order.mem_range]
  constructor
  · rintro ⟨c, hc, name, hname, hmatch⟩
    exact ⟨c.1, List.fst_mem_of_mem_zipIdx hc, name, hname, hmatch⟩
  · rintro ⟨c, hc, name, hname, hmatch⟩
    obtain ⟨j, hj⟩ := List.mem_iff_getElem?.mp hc
    exact ⟨(c, j), List.mem_zipIdx_iff_getElem?.mpr hj, name, hname, hmatch⟩

lemma matchPod_of_none (h : e.byResourceNameRegex = none) :
    e.matchPod R order i pod = .error .nilDereference := by
  simp [PodEvictionFiterEntry.matchPod, h]

/-- An entry with a regex is evaluated to whether it selects the pod. -/
lemma matchPod_of_regex (R : Regexp) (order : MapOrder) (i : Nat) (pod : Pod)
    (h : e.byResourceNameRegex ≠ none) :
    ∃ b, e.matchPod R order i pod = .ok b ∧ (b = true ↔ Selects R e pod) := by
  obtain ⟨regex, hr⟩ := Option.ne_none_iff_exists'.mp h
  simp only [PodEvictionFiterEntry.matchPod, Selects, hr]
  cases hre : R.compile regex with
  | none => exact ⟨false, rfl, by simp [hre]⟩
  | some re =>
    refine ⟨_, rfl, any_range_iff.trans ⟨fun hex => ⟨regex, re, rfl, hre, hex⟩, ?_⟩⟩
    rintro ⟨_, _, ⟨⟩, hre', hex⟩
    obtain rfl : re = _ := Option.some.inj (hre.symm.trans hre')
    exact hex

/-- Entries without a regex come only after one that selects the pod. -/
def Shielded (R : Regexp) (pod : Pod) (f : List PodEvictionFiterEntry) : Prop :=
  ∀ pre e post, f = pre ++ e :: post → e.byResourceNameRegex = none → ∃ e' ∈ pre, Selects R e' pod

lemma shielded_of_regex (h : ∀ e ∈ f, e.byResourceNameRegex ≠ none) : Shielded R pod f := by
  rintro pre e post rfl hnone
  exact absurd hnone (h e (by simp))

lemma shielded_cons : Shielded R pod (e :: f) ↔
    e.byResourceNameRegex ≠ none ∧ (Selects R e pod ∨ Shielded R pod f) := by
  constructor
  · intro h
    refine ⟨fun hnone => ?_, or_iff_not_imp_left.mpr fun hsel pre e' post hf hnone => ?_⟩
    · obtain ⟨e', he', -⟩ := h [] e f rfl hnone
      cases he'
    · obtain ⟨e'', he'', hsel''⟩ := h (e :: pre) e' post (by rw [hf]; rfl) hnone
      rcases List.mem_cons.mp he'' with rfl | hmem
      · exact absurd hsel'' hsel
      · exact ⟨e'', hmem, hsel''⟩
  · rintro ⟨hregex, h⟩ pre e' post hf hnone
    -- the entry without a regex is not the first one, and what shields it comes before it
    cases pre with
    | nil =>
      obtain ⟨rfl, -⟩ := List.cons.inj hf
      exact absurd hnone hregex
    | cons e₁ pre =>
      obtain ⟨rfl, hf'⟩ := List.cons.inj hf
      rcases h with hsel | hsh
      · exact ⟨e, .head _, hsel⟩
      · obtain ⟨e'', he'', hsel''⟩ := hsh pre e' post hf' hnone
        exact ⟨e'', .tail _ he'', hsel''⟩

/-- Once an entry has selected the pod, the others are not looked at. -/
lemma anyMatch_true : anyMatch R order pod i true f = .ok true := by
  induction f generalizing i with
  | nil => rfl
  | cons e f ih => exact ih

/-- One round of the loop, before an entry has selected the pod. -/
lemma anyMatch_cons : anyMatch R order pod i false (e :: f) =
    (e.matchPod R order i pod).bind fun toDelete => anyMatch R order pod (i + 1) toDelete f := rfl

lemma anyMatch_cons_ok (h : e.matchPod R order i pod = .ok toDelete) :
    anyMatch R order pod i false (e :: f) = anyMatch R order pod (i + 1) toDelete f := by
  rw [anyMatch_cons, h]
  rfl

lemma anyMatch_cons_none (h : e.byResourceNameRegex = none) :
    anyMatch R order pod i false (e :: f) = .error .nilDereference := by
  rw [anyMatch_cons, matchPod_of_none h]
  rfl

/-- The loop comes to its end exactly if the entries are shielded. -/
lemma anyMatch_ok_iff : (∃ b, anyMatch R order pod i false f = .ok b) ↔ Shielded R pod f := by
  induction f generalizing i with
  | nil => exact ⟨fun _ => shielded_of_regex nofun, fun _ => ⟨false, rfl⟩⟩
  | cons e f ih =>
    rw [shielded_cons]
    by_cases h : e.byResourceNameRegex = none
    · simp [anyMatch_cons_none h, h]
    · obtain ⟨b, hb, hsel⟩ := matchPod_of_regex R order i pod h
      rw [anyMatch_cons_ok hb]
      cases b with
      | true => simp [anyMatch_true, h, hsel.mp rfl]
      | false =>
        have hno : ¬ Selects R e pod := fun hs => by simpa using hsel.mpr hs
        simpa [h, hno] using ih

/-- It then has found whether some entry selects the pod. -/
lemma anyMatch_eq_true (h : anyMatch R order pod i false f = .ok b) :
    b = true ↔ ∃ e ∈ f, Selects R e pod := by
  induction f generalizing i with
  | nil =>
    obtain rfl := Except.ok.inj h
    simp
  | cons e f ih =>
    by_cases hnone : e.byResourceNameRegex = none
    · rw [anyMatch_cons_none hnone] at h
      cases h
    · obtain ⟨b₁, hb, hsel⟩ := matchPod_of_regex R order i pod hnone
      rw [anyMatch_cons_ok hb] at h
      cases b₁ with
      | true =>
        rw [anyMatch_true] at h
        simp [← Except.ok.inj h, hsel.mp rfl]
      | false =>
        have hno : ¬ Selects R e pod := fun hs => by simpa using hsel.mpr hs
        simpa [hno] using ih h

/-- The filter returns exactly if the loop does. -/
lemma filter_ok_iff : (∃ st, drainFilterFromPodEvictionFilters R order f pod = .ok st) ↔
    ∃ b, anyMatch R order pod 0 false f = .ok b := by
  unfold drainFilterFromPodEvictionFilters
  cases anyMatch R order pod 0 false f with
  | error err => simp [bind, Except.bind]
  | ok b => exact ⟨fun _ => ⟨b, rfl⟩, fun _ => ⟨_, rfl⟩⟩

/-- With a regex in every entry, the filter is the disjunction of its entries. -/
lemma filter_eq (h : ∀ e ∈ f, e.byResourceNameRegex ≠ none) (hb : b = true ↔ ∃ e ∈ f, Selects R e pod) :
    drainFilterFromPodEvictionFilters R order f pod = .ok ⟨b, "PodMatchPodEvictionFiters", ""⟩ := by
  have hshielded : Shielded R pod f := shielded_of_regex h
  obtain ⟨b', hb'⟩ : ∃ b', anyMatch R order pod 0 false f = .ok b' := anyMatch_ok_iff.mpr hshielded
  obtain rfl : b' = b := by
    rw [Bool.eq_iff_iff, anyMatch_eq_true hb', hb]
  simp [drainFilterFromPodEvictionFilters, hb', bind, Except.bind, pure, Except.pure]

end Filter

/-- The filter returns on a pod exactly if each entry without a regex comes after an entry that selects
the pod. With a regex in every entry it tells whether some entry selects the pod, in whatever order the
entries, the containers and the requests are gone through. -/
theorem podEvictionFilter_total_iff (R : Regexp) (f : List PodEvictionFiterEntry) (pod : Pod) :
    (∀ order, (∃ st, drainFilterFromPodEvictionFilters R order f pod = .ok st) ↔ Shielded R pod f) ∧
    ((∀ e ∈ f, e.byResourceNameRegex ≠ none) →
      ∃ st : PodDeleteStatus, (st.delete = true ↔ ∃ e ∈ f, Selects R e pod) ∧
        ∀ order f' cs, f'.Perm f → cs.Perm pod.containers →
          drainFilterFromPodEvictionFilters R order f' ⟨cs⟩ = .ok st) := by
  refine ⟨fun order => filter_ok_iff.trans anyMatch_ok_iff, fun h => ?_⟩
  classical
  refine ⟨⟨decide (∃ e ∈ f, Selects R e pod), "PodMatchPodEvictionFiters", ""⟩, by simp, ?_⟩
  -- the answer is fixed before the orders of the map and of the entries are
  intro order f' cs hf hcs
  refine filter_eq (fun e he => h e (hf.mem_iff.mp he)) ?_
  simp only [decide_eq_true_eq, hf.mem_iff, Selects.perm hcs]

/-- Literal patterns, of which an opening parenthesis is none. -/
def literals : Regexp := ⟨String, fun s => if s = "(" then none else some s, fun re s => re = s⟩

/-- A pod with a container that requests a GPU. -/
def gpuPod : Pod := ⟨[⟨{"cpu"}⟩, ⟨{"cpu", "nvidia.com/gpu"}⟩]⟩

/-- A pattern that does not compile and one that matches: the pod is to be deleted. -/
theorem podEvictionFilter_total_gpu :
    ∃ st : PodDeleteStatus, st.delete = true ∧
      ∀ order f cs, f.Perm [⟨some "("⟩, ⟨some "nvidia.com/gpu"⟩] → cs.Perm gpuPod.containers →
        drainFilterFromPodEvictionFilters literals order f ⟨cs⟩ = .ok st := by
  obtain ⟨st, hdelete, heq⟩ := (podEvictionFilter_total_iff literals
    [⟨some "("⟩, ⟨some "nvidia.com/gpu"⟩] gpuPod).2 (by decide)
  refine ⟨st, hdelete.mpr ⟨⟨some "nvidia.com/gpu"⟩, by decide, ?_⟩, heq⟩
  exact ⟨_, "nvidia.com/gpu", rfl, rfl, ⟨{"cpu", "nvidia.com/gpu"}⟩, by decide, "nvidia.com/gpu",
    by decide, rfl⟩

/-- The spec of a user who gave one empty entry. -/
def emptyEntrySpec : NodeMaintenanceSpec :=
  ⟨"requestor.nvidia.com", [], "node-1", true, none, some ⟨false, "", 300, false, [⟨none⟩]⟩⟩

/-- What that user sent. -/
def emptyEntryJson : Json :=
  .obj [("requestorID", .str "requestor.nvidia.com"), ("nodeName", .str "node-1"),
    ("drainSpec", .obj [("podEvictionFilters", .arr [.obj []])])]

/-- The CRD admits the empty entry, and the filter made of it panics on every pod. -/
theorem podEvictionFilter_panics :
    CrdAdmits emptyEntrySpec ∧ ∃ drainSpec, emptyEntrySpec.drainSpec = some drainSpec ∧
      ∀ R order pod, drainFilterFromPodEvictionFilters R order drainSpec.podEvictionFilters pod =
        .error .nilDereference :=
  ⟨⟨emptyEntryJson, by decide, by decide⟩, _, rfl, fun _ _ _ => rfl⟩

end MaintenanceOperator
