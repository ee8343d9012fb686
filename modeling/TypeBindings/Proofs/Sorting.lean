import Mathlib.Data.List.Sort
import TypeBindings.Sorted

/-!
# Sorting

`sortBy` is the insertion sort of the library (`sortBy_eq_insertionSort`), so its laws are the library's. A list in
which no two elements are equal in the order is sorted to the same list in whatever order it came (`sortBy_eq_of_perm`).
`distinct` drops no element (`mem_distinct`) and gives the different elements in the order in which they first come
(`firstsOf_iff`).
-/

namespace TypeBindings

variable {α : Type} {le : α → α → Bool}

theorem insertBy_eq_orderedInsert (a : α) : ∀ xs : List α,
    insertBy le a xs = xs.orderedInsert (fun a b => le a b = true) a
  | [] => rfl
  | b :: rest => by
    rw [insertBy, List.orderedInsert_cons, insertBy_eq_orderedInsert a rest]

theorem sortBy_eq_insertionSort : ∀ xs : List α, sortBy le xs = xs.insertionSort fun a b => le a b = true
  | [] => rfl
  | a :: rest => by
    rw [sortBy, sortBy_eq_insertionSort rest, insertBy_eq_orderedInsert, List.insertionSort_cons]

theorem sortBy_perm (xs : List α) : (sortBy le xs).Perm xs := by
  rw [sortBy_eq_insertionSort]
  exact List.perm_insertionSort _ xs

theorem mem_sortBy {xs : List α} {a : α} : a ∈ sortBy le xs ↔ a ∈ xs :=
  (sortBy_perm xs).mem_iff

/-- What is sorted by an order is in that order. -/
theorem pairwise_sortBy_of_order (htotal : ∀ a b, le a b = true ∨ le b a = true)
    (htrans : ∀ a b c, le a b = true → le b c = true → le a c = true) (xs : List α) :
    (sortBy le xs).Pairwise fun a b => le a b = true := by
  have : Std.Total fun a b => le a b = true := ⟨htotal⟩
  have : IsTrans α fun a b => le a b = true := ⟨htrans⟩
  rw [sortBy_eq_insertionSort]
  exact List.pairwise_insertionSort _ xs

/-- What is sorted by a number is in the order of the numbers. -/
theorem pairwise_sortBy (key : α → Nat) (xs : List α) :
    (sortBy (fun a b => decide (key a ≤ key b)) xs).Pairwise fun a b => key a ≤ key b := by
  have hsorted : (sortBy (fun a b => decide (key a ≤ key b)) xs).Pairwise fun a b => decide (key a ≤ key b) = true := by
    refine pairwise_sortBy_of_order (fun a b => by simpa using Nat.le_total _ _) (fun a b c hab hbc => ?_) xs
    simp only [decide_eq_true_eq] at *
    omega
  simpa using hsorted

/-- Without ties the sorted list is in strict order. -/
theorem pairwise_lt_sortBy {key : α → Nat} {xs : List α} (h : (xs.map key).Nodup) :
    (sortBy (fun a b => decide (key a ≤ key b)) xs).Pairwise fun a b => key a < key b := by
  have hne : (sortBy (fun a b => decide (key a ≤ key b)) xs).Pairwise fun a b => key a ≠ key b := by
    rw [← List.pairwise_map (f := key) (R := (· ≠ ·))]
    exact ((sortBy_perm xs).map key).nodup_iff.2 h
  refine (pairwise_sortBy key xs).imp₂ (fun a b hle hne => ?_) hne
  omega

/-- **Without ties the order of the list does not matter.** -/
theorem sortBy_eq_of_perm {key : α → Nat} {xs ys : List α} (hnodup : (xs.map key).Nodup) (h : xs.Perm ys) :
    sortBy (fun a b => decide (key a ≤ key b)) xs = sortBy (fun a b => decide (key a ≤ key b)) ys := by
  have hys : (ys.map key).Nodup := (h.map key).nodup_iff.1 hnodup
  refine List.Perm.eq_of_pairwise ?_ (pairwise_lt_sortBy hnodup) (pairwise_lt_sortBy hys)
    ((sortBy_perm xs).trans (h.trans (sortBy_perm ys).symm))
  intro a b _ _ hab hba
  omega

/-! ## Different elements -/

theorem mem_distinct [DecidableEq α] {a : α} : ∀ {xs : List α}, a ∈ distinct xs ↔ a ∈ xs
  | [] => Iff.rfl
  | b :: rest => by
    rw [distinct, List.mem_cons, List.mem_filter, mem_distinct, decide_eq_true_iff, List.mem_cons]
    by_cases hab : a = b
    · simp [hab]
    · simp [hab]

theorem distinct_append_singleton [DecidableEq α] (xs : List α) (x : α) :
    distinct (xs ++ [x]) = if x ∈ xs then distinct xs else distinct xs ++ [x] := by
  induction xs with
  | nil => simp [distinct]
  | cons a xs ih =>
    rw [List.cons_append, distinct, distinct, ih]
    by_cases hxa : x = a
    · subst hxa
      by_cases hmem : x ∈ xs
      · simp [hmem]
      · simp [hmem]
    · by_cases hmem : x ∈ xs
      · simp [hmem]
      · simp [hmem, hxa]

/-- The different elements of a list, in the order in which they first come. -/
structure FirstsOf [DecidableEq α] (xs firsts : List α) : Prop where
  nodup : firsts.Nodup
  mem_iff : ∀ a, a ∈ firsts ↔ a ∈ xs
  order : firsts.Pairwise fun a b => xs.idxOf a < xs.idxOf b

theorem firstsOf_distinct [DecidableEq α] (xs : List α) : FirstsOf xs (distinct xs) := by
  refine ⟨?_, fun a => mem_distinct, ?_⟩
  · induction xs with
    | nil => exact List.nodup_nil
    | cons a xs ih =>
      rw [distinct, List.nodup_cons]
      refine ⟨by simp, ih.filter _⟩
  · induction xs with
    | nil => exact List.Pairwise.nil
    | cons a xs ih =>
      rw [distinct, List.pairwise_cons]
      constructor
      · intro b hb
        have hne : b ≠ a := by simpa using (List.mem_filter.1 hb).2
        rw [List.idxOf_cons_self, List.idxOf_cons_ne _ hne.symm]
        omega
      · rw [List.pairwise_filter]
        refine ih.imp ?_
        intro b c hlt hb hc
        have hb : b ≠ a := by simpa using hb
        have hc : c ≠ a := by simpa using hc
        rw [List.idxOf_cons_ne _ hb.symm, List.idxOf_cons_ne _ hc.symm]
        omega

/-- **There is one list of first occurrences.** -/
theorem firstsOf_iff [DecidableEq α] {xs firsts : List α} : FirstsOf xs firsts ↔ firsts = distinct xs := by
  constructor
  · intro h
    have hdistinct := firstsOf_distinct xs
    have hperm : firsts.Perm (distinct xs) := by
      rw [List.perm_ext_iff_of_nodup h.nodup hdistinct.nodup]
      intro a
      rw [h.mem_iff, hdistinct.mem_iff]
    refine hperm.eq_of_pairwise ?_ h.order hdistinct.order
    intro a b _ _ hab hba
    omega
  · rintro rfl
    exact firstsOf_distinct xs

end TypeBindings
