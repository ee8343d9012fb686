import TypeBindings.Emit.Naming

/-!
# Free names

`firstFree` gives the first candidate that is not taken, as long as no two candidates are the same
(`firstFree_isFirst`). The search needs at most as many steps as there are taken names: every step that fails strikes
one of them out, and no candidate to come is among those struck out (`IsFirstFree.of_erase`). The numbered forms of a
name are such candidates (`numbered_ne_numbered`).
-/

namespace TypeBindings.Naming

/-- The name is the first of `candidate start`, `candidate (start + 1)`, … that is not taken. -/
def IsFirstFree (taken : List String) (candidate : Nat → String) (start : Nat) (name : String) : Prop :=
  ∃ n, start ≤ n ∧ name = candidate n ∧ candidate n ∉ taken ∧ ∀ m, start ≤ m → m < n → candidate m ∈ taken

section Search

variable {candidate : Nat → String}

/-- Striking out a taken candidate changes nothing for those to come. -/
theorem IsFirstFree.of_erase {taken : List String} {start : Nat} {name : String}
    (hne : ∀ n, start < n → candidate start ≠ candidate n) (htaken : candidate start ∈ taken)
    (h : IsFirstFree (taken.erase (candidate start)) candidate (start + 1) name) :
    IsFirstFree taken candidate start name := by
  obtain ⟨n, hn, hname, hfree, hbefore⟩ := h
  refine ⟨n, Nat.le_of_lt hn, hname, fun hmem => ?_, fun m hm hlt => ?_⟩
  · exact hfree ((List.mem_erase_of_ne (hne n hn).symm).2 hmem)
  · rcases Nat.eq_or_lt_of_le hm with rfl | hm
    · exact htaken
    · exact List.mem_of_mem_erase (hbefore m hm hlt)

/-- With as many steps as there are taken names the search ends at the first free candidate. -/
theorem firstFreeFrom_isFirst : ∀ {steps : Nat} {taken : List String} {start : Nat},
    (∀ m n, start ≤ m → m < n → candidate m ≠ candidate n) → taken.length ≤ steps →
      IsFirstFree taken candidate start (firstFreeFrom candidate steps taken start)
  | 0, taken, start, _, hlength => by
    cases List.length_eq_zero_iff.1 (Nat.le_zero.1 hlength)
    exact ⟨start, Nat.le_refl _, rfl, nofun, fun m hm hlt => absurd hlt (Nat.not_lt.2 hm)⟩
  | steps + 1, taken, start, hne, hlength => by
    unfold firstFreeFrom
    split
    · rename_i htaken
      have hshorter : (taken.erase (candidate start)).length ≤ steps := by
        rw [List.length_erase_of_mem htaken]
        omega
      have hrest := firstFreeFrom_isFirst (fun m n hm => hne m n (Nat.le_of_succ_le hm)) hshorter
      exact hrest.of_erase (hne start · (Nat.le_refl _)) htaken
    · rename_i hfree
      exact ⟨start, Nat.le_refl _, rfl, hfree, fun m hm hlt => absurd hlt (Nat.not_lt.2 hm)⟩

theorem IsFirstFree.not_mem {taken : List String} {start : Nat} {name : String}
    (h : IsFirstFree taken candidate start name) : name ∉ taken := by
  obtain ⟨n, -, rfl, hfree, -⟩ := h
  exact hfree

/-- The first free candidate is the very first one if that is free, and else the first of the others. -/
theorem IsFirstFree.first_or_later {taken : List String} {start : Nat} {name : String}
    (h : IsFirstFree taken candidate start name) :
    candidate start ∉ taken ∧ name = candidate start ∨
      candidate start ∈ taken ∧ IsFirstFree taken candidate (start + 1) name := by
  obtain ⟨n, hn, hname, hfree, hbefore⟩ := h
  rcases Nat.eq_or_lt_of_le hn with rfl | hn
  · exact .inl ⟨hfree, hname⟩
  · exact .inr ⟨hbefore start (Nat.le_refl _) hn, n, hn, hname, hfree, fun m hm => hbefore m (Nat.le_of_succ_le hm)⟩

/-- **The first free name.** Of different candidates `firstFree` gives the first that is not taken. -/
theorem firstFree_isFirst (taken : List String) (hne : ∀ m n, 1 ≤ m → m < n → candidate m ≠ candidate n) :
    IsFirstFree taken candidate 1 (firstFree taken candidate) :=
  firstFreeFrom_isFirst hne (Nat.le_refl _)

end Search

/-! ## Places in lists -/

/-- What holds at every place of a list, and of one more element behind it, holds at every place of both. -/
theorem forall_getElem?_concat {α : Type} {P : Nat → α → Prop} {xs : List α} {x : α}
    (hxs : ∀ k y, xs[k]? = some y → P k y) (hx : P xs.length x) (k : Nat) (y : α) (h : (xs ++ [x])[k]? = some y) :
    P k y := by
  rcases Nat.lt_trichotomy k xs.length with hk | rfl | hk
  · rw [List.getElem?_append_left hk] at h
    exact hxs k y h
  · rw [List.getElem?_concat_length] at h
    cases h
    exact hx
  · have hlt := (List.getElem?_eq_some_iff.1 h).1
    rw [List.length_append, List.length_singleton] at hlt
    omega

theorem mem_take_iff {α : Type} {xs : List α} {k : Nat} {x : α} : x ∈ xs.take k ↔ ∃ j < k, xs[j]? = some x := by
  rw [List.mem_iff_getElem?]
  simp only [List.getElem?_take]
  constructor
  · rintro ⟨j, hj⟩
    split at hj
    · rename_i hlt
      exact ⟨j, hlt, hj⟩
    · cases hj
  · rintro ⟨j, hlt, hj⟩
    exact ⟨j, by rw [if_pos hlt, hj]⟩

/-! ## Numbered names -/

theorem numbered_one (base : String) : numbered base 1 = base := rfl

theorem numbered_of_two_le (base : String) {n : Nat} (h : 2 ≤ n) : numbered base n = base ++ "_" ++ toString n := by
  rw [numbered, if_neg (Nat.not_le.2 h)]

theorem toDigits_injective {m n : Nat} (h : Nat.toDigits 10 m = Nat.toDigits 10 n) : m = n := by
  have hvalue := congrArg (Nat.ofDigitChars 10 · 0) h
  simpa using hvalue

theorem toString_injective {m n : Nat} (h : toString m = toString n) : m = n :=
  toDigits_injective (by simpa only [Nat.toString_eq_repr, Nat.toList_repr] using congrArg String.toList h)

theorem isDigit_of_mem_toString {n : Nat} {c : Char} (h : c ∈ (toString n).toList) : c.isDigit = true := by
  rw [Nat.toString_eq_repr, Nat.toList_repr] at h
  exact Nat.isDigit_of_mem_toDigits (by decide) (by decide) h

/-- Different numbers from one on give different names. -/
theorem numbered_ne_numbered (base : String) {m n : Nat} (hm : 1 ≤ m) (hlt : m < n) :
    numbered base m ≠ numbered base n := by
  intro h
  rw [numbered, numbered, if_neg (by omega : ¬n ≤ 1)] at h
  split at h
  · have hlength := congrArg String.length h
    simp only [String.length_append] at hlength
    have hbar : "_".length = 1 := rfl
    omega
  · have hlist := congrArg String.toList h
    simp only [String.toList_append, List.append_assoc, List.append_cancel_left_eq] at hlist
    have hmn := toString_injective (String.toList_injective hlist)
    omega

end TypeBindings.Naming
