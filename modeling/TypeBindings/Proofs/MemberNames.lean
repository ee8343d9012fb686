import Mathlib.Data.List.Nodup
import TypeBindings.Proofs.FreeNames
import TypeBindings.Proofs.Sorting

/-!
# Names of members

`IsMemberName` says which name a value of an enumeration has, from the values and the names before it. `Named` says that
the values up to a place have such names, one for each and no two the same. One more value keeps it so (`Named.add`),
and the two lists that `nameValues` carries along know all that it asks for (`Ledger`). So the values of an enumeration
all have their names (`memberNames_are_names`).
-/

namespace TypeBindings.Naming

section Values

variable {keep : String → Bool} {rename : String → String} {values : List String}

/-! ## The name of one value -/

/-- A name is free behind the given names: it is none of them, and no value of the enumeration keeps it. -/
def Free (keep : String → Bool) (values names : List String) (name : String) : Prop :=
  ¬(name ∈ values ∧ keep name = true) ∧ name ∉ names

instance (keep : String → Bool) (values names : List String) (name : String) :
    Decidable (Free keep values names name) :=
  inferInstanceAs (Decidable (_ ∧ _))

/-- The name that a value has if nothing stands against it. -/
def preferred (keep : String → Bool) (rename : String → String) (value : String) : String :=
  if keep value then value else rename value

theorem preferred_spec {P : String → Prop} (hkept : ∀ value, keep value = true → P value)
    (hrenamed : ∀ value, P (rename value)) (value : String) : P (preferred keep rename value) := by
  unfold preferred
  split
  · rename_i hkeep
    exact hkept _ hkeep
  · exact hrenamed _

/-- The name of a value that comes after the values `before` and their `names`. A kept value has its own name where it
comes first. Any other value has its preferred name if that is free, and else the preferred name with the least number
from two on that is free. -/
def IsMemberName (keep : String → Bool) (rename : String → String) (values before names : List String)
    (value name : String) : Prop :=
  if keep value = true ∧ value ∉ before then name = value
  else if Free keep values names (preferred keep rename value) then name = preferred keep rename value
  else ∃ n, 2 ≤ n ∧ name = preferred keep rename value ++ "_" ++ toString n ∧ Free keep values names name ∧
    ∀ m, 2 ≤ m → m < n → ¬Free keep values names (preferred keep rename value ++ "_" ++ toString m)

section OneName

variable {before names : List String} {value name : String}

theorem isMemberName_of_first (hkeep : keep value = true) (hfirst : value ∉ before) :
    IsMemberName keep rename values before names value name ↔ name = value := by
  rw [IsMemberName, if_pos ⟨hkeep, hfirst⟩]

/-- A name is a kept value in its first place, or it is free. -/
theorem IsMemberName.first_or_free (h : IsMemberName keep rename values before names value name) :
    (keep value = true ∧ value ∉ before ∧ name = value) ∨ Free keep values names name := by
  unfold IsMemberName at h
  split at h
  · rename_i hfirst
    exact .inl ⟨hfirst.1, hfirst.2, h⟩
  · split at h
    · rename_i hfree
      exact .inr (h ▸ hfree)
    · obtain ⟨n, -, -, hfree, -⟩ := h
      exact .inr hfree

/-- A name is a kept value, what a value is renamed to, or the one or the other with a number. -/
theorem IsMemberName.kept_renamed_or_numbered (h : IsMemberName keep rename values before names value name)
    (hvalue : value ∈ values) :
    (keep value = true ∧ name = value) ∨ (keep value = false ∧ name = rename value) ∨
      ∃ n : Nat, name = preferred keep rename value ++ "_" ++ toString n := by
  unfold IsMemberName at h
  split at h
  · rename_i hfirst
    exact .inl ⟨hfirst.1, h⟩
  · split at h
    · rename_i hfree
      cases hkeep : keep value with
      | true =>
        rw [preferred, if_pos hkeep] at hfree
        exact absurd ⟨hvalue, hkeep⟩ hfree.1
      | false =>
        rw [preferred, hkeep, if_neg Bool.false_ne_true] at h
        exact .inr (.inl ⟨rfl, h⟩)
    · obtain ⟨n, -, hname, -⟩ := h
      exact .inr (.inr ⟨n, hname⟩)

/-- The first free one of the numbered names is the name of a value that does not have its own. -/
theorem isMemberName_firstFree {taken : List String} (htaken : ∀ name, name ∈ taken ↔ ¬Free keep values names name)
    (hnot : ¬(keep value = true ∧ value ∉ before)) :
    IsMemberName keep rename values before names value (firstFree taken (numbered (preferred keep rename value))) := by
  have hfirst := firstFree_isFirst taken fun m n hm => numbered_ne_numbered (preferred keep rename value) hm
  unfold IsMemberName
  rw [if_neg hnot]
  rcases hfirst.first_or_later with ⟨hplain, hname⟩ | ⟨hplain, n, hn, hname, hfree, hbefore⟩
  · rw [numbered_one, htaken, not_not] at hplain
    rw [if_pos hplain]
    exact hname
  · rw [numbered_one, htaken] at hplain
    rw [if_neg hplain, hname]
    rw [htaken, not_not] at hfree
    refine ⟨n, hn, numbered_of_two_le _ hn, hfree, fun m hm hlt => ?_⟩
    rw [← htaken, ← numbered_of_two_le _ hm]
    exact hbefore m hm hlt

end OneName

/-! ## The names of the values up to a place -/

/-- The values `before`, with which the values of the enumeration begin, have the given names. -/
structure Named (keep : String → Bool) (rename : String → String) (values before names : List String) : Prop where
  length : names.length = before.length
  nodup : names.Nodup
  /-- No value has the name that a value to come keeps. -/
  kept : ∀ name ∈ names, name ∈ values → keep name = true → name ∈ before
  name : ∀ k value, before[k]? = some value →
    ∃ name, names[k]? = some name ∧ IsMemberName keep rename values (before.take k) (names.take k) value name

theorem Named.isMemberName {before names : List String} {k : Nat} {value name : String}
    (h : Named keep rename values before names) (hvalue : before[k]? = some value) (hname : names[k]? = some name) :
    IsMemberName keep rename values (before.take k) (names.take k) value name := by
  obtain ⟨other, hother, his⟩ := h.name k value hvalue
  rw [hname] at hother
  cases hother
  exact his

theorem named_nil (keep : String → Bool) (rename : String → String) (values : List String) :
    Named keep rename values [] [] where
  length := rfl
  nodup := List.nodup_nil
  kept := by simp
  name := by simp

/-- **One more value has its name.** -/
theorem Named.add {before names : List String} {value name : String} (h : Named keep rename values before names)
    (hvalue : value ∈ values) (hname : IsMemberName keep rename values before names value name) :
    Named keep rename values (before ++ [value]) (names ++ [name]) := by
  refine ⟨?_, ?_, fun other hother hmem hkeep => ?_, forall_getElem?_concat (fun k v hv => ?_) ?_⟩
  · rw [List.length_append, List.length_append, h.length, List.length_singleton, List.length_singleton]
  · have hnew : name ∉ names := by
      rcases hname.first_or_free with ⟨hkeep, hfirst, rfl⟩ | hfree
      · exact fun hmem => hfirst (h.kept name hmem hvalue hkeep)
      · exact hfree.2
    rw [← List.concat_eq_append, List.nodup_concat]
    exact ⟨hnew, h.nodup⟩
  · rcases List.mem_append.1 hother with hother | hother
    · exact List.mem_append_left _ (h.kept other hother hmem hkeep)
    · rw [List.mem_singleton.1 hother] at hmem hkeep ⊢
      rcases hname.first_or_free with ⟨-, -, rfl⟩ | hfree
      · exact List.mem_append_right _ (List.mem_singleton_self _)
      · exact absurd ⟨hmem, hkeep⟩ hfree.1
  · have hk := (List.getElem?_eq_some_iff.1 hv).1
    rw [List.take_append_of_le_length (Nat.le_of_lt hk), List.getElem?_append_left (h.length ▸ hk),
      List.take_append_of_le_length (h.length ▸ Nat.le_of_lt hk)]
    exact h.name k v hv
  · rw [List.take_left, ← h.length, List.getElem?_concat_length, List.take_left]
    exact ⟨name, rfl, hname⟩

/-! ## All names -/

/-- What the naming of the values carries along: the names that are not free, and the kept values that have been met. -/
structure Ledger (keep : String → Bool) (values before names taken seen : List String) : Prop where
  taken : ∀ name, name ∈ taken ↔ ¬Free keep values names name
  seen : ∀ value, value ∈ seen ↔ keep value = true ∧ value ∈ before

theorem ledger_start (keep : String → Bool) (values : List String) :
    Ledger keep values [] [] (distinct (values.filter keep)) [] where
  taken name := by simp [mem_distinct, Free]
  seen value := by simp

section Ledger

variable {before names taken seen : List String}

/-- A kept value has its own name, which was not free before. -/
theorem Ledger.addKept {value : String} (h : Ledger keep values before names taken seen) (hvalue : value ∈ values)
    (hkeep : keep value = true) : Ledger keep values (before ++ [value]) (names ++ [value]) taken (value :: seen) where
  taken name := by
    rw [h.taken]
    by_cases hname : name = value
    · simp [Free, hname, hvalue, hkeep]
    · simp [Free, hname]
  seen other := by
    rw [List.mem_cons, h.seen, List.mem_append, List.mem_singleton]
    by_cases hother : other = value
    · simp [hother, hkeep]
    · simp [hother]

theorem Ledger.addTaken {value : String} (name : String) (h : Ledger keep values before names taken seen)
    (hnot : ¬(keep value = true ∧ value ∉ before)) :
    Ledger keep values (before ++ [value]) (names ++ [name]) (taken ++ [name]) seen where
  taken other := by
    rw [List.mem_append, h.taken, List.mem_singleton]
    by_cases hother : other = name
    · simp [Free, hother]
    · simp [Free, hother]
  seen other := by
    rw [h.seen, List.mem_append, List.mem_singleton]
    by_cases hother : other = value
    · rw [hother]
      tauto
    · simp [hother]

end Ledger

/-- **The values to come have their names** if those before do. -/
theorem Named.append : ∀ {rest before names taken seen : List String}, Named keep rename values before names →
    Ledger keep values before names taken seen → (∀ value ∈ rest, value ∈ values) →
      Named keep rename values (before ++ rest) (names ++ nameValues keep rename taken seen rest)
  | [], before, names, _, _, h, _, _ => by
    rw [nameValues, List.append_nil, List.append_nil]
    exact h
  | value :: rest, before, names, taken, seen, h, hledger, hvalues => by
    obtain ⟨hvalue, hrest⟩ := List.forall_mem_cons.1 hvalues
    have hseen : (keep value && !seen.contains value) = true ↔ keep value = true ∧ value ∉ before := by
      rw [Bool.and_eq_true, Bool.not_eq_true', ← Bool.not_eq_true, List.contains_iff_mem, hledger.seen]
      tauto
    rw [nameValues]
    split
    · rename_i hfirst
      obtain ⟨hkeep, hnew⟩ := hseen.1 hfirst
      have hnext := (h.add hvalue ((isMemberName_of_first hkeep hnew).2 rfl)).append (hledger.addKept hvalue hkeep) hrest
      rwa [List.append_assoc, List.append_assoc, List.singleton_append, List.singleton_append] at hnext
    · rename_i hfirst
      have hnot := mt hseen.2 hfirst
      have hname : IsMemberName keep rename values before names value _ := isMemberName_firstFree hledger.taken hnot
      have hnext := (h.add hvalue hname).append (hledger.addTaken _ hnot) hrest
      rwa [List.append_assoc, List.append_assoc, List.singleton_append, List.singleton_append] at hnext

theorem named_memberNames (keep : String → Bool) (rename : String → String) (values : List String) :
    Named keep rename values values (memberNames keep rename values) :=
  (named_nil keep rename values).append (ledger_start keep values) fun _ h => h

/-- What holds of kept values, of what values are renamed to and of both with a number holds of all names. -/
theorem forall_mem_memberNames {P : String → Prop} (hkept : ∀ value, keep value = true → P value)
    (hrenamed : ∀ value, P (rename value)) (hnumbered : ∀ base (n : Nat), P base → P (base ++ "_" ++ toString n)) :
    ∀ name ∈ memberNames keep rename values, P name := by
  intro name hname
  have h := named_memberNames keep rename values
  obtain ⟨k, hk⟩ := List.mem_iff_getElem?.1 hname
  have hlt : k < values.length := h.length ▸ (List.getElem?_eq_some_iff.1 hk).1
  have his := h.isMemberName (List.getElem?_eq_getElem hlt) hk
  rcases his.kept_renamed_or_numbered (List.getElem_mem hlt) with ⟨hkeep, rfl⟩ | ⟨-, rfl⟩ | ⟨n, rfl⟩
  · exact hkept _ hkeep
  · exact hrenamed _
  · exact hnumbered _ n (preferred_spec hkept hrenamed _)

end Values

/-- **Names of members.** Every value has one name, in the order of the values, and no two names are the same. A kept
value has its own name where it comes first, whatever stands before it; any other value has the first of its numbered
names that no value keeps and that no value before it has. -/
theorem memberNames_are_names (keep : String → Bool) (rename : String → String) (values : List String) :
    (memberNames keep rename values).length = values.length ∧ (memberNames keep rename values).Nodup ∧
      ∀ k value, values[k]? = some value → ∃ name, (memberNames keep rename values)[k]? = some name ∧
        IsMemberName keep rename values (values.take k) ((memberNames keep rename values).take k) value name :=
  have h := named_memberNames keep rename values
  ⟨h.length, h.nodup, h.name⟩

/-- Values that all would have one name: it is kept by the second, which comes again. -/
def crowded : List String := ["a-b", "A_B", "A_B", "a/b"]

theorem memberNames_are_names_crowded :
    memberNames Text.isIdentifier constantName crowded = ["A_B_2", "A_B", "A_B_3", "A_B_4"] ∧
      (crowded[1]? = some "A_B" ∧
        IsMemberName Text.isIdentifier constantName crowded ["a-b"] ["A_B_2"] "A_B" "A_B") ∧
      crowded[3]? = some "a/b" ∧
        IsMemberName Text.isIdentifier constantName crowded ["a-b", "A_B", "A_B"] ["A_B_2", "A_B", "A_B_3"] "a/b"
          "A_B_4" := by
  have hnames : memberNames Text.isIdentifier constantName crowded = ["A_B_2", "A_B", "A_B_3", "A_B_4"] := by
    decide +kernel
  obtain ⟨-, -, hname⟩ := memberNames_are_names Text.isIdentifier constantName crowded
  rw [hnames] at hname
  obtain ⟨kept, hkept, hisKept⟩ := hname 1 "A_B" rfl
  obtain ⟨last, hlast, hisLast⟩ := hname 3 "a/b" rfl
  cases hkept
  cases hlast
  exact ⟨hnames, ⟨rfl, hisKept⟩, rfl, hisLast⟩

end TypeBindings.Naming
