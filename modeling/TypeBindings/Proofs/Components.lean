import Mathlib.Data.List.DropRight
import TypeBindings.Definition
import TypeBindings.Text.Concat

/-!
# Lists of components as text

A list of components is written with a bar and blanks between the names and read back by cutting at the bars, trimming
and leaving out what is empty. Everything about reading follows from one equation: reading a text at a bar is reading
its two sides (`componentNames_append_bar`). Hence

* what is read are good component names (`isComponentName_of_mem_componentNames`);
* good component names come back as they were written (`componentNames_joinWith`).
-/

namespace TypeBindings

namespace Text

/-! ## Trimming -/

theorem dropBlankEnds_cons_blank {c : Char} (hc : isBlank c = true) (cs : List Char) :
    dropBlankEnds (c :: cs) = dropBlankEnds cs := by
  unfold dropBlankEnds
  rw [List.dropWhile_cons_of_pos hc]

theorem dropBlankEnds_append_blank {c : Char} (hc : isBlank c = true) (cs : List Char) :
    dropBlankEnds (cs ++ [c]) = dropBlankEnds cs := by
  unfold dropBlankEnds
  rw [List.dropWhile_append]
  split
  · rename_i hempty
    rw [List.isEmpty_iff.1 hempty, List.dropWhile_cons_of_pos hc, List.dropWhile_nil]
  · exact List.rdropWhile_concat_pos isBlank _ c hc

/-- A text that begins with no blank still does when its end is trimmed. -/
theorem dropWhile_dropBlankEnd {cs : List Char} (h : cs.dropWhile isBlank = cs) :
    (dropBlankEnd cs).dropWhile isBlank = dropBlankEnd cs := by
  cases cs with
  | nil => rfl
  | cons c cs =>
    have hc : ¬ isBlank c = true := fun hc => by
      have hl := congrArg List.length h
      rw [List.dropWhile_cons_of_pos hc] at hl
      have := (List.dropWhile_sublist (l := cs) isBlank).length_le
      simp only [List.length_cons] at hl
      omega
    obtain ⟨rest, hrest⟩ := List.rdropWhile_prefix (p := isBlank) (c :: cs)
    change dropBlankEnd (c :: cs) ++ rest = c :: cs at hrest
    cases hd : dropBlankEnd (c :: cs) with
    | nil => rfl
    | cons d ds =>
      rw [hd] at hrest
      obtain ⟨rfl, -⟩ := List.cons.inj hrest
      exact List.dropWhile_cons_of_neg hc

theorem dropBlankEnds_idem (cs : List Char) : dropBlankEnds (dropBlankEnds cs) = dropBlankEnds cs := by
  have hstart : (cs.dropWhile isBlank).dropWhile isBlank = cs.dropWhile isBlank := List.dropWhile_idempotent _ _
  unfold dropBlankEnds
  rw [dropWhile_dropBlankEnd hstart]
  exact List.rdropWhile_idempotent isBlank _

theorem trim_trim (s : String) : trim (trim s) = trim s := by
  simp only [trim, String.toList_ofList, dropBlankEnds_idem]

theorem trim_of_not_blank {s : String} (h : ∀ c ∈ s.toList, isBlank c = false) : trim s = s := by
  have hfront : s.toList.dropWhile isBlank = s.toList :=
    List.dropWhile_eq_self_iff.2 fun hne => by simp [h _ (List.getElem_mem hne)]
  have hback : dropBlankEnd s.toList = s.toList :=
    List.rdropWhile_eq_self_iff.2 fun hne => by simp [h _ (List.getLast_mem hne)]
  rw [trim, dropBlankEnds, hfront, hback, String.ofList_toList]

theorem mem_of_mem_dropBlankEnds {c : Char} {cs : List Char} (h : c ∈ dropBlankEnds cs) : c ∈ cs :=
  (List.dropWhile_sublist isBlank).subset ((List.rdropWhile_prefix (p := isBlank) _).subset h)

/-! ## Cutting -/

/-- Cutting a text as the library does it. -/
theorem pieces_eq_splitOnP (isSep : Char → Bool) (cs : List Char) : pieces isSep cs = cs.splitOnP isSep := by
  induction cs with
  | nil => rw [pieces, List.splitOnP_nil]
  | cons c cs ih =>
    rw [pieces, List.splitOnP_cons_eq_if_modifyHead, ih]
    split
    · rfl
    · cases h : cs.splitOnP isSep with
      | nil => exact absurd h (List.splitOnP_ne_nil isSep cs)
      | cons piece rest => rfl

theorem pieces_ne_nil {isSep : Char → Bool} (cs : List Char) : pieces isSep cs ≠ [] := by
  rw [pieces_eq_splitOnP]
  exact List.splitOnP_ne_nil isSep cs

/-- Characters that are no separators become part of the first piece. -/
theorem pieces_append {isSep : Char → Bool} {front : List Char} (hfront : ∀ c ∈ front, isSep c = false)
    (cs : List Char) : pieces isSep (front ++ cs) = (pieces isSep cs).modifyHead (front ++ ·) := by
  induction front with
  | nil => cases h : pieces isSep cs <;> simp [h]
  | cons c front ih =>
    obtain ⟨hc, hrest⟩ := List.forall_mem_cons.1 hfront
    rw [List.cons_append, pieces, if_neg (by simp [hc]), ih hrest]
    cases h : pieces isSep cs with
    | nil => exact absurd h (pieces_ne_nil cs)
    | cons piece rest => rfl

/-- Characters without a separator are one piece. -/
theorem pieces_of_not_mem {sep : Char} {cs : List Char} (h : sep ∉ cs) : pieces (· == sep) cs = [cs] := by
  rw [pieces_eq_splitOnP]
  apply List.splitOnP_eq_singleton
  intro c hc
  simp only [beq_eq_false_iff_ne]
  rintro rfl
  exact h hc

/-- A separator divides the pieces on its two sides. -/
theorem splitAt_append {sep : Char} {s a b : String} (h : s.toList = a.toList ++ sep :: b.toList) :
    splitAt sep s = splitAt sep a ++ splitAt sep b := by
  unfold splitAt
  rw [h, pieces_eq_splitOnP, List.splitOnP_append_cons _ _ (by simp), List.map_append, pieces_eq_splitOnP,
    pieces_eq_splitOnP]

/-- A text without a separator is one piece. -/
theorem splitAt_of_not_mem {sep : Char} {s : String} (h : sep ∉ s.toList) : splitAt sep s = [s] := by
  unfold splitAt
  rw [pieces_of_not_mem h, List.map_singleton, String.ofList_toList]

/-- No piece has a separator in it. -/
theorem not_isSep_of_mem_pieces {isSep : Char → Bool} : ∀ {cs piece : List Char}, piece ∈ pieces isSep cs →
    ∀ c ∈ piece, isSep c = false
  | [], piece, h => by
    cases List.mem_singleton.1 h
    intro c hc
    cases hc
  | d :: cs, piece, h => by
    rw [pieces] at h
    split at h
    · rcases List.mem_cons.1 h with rfl | h
      · intro c hc
        cases hc
      · exact not_isSep_of_mem_pieces h
    · rename_i hd
      cases hp : pieces isSep cs with
      | nil =>
        rw [hp] at h
        cases List.mem_singleton.1 h
        intro c hc
        cases List.mem_singleton.1 hc
        simpa using hd
      | cons first rest =>
        rw [hp] at h
        rcases List.mem_cons.1 h with rfl | h
        · intro c hc
          rcases List.mem_cons.1 hc with rfl | hc
          · simpa using hd
          · exact not_isSep_of_mem_pieces (by rw [hp]; exact List.mem_cons_self) c hc
        · exact not_isSep_of_mem_pieces (by rw [hp]; exact List.mem_cons_of_mem _ h)

end Text

/-! ## Reading a list of components -/

/-- A good component name is not empty, stays as it is when it is trimmed, and has no bar in it. -/
theorem isComponentName_iff {name : String} :
    isComponentName name = true ↔ name ≠ "" ∧ Text.trim name = name ∧ '|' ∉ name.toList := by
  simp [isComponentName, and_assoc]

/-- **A bar divides what is read on its two sides.** -/
theorem componentNames_append_bar (a b : String) :
    componentNames (a ++ "|" ++ b) = componentNames a ++ componentNames b := by
  have hlist : (a ++ "|" ++ b).toList = a.toList ++ '|' :: b.toList := by simp
  unfold componentNames
  rw [Text.splitAt_append hlist, List.map_append, List.filter_append]

/-- A blank before a list of components is not part of it. -/
theorem componentNames_blank_append (s : String) : componentNames (" " ++ s) = componentNames s := by
  have hlist : (" " ++ s).toList = ' ' :: s.toList := by simp
  have hpieces : (Text.splitAt '|' (" " ++ s)).map Text.trim = (Text.splitAt '|' s).map Text.trim := by
    unfold Text.splitAt
    rw [hlist, Text.pieces, if_neg (by decide)]
    cases h : Text.pieces (· == '|') s.toList with
    | nil => rw [Text.pieces_eq_splitOnP] at h; exact absurd h (List.splitOnP_ne_nil _ _)
    | cons piece rest =>
      simp only [List.map_cons, Text.trim, String.toList_ofList]
      rw [Text.dropBlankEnds_cons_blank (by decide)]
  unfold componentNames
  rw [hpieces]

/-- A text without a bar is read as one name, if anything is left of it. -/
theorem componentNames_of_no_bar {s : String} (h : '|' ∉ s.toList) :
    componentNames s = [Text.trim s].filter fun name => !name.isEmpty := by
  unfold componentNames
  rw [Text.splitAt_of_not_mem h, List.map_singleton]

/-- What is read are good component names. -/
theorem isComponentName_of_mem_componentNames {text name : String} (h : name ∈ componentNames text) :
    isComponentName name = true := by
  obtain ⟨hmem, hne⟩ := List.mem_filter.1 h
  obtain ⟨piece, hpiece, rfl⟩ := List.mem_map.1 hmem
  obtain ⟨cs, hcs, rfl⟩ := List.mem_map.1 hpiece
  refine isComponentName_iff.2 ⟨by simpa using hne, Text.trim_trim _, fun hbar => ?_⟩
  simp only [Text.trim, String.toList_ofList] at hbar
  have := Text.not_isSep_of_mem_pieces hcs '|' (Text.mem_of_mem_dropBlankEnds hbar)
  simp at this

/-! ## Writing a list of components -/

theorem trim_append_blank (s : String) : Text.trim (s ++ " ") = Text.trim s := by
  have hlist : (s ++ " ").toList = s.toList ++ [' '] := by simp
  unfold Text.trim
  rw [hlist, Text.dropBlankEnds_append_blank (by decide)]

/-- A good component name is read as itself, also with a blank behind it. -/
theorem componentNames_of_isComponentName {name : String} (h : isComponentName name = true) :
    componentNames name = [name] ∧ componentNames (name ++ " ") = [name] := by
  obtain ⟨hne, htrim, hbar⟩ := isComponentName_iff.1 h
  have hbar' : '|' ∉ (name ++ " ").toList := by simpa using hbar
  constructor
  · rw [componentNames_of_no_bar hbar, htrim]
    simpa using hne
  · rw [componentNames_of_no_bar hbar', trim_append_blank, htrim]
    simpa using hne

/-- **Good component names come back as they were written.** -/
theorem componentNames_joinWith : ∀ {names : List String}, names ≠ [] →
    (∀ name ∈ names, isComponentName name = true) → componentNames (Text.joinWith " | " names) = names
  | [], h, _ => absurd rfl h
  | [name], _, h => (componentNames_of_isComponentName (h name List.mem_cons_self)).1
  | name :: next :: rest, _, h => by
    have hname := (componentNames_of_isComponentName (h name List.mem_cons_self)).2
    have hrest := componentNames_joinWith (List.cons_ne_nil next rest)
      fun other hother => h other (List.mem_cons_of_mem _ hother)
    have hbar : " | " = " " ++ "|" ++ " " := by decide
    have hsplit : Text.joinWith " | " (name :: next :: rest) =
        name ++ " " ++ "|" ++ (" " ++ Text.joinWith " | " (next :: rest)) := by
      rw [Text.joinWith, hbar]
      simp only [String.append_assoc]
      intro hnil
      cases hnil
    rw [hsplit, componentNames_append_bar, hname, componentNames_blank_append, hrest, List.singleton_append]

end TypeBindings
