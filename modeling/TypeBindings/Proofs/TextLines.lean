import Mathlib.Algebra.GroupWithZero.Nat
import Mathlib.Data.List.DropRight
import Mathlib.Data.List.Infix
import TypeBindings.Proofs.Components

/-!
# Characters side by side, and the lines of a text

`pairs a b cs` counts how often the character `a` stands directly before the character `b`. Cutting a text into lines
and trimming them takes away line ends and blanks only, so of two characters that are no blanks the lines have as many
pairs as the text (`sum_pairs_lines`). Texts without line feeds, each with a line feed behind it, are the pieces of the
whole (`pieces_concat_lines`), also behind an indentation (`pieces_indented`), and the lines of a text are such texts
(`not_mem_of_mem_lines`).
-/

namespace TypeBindings.Text

/-! ## Pairs -/

/-- How often one character stands directly before another. -/
def pairs (a b : Char) (cs : List Char) : Nat :=
  (cs.zip cs.tail).count (a, b)

section Pairs

variable {a b : Char}

@[simp] theorem pairs_nil : pairs a b [] = 0 := rfl

theorem pairs_cons (c : Char) (cs : List Char) :
    pairs a b (c :: cs) = pairs a b cs + if c = a ∧ cs.head? = some b then 1 else 0 := by
  cases cs with
  | nil => simp [pairs]
  | cons d cs => simp [pairs, List.count_cons]

theorem pairs_cons_of_ne {c : Char} (hc : c ≠ a) (cs : List Char) : pairs a b (c :: cs) = pairs a b cs := by
  rw [pairs_cons, if_neg (fun h => hc h.1), Nat.add_zero]

theorem pairs_append (xs ys : List Char) :
    pairs a b (xs ++ ys) =
      pairs a b xs + pairs a b ys + if xs.getLast? = some a ∧ ys.head? = some b then 1 else 0 := by
  induction xs with
  | nil => simp
  | cons c xs ih =>
    rw [List.cons_append, pairs_cons, pairs_cons, ih]
    cases xs with
    | nil => simp
    | cons x xs =>
      have hhead : (x :: xs ++ ys).head? = (x :: xs).head? := rfl
      rw [hhead, List.getLast?_cons_cons]
      omega

/-- A character that is none of the two parts a text. -/
theorem pairs_append_cons {c : Char} (ha : c ≠ a) (hb : c ≠ b) (xs ys : List Char) :
    pairs a b (xs ++ c :: ys) = pairs a b xs + pairs a b ys := by
  rw [pairs_append, pairs_cons_of_ne ha, if_neg, Nat.add_zero]
  rintro ⟨-, h⟩
  exact hb (Option.some.inj h)

theorem pairs_concat_of_ne {c : Char} (hc : c ≠ b) (cs : List Char) : pairs a b (cs ++ [c]) = pairs a b cs := by
  rw [pairs_append]
  simp [pairs_cons, hc]

theorem pairs_append_of_not_mem {xs : List Char} (h : a ∉ xs) (ys : List Char) :
    pairs a b (xs ++ ys) = pairs a b ys := by
  induction xs with
  | nil => rfl
  | cons x xs ih =>
    rw [List.mem_cons, not_or] at h
    rw [List.cons_append, pairs_cons_of_ne (Ne.symm h.1), ih h.2]

/-- There is no pair exactly if the two characters are nowhere side by side. -/
theorem pairs_eq_zero_iff (cs : List Char) : pairs a b cs = 0 ↔ ¬[a, b] <:+: cs := by
  induction cs with
  | nil => simp
  | cons c cs ih =>
    have hprefix : [a, b] <+: c :: cs ↔ c = a ∧ cs.head? = some b := by
      cases cs with
      | nil => simp
      | cons d cs => simp [List.cons_prefix_cons, eq_comm]
    rw [pairs_cons, List.infix_cons_iff, hprefix, not_or, ← ih]
    split
    · rename_i h
      simp [h]
    · rename_i h
      simp [h]

theorem pairs_intercalate {c : Char} (ha : c ≠ a) (hb : c ≠ b) (texts : List (List Char)) :
    pairs a b ([c].intercalate texts) = (texts.map (pairs a b)).sum := by
  induction texts with
  | nil => rfl
  | cons text texts ih =>
    cases texts with
    | nil => simp
    | cons next texts =>
      rw [List.intercalate_cons_cons, List.append_assoc, List.singleton_append, pairs_append_cons ha hb, ih]
      simp only [List.map_cons, List.sum_cons]

end Pairs

/-! ## Trimming and cutting -/

theorem toList_trimEnd (s : String) : (trimEnd s).toList = dropBlankEnd s.toList :=
  String.toList_ofList

theorem mem_of_mem_dropBlankEnd {c : Char} {cs : List Char} (h : c ∈ dropBlankEnd cs) : c ∈ cs :=
  (List.rdropWhile_prefix (p := isBlank) cs).subset h

theorem mem_of_mem_dropReturn {c : Char} {line : List Char} (h : c ∈ dropReturn line) : c ∈ line := by
  unfold dropReturn at h
  split at h
  · exact List.mem_of_mem_dropLast h
  · exact h

/-- Every line is a piece, with or without a carriage return at its end. -/
theorem exists_of_mem_linesOfPieces {line : List Char} : ∀ {texts : List (List Char)}, line ∈ linesOfPieces texts →
    ∃ text ∈ texts, ∀ c ∈ line, c ∈ text
  | [], h => by cases h
  | [last], h => by
    rw [linesOfPieces] at h
    split at h
    · cases h
    · cases List.mem_singleton.1 h
      exact ⟨line, List.mem_singleton_self _, fun c hc => hc⟩
  | text :: next :: texts, h => by
    have hstep : linesOfPieces (text :: next :: texts) = dropReturn text :: linesOfPieces (next :: texts) := rfl
    rw [hstep] at h
    rcases List.mem_cons.1 h with rfl | h
    · exact ⟨text, List.mem_cons_self, fun c => mem_of_mem_dropReturn⟩
    · obtain ⟨text', htext', hsub⟩ := exists_of_mem_linesOfPieces h
      exact ⟨text', List.mem_cons_of_mem _ htext', hsub⟩

/-- No line has a line feed in it. -/
theorem not_mem_of_mem_lines {s line : String} (h : line ∈ lines s) : '\n' ∉ line.toList := by
  obtain ⟨cs, hcs, rfl⟩ := List.mem_map.1 h
  obtain ⟨text, htext, hsub⟩ := exists_of_mem_linesOfPieces hcs
  rw [String.toList_ofList]
  intro hmem
  exact Bool.false_ne_true ((not_isSep_of_mem_pieces htext '\n' (hsub _ hmem)).symm.trans rfl)

section Sums

variable {a b : Char} (ha : isBlank a = false) (hb : isBlank b = false)

include hb

theorem pairs_dropReturn (line : List Char) : pairs a b (dropReturn line) = pairs a b line := by
  have hreturn : '\r' ≠ b := by
    rintro rfl
    exact absurd hb (by decide)
  unfold dropReturn
  split
  · rename_i hlast
    conv_rhs => rw [← List.dropLast_append_getLast? _ hlast, pairs_concat_of_ne hreturn]
  · rfl

theorem sum_pairs_linesOfPieces : ∀ texts : List (List Char),
    ((linesOfPieces texts).map (pairs a b)).sum = (texts.map (pairs a b)).sum
  | [] => rfl
  | [last] => by
    rw [linesOfPieces]
    split
    · rename_i hlast
      rw [hlast]
      rfl
    · rfl
  | text :: next :: texts => by
    have hstep : linesOfPieces (text :: next :: texts) = dropReturn text :: linesOfPieces (next :: texts) := rfl
    rw [hstep, List.map_cons, List.sum_cons, pairs_dropReturn hb, sum_pairs_linesOfPieces]
    simp only [List.map_cons, List.sum_cons]

theorem pairs_dropBlankEnd (cs : List Char) : pairs a b (dropBlankEnd cs) = pairs a b cs := by
  induction cs using List.reverseRecOn with
  | nil => rfl
  | append_singleton cs c ih =>
    by_cases hc : isBlank c = true
    · have hne : c ≠ b := by
        rintro rfl
        exact Bool.false_ne_true (hb.symm.trans hc)
      have htrim : dropBlankEnd (cs ++ [c]) = dropBlankEnd cs := List.rdropWhile_concat_pos isBlank cs c hc
      rw [htrim, ih, pairs_concat_of_ne hne]
    · have htrim : dropBlankEnd (cs ++ [c]) = cs ++ [c] := List.rdropWhile_concat_neg isBlank cs c hc
      rw [htrim]

include ha

/-- **Lines keep the pairs of a text**, if there are no blanks in them. -/
theorem sum_pairs_lines (s : String) :
    ((lines s).map fun line => pairs a b (trimEnd line).toList).sum = pairs a b s.toList := by
  have hne : ∀ c, isBlank c = false → '\n' ≠ c := fun c hc h => by
    rw [← h] at hc
    exact absurd hc (by decide)
  have htrim : ∀ line : List Char, pairs a b (trimEnd (String.ofList line)).toList = pairs a b line := by
    intro line
    rw [toList_trimEnd, String.toList_ofList, pairs_dropBlankEnd hb]
  have hlines : (lines s).map (fun line => pairs a b (trimEnd line).toList) = (lineList s.toList).map (pairs a b) := by
    rw [lines, List.map_map]
    refine List.map_congr_left fun line _ => ?_
    rw [Function.comp_apply, htrim]
  rw [hlines, lineList, sum_pairs_linesOfPieces hb, pieces_eq_splitOnP, ← List.splitOn_eq_splitOnP,
    ← pairs_intercalate (hne a ha) (hne b hb), List.intercalate_splitOn]

end Sums

/-! ## Putting lines together -/

/-- Texts without line feeds, each with a line feed behind it, are the pieces between the line feeds. -/
theorem pieces_concat_lines {texts : List String} (h : ∀ text ∈ texts, '\n' ∉ text.toList) :
    pieces (· == '\n') (concat (texts.map (· ++ "\n"))).toList = texts.map String.toList ++ [[]] := by
  induction texts with
  | nil => rfl
  | cons text texts ih =>
    obtain ⟨htext, hrest⟩ := List.forall_mem_cons.1 h
    have hchars : (concat ((text :: texts).map (· ++ "\n"))).toList =
        text.toList ++ '\n' :: (concat (texts.map (· ++ "\n"))).toList := by
      rw [List.map_cons, concat, String.toList_append, String.toList_append, List.append_assoc]
      rfl
    rw [hchars, pieces_eq_splitOnP, List.splitOnP_append_cons _ _ (by simp), ← pieces_eq_splitOnP,
      ← pieces_eq_splitOnP, pieces_of_not_mem htext, ih hrest]
    rfl

/-- The pieces still are the texts when each has an indentation before it. -/
theorem pieces_indented {indent : String} (hindent : '\n' ∉ indent.toList) {texts : List String}
    (h : ∀ text ∈ texts, '\n' ∉ text.toList) :
    pieces (· == '\n') (concat ((texts.map (indent ++ ·)).map (· ++ "\n"))).toList =
      texts.map (fun text => (indent ++ text).toList) ++ [[]] := by
  have hlines : ∀ line ∈ texts.map (indent ++ ·), '\n' ∉ line.toList := by
    intro line hline
    obtain ⟨text, htext, rfl⟩ := List.mem_map.1 hline
    rw [String.toList_append, List.mem_append, not_or]
    exact ⟨hindent, h text htext⟩
  rw [pieces_concat_lines hlines, List.map_map]
  rfl

end TypeBindings.Text
