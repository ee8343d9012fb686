import Mathlib.Data.String.Basic
import TypeBindings.Language.Java
import TypeBindings.Language.Kotlin
import TypeBindings.Proofs.Sorting

/-!
# Import blocks

While a file is written, an import is noted where it is needed, and only once (`mem_addImports`, `nodup_addImports`), so
the imports that are taken out at the end are in strict order (`pairwise_sortTexts`). They are written in a block with a
line for each of them (`importBlock`), which is what Java and Kotlin files have (`Java.importLines_eq`,
`Kotlin.importLines_eq`). Going through the lines that a text begins with, as long as they are empty or import
something, finds exactly the lines of the block (`importLinesOf_importBlock`).
-/

namespace TypeBindings

/-! ## Noting imports -/

@[simp] theorem addImports_nil (noted : List String) : addImports noted [] = noted := rfl

@[simp] theorem addImports_cons (noted : List String) (name : String) (names : List String) :
    addImports noted (name :: names) = addImports (addImport noted name) names := rfl

theorem addImports_append (noted names more : List String) :
    addImports noted (names ++ more) = addImports (addImports noted names) more :=
  List.foldl_append

/-- Imports that are noted stay in front. -/
theorem prefix_addImports (noted names : List String) : noted <+: addImports noted names := by
  induction names generalizing noted with
  | nil => exact List.prefix_rfl
  | cons name names ih =>
    have hstep : noted <+: addImport noted name := by
      unfold addImport
      split
      · exact List.prefix_rfl
      · exact List.prefix_append noted [name]
    exact hstep.trans (ih (addImport noted name))

theorem mem_addImport {noted : List String} {name other : String} :
    other ∈ addImport noted name ↔ other ∈ noted ∨ other = name := by
  unfold addImport
  split
  · rename_i h
    have hmem : name ∈ noted := by simpa using h
    constructor
    · exact .inl
    · rintro (h | rfl)
      · exact h
      · exact hmem
  · simp

theorem mem_addImports {noted names : List String} {other : String} :
    other ∈ addImports noted names ↔ other ∈ noted ∨ other ∈ names := by
  induction names generalizing noted with
  | nil => simp
  | cons name names ih => rw [addImports_cons, ih, mem_addImport, List.mem_cons, or_assoc]

theorem nodup_addImports {noted : List String} (h : noted.Nodup) (names : List String) :
    (addImports noted names).Nodup := by
  induction names generalizing noted with
  | nil => exact h
  | cons name names ih =>
    refine ih ?_
    unfold addImport
    split
    · exact h
    · rename_i hnew
      exact h.append (List.nodup_singleton name) (by simpa using hnew)

/-- Different texts are sorted in strict order. -/
theorem pairwise_sortTexts {texts : List String} (h : texts.Nodup) : (sortTexts texts).Pairwise (· < ·) := by
  have hsorted : (sortTexts texts).Pairwise fun a b => decide (a ≤ b) = true := by
    refine pairwise_sortBy_of_order (fun a b => ?_) (fun a b c hab hbc => ?_) texts
    · simpa using le_total a b
    · simp only [decide_eq_true_eq] at *
      exact hab.trans hbc
  have hne : (sortTexts texts).Nodup := (sortBy_perm texts).nodup_iff.2 h
  refine hsorted.imp₂ (fun a b hle hne => ?_) hne
  exact lt_of_le_of_ne (of_decide_eq_true hle) hne

/-- What is noted is taken out in strict order, and is what was needed. -/
structure SortedImports (needed imports : List String) : Prop where
  ascending : imports.Pairwise (· < ·)
  mem_iff : ∀ name, name ∈ imports ↔ name ∈ needed

theorem sortedImports (needed : List String) : SortedImports needed (sortTexts (addImports [] needed)) where
  ascending := pairwise_sortTexts (nodup_addImports List.nodup_nil needed)
  mem_iff name := by
    rw [sortTexts, mem_sortBy, mem_addImports]
    simp

/-! ## Writing imports -/

/-- The imports of a file as they are written: an empty line and a line for each of them, or nothing if there are
none. -/
def importBlock (ending : String) (names : List String) : String :=
  if names = [] then "" else "\n" ++ String.join (names.map fun name => "import " ++ name ++ ending ++ "\n")

theorem Text.concat_eq_join (texts : List String) : Text.concat texts = String.join texts := by
  induction texts with
  | nil => rfl
  | cons text texts ih => rw [concat, String.join_cons, ih]

theorem Java.importLines_eq (names : List String) : Java.importLines names = importBlock ";" names := by
  cases names with
  | nil => rfl
  | cons name names =>
    have hending : ";\n" = ";" ++ "\n" := rfl
    have hcons : importLines (name :: names) =
        "\n" ++ Text.concat ((name :: names).map fun name => "import " ++ name ++ ";\n") := rfl
    rw [hcons, Text.concat_eq_join, importBlock, if_neg (List.cons_ne_nil name names)]
    simp only [hending, String.append_assoc]

theorem Kotlin.importLines_eq (names : List String) : Kotlin.importLines names = importBlock "" names := by
  cases names with
  | nil => rfl
  | cons name names =>
    have hcons : importLines (name :: names) =
        "\n" ++ Text.concat ((name :: names).map fun name => "import " ++ name ++ "\n") := rfl
    rw [hcons, Text.concat_eq_join, importBlock, if_neg (List.cons_ne_nil name names)]
    simp only [String.append_empty]

/-! ## Reading imports -/

/-- A line that imports something. -/
def isImport (line : List Char) : Bool :=
  "import ".toList.isPrefixOf line

/-- The import lines among the first lines, up to a line with anything else on it. -/
def leadingImports (lines : List (List Char)) : List (List Char) :=
  (lines.takeWhile fun line => line.isEmpty || isImport line).filter isImport

/-- The import lines that a text begins with. -/
def importLinesOf (text : String) : List String :=
  (leadingImports (text.toList.splitOn '\n')).map String.ofList

theorem leadingImports_append {front : List (List Char)} (h : ∀ line ∈ front, line = [] ∨ isImport line = true)
    (rest : List (List Char)) : leadingImports (front ++ rest) = front.filter isImport ++ leadingImports rest := by
  have hfront : ∀ line ∈ front, (line.isEmpty || isImport line) = true := by
    intro line hline
    rw [Bool.or_eq_true, List.isEmpty_iff]
    exact h line hline
  rw [leadingImports, List.takeWhile_append_of_pos hfront, List.filter_append, leadingImports]

/-- Lines that are ended by line feeds are found again. -/
theorem splitOn_lines (rest : List Char) : ∀ {lines : List (List Char)}, (∀ line ∈ lines, '\n' ∉ line) →
    (lines.flatMap (· ++ ['\n']) ++ rest).splitOn '\n' = lines ++ rest.splitOn '\n'
  | [], _ => rfl
  | line :: lines, h => by
    obtain ⟨hline, hlines⟩ := List.forall_mem_cons.1 h
    have hfirst : ∀ c ∈ line, (c == '\n') = false := fun c hc => beq_false_of_ne fun heq => hline (heq ▸ hc)
    rw [List.flatMap_cons, List.append_assoc, List.append_assoc, List.singleton_append, List.cons_append,
      ← splitOn_lines rest hlines]
    exact List.splitOnP_append_cons_of_forall_mem hfirst '\n' rfl _

/-- A text that begins neither as an import line does nor with an empty line. -/
def BeginsOtherwise (text : String) : Prop :=
  ∃ c, text.toList.head? = some c ∧ c ≠ 'i' ∧ c ≠ '\n'

theorem BeginsOtherwise.append {text : String} (h : BeginsOtherwise text) (more : String) :
    BeginsOtherwise (text ++ more) := by
  obtain ⟨c, hc, hother⟩ := h
  exact ⟨c, by rw [String.toList_append, List.head?_append, hc, Option.some_or], hother⟩

/-- No import line is found where a text begins with anything else. -/
theorem BeginsOtherwise.leadingImports_eq_nil {text : String} (h : BeginsOtherwise text) :
    leadingImports (text.toList.splitOn '\n') = [] := by
  obtain ⟨c, hc, himport, hfeed⟩ := h
  obtain ⟨cs, hcs⟩ := List.head?_eq_some_iff.1 hc
  have hsplit : (c :: cs).splitOn '\n' = (cs.splitOn '\n').modifyHead (c :: ·) := by
    rw [List.splitOn, List.splitOnP_cons_eq_if_modifyHead, if_neg (by simpa using hfeed)]
    rfl
  obtain ⟨piece, pieces, hpieces⟩ := List.exists_cons_of_ne_nil (List.splitOnP_ne_nil (· == '\n') cs)
  have hword : "import ".toList = 'i' :: "mport ".toList := rfl
  have hother : isImport (c :: piece) = false := by
    rw [isImport, hword, List.isPrefixOf, beq_false_of_ne himport.symm, Bool.false_and]
  rw [hcs, hsplit, List.splitOn, hpieces, List.modifyHead_cons, leadingImports, List.takeWhile_cons_of_neg]
  · rfl
  · simp [hother]

/-- The lines of an import block. -/
def blockLines (ending : String) (names : List String) : List (List Char) :=
  if names = [] then [] else [] :: names.map fun name => ("import " ++ name ++ ending).toList

theorem toList_importBlock (ending : String) (names : List String) :
    (importBlock ending names).toList = (blockLines ending names).flatMap (· ++ ['\n']) := by
  unfold importBlock blockLines
  split
  · rfl
  · rw [String.toList_append, String.toList_join, List.flatMap_cons, List.flatMap_map, List.flatMap_map]
    simp only [String.toList_append]
    rfl

theorem eq_of_mem_blockLines {ending : String} {names : List String} {line : List Char}
    (h : line ∈ blockLines ending names) : line = [] ∨ ∃ name ∈ names, line = ("import " ++ name ++ ending).toList := by
  unfold blockLines at h
  split at h
  · cases h
  · rcases List.mem_cons.1 h with h | h
    · exact .inl h
    · obtain ⟨name, hname, hline⟩ := List.mem_map.1 h
      exact .inr ⟨name, hname, hline.symm⟩

theorem isImport_importLine (name ending : String) : isImport ("import " ++ name ++ ending).toList = true := by
  rw [isImport, List.isPrefixOf_iff_prefix, String.toList_append, String.toList_append, List.append_assoc]
  exact List.prefix_append _ _

theorem filter_blockLines (ending : String) (names : List String) :
    (blockLines ending names).filter isImport = names.map fun name => ("import " ++ name ++ ending).toList := by
  have hall : (names.map fun name => ("import " ++ name ++ ending).toList).filter isImport =
      names.map fun name => ("import " ++ name ++ ending).toList := by
    rw [List.filter_eq_self]
    intro line hline
    obtain ⟨name, -, rfl⟩ := List.mem_map.1 hline
    exact isImport_importLine name ending
  unfold blockLines
  split
  · rename_i hnone
    rw [hnone]
    rfl
  · exact hall

/-- **The import lines of a file are those of its block**, one for each import and in order, if the text behind the
block begins otherwise. -/
theorem importLinesOf_importBlock (ending : String) {names : List String} {rest : String}
    (hending : '\n' ∉ ending.toList) (hnames : ∀ name ∈ names, '\n' ∉ name.toList) (hrest : BeginsOtherwise rest) :
    importLinesOf (importBlock ending names ++ "\n" ++ rest) = names.map fun name => "import " ++ name ++ ending := by
  have hfeed : ∀ line ∈ blockLines ending names, '\n' ∉ line := by
    intro line hline
    rcases eq_of_mem_blockLines hline with rfl | ⟨name, hname, rfl⟩
    · exact List.not_mem_nil
    · simp [hnames name hname, hending]
  have hleading : ∀ line ∈ blockLines ending names, line = [] ∨ isImport line = true := by
    intro line hline
    rcases eq_of_mem_blockLines hline with rfl | ⟨name, -, rfl⟩
    · exact .inl rfl
    · exact .inr (isImport_importLine name ending)
  -- behind the block there is an empty line
  have hempty : ∀ line ∈ [([] : List Char)], '\n' ∉ line := List.forall_mem_singleton.2 List.not_mem_nil
  have hlines : (importBlock ending names ++ "\n" ++ rest).toList.splitOn '\n' =
      blockLines ending names ++ ([[]] ++ rest.toList.splitOn '\n') := by
    rw [String.toList_append, String.toList_append, toList_importBlock, List.append_assoc, splitOn_lines _ hfeed,
      ← splitOn_lines _ hempty]
    rfl
  have hnone : leadingImports ([[]] ++ rest.toList.splitOn '\n') = [] := by
    rw [leadingImports_append (List.forall_mem_singleton.2 (.inl rfl)), hrest.leadingImports_eq_nil]
    rfl
  rw [importLinesOf, hlines, leadingImports_append hleading, hnone, List.append_nil, filter_blockLines, List.map_map]
  refine List.map_congr_left fun name _ => ?_
  rw [Function.comp_apply, String.ofList_toList]

end TypeBindings
