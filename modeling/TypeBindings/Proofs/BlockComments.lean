import TypeBindings.Language.Kotlin
import TypeBindings.Proofs.TextLines

/-!
# Block comments

A description is written between `/**` and `*/`. Nothing that is put between its lines stands next to a star or a
slash of theirs, so of any two characters that are no blanks the comment has as many pairs inside as the description,
once the closings in it are broken (`pairs_inside`). Breaking takes away every `*/` and no `/*`. Hence

* if comments do not nest, the comment ends where it should and nowhere else (`block_closes_once`);
* if comments nest, every `/*` in the description opens a comment that nothing closes, and the comment ends where it
  should exactly if there is none (`Kotlin.comments_close_iff`).
-/

namespace TypeBindings

namespace Comment

open Text (pairs)

/-! ## Scanning -/

/-- The characters behind a comment of the given depth. A closing makes the depth smaller by one, and an opening makes it
larger by one if comments nest. -/
def skip (nests : Bool) : (depth : Nat) → List Char → Option (List Char)
  | 0, rest => some rest
  | depth + 1, c :: d :: rest =>
    if c = '*' ∧ d = '/' then skip nests depth rest
    else if nests ∧ c = '/' ∧ d = '*' then skip nests (depth + 2) rest
    else skip nests (depth + 1) (d :: rest)
  | _ + 1, _ => none

theorem skip_cons_cons (nests : Bool) (depth : Nat) (c d : Char) (rest : List Char) :
    skip nests (depth + 1) (c :: d :: rest) =
      if c = '*' ∧ d = '/' then skip nests depth rest
      else if nests ∧ c = '/' ∧ d = '*' then skip nests (depth + 2) rest
      else skip nests (depth + 1) (d :: rest) := rfl

/-- Text without closings is skipped up to a blank. If comments nest, the depth has grown by the number of openings. -/
theorem skip_append_blank (nests : Bool) : ∀ (depth : Nat) (cs rest : List Char), pairs '*' '/' cs = 0 →
    skip nests (depth + 1) (cs ++ ' ' :: rest) =
      skip nests (depth + 1 + if nests then pairs '/' '*' cs else 0) (' ' :: rest)
  | depth, [], rest, _ => by simp
  | depth, [c], rest, _ => by
    rw [List.singleton_append, skip_cons_cons, if_neg (by simp), if_neg (by simp)]
    simp [Text.pairs_cons]
  | depth, c :: d :: cs, rest, h => by
    have hclosing : ¬(c = '*' ∧ d = '/') := by
      rintro ⟨rfl, rfl⟩
      simp [Text.pairs_cons] at h
    have hrest : pairs '*' '/' (d :: cs) = 0 := by
      rw [Text.pairs_cons] at h
      omega
    rw [List.cons_append, List.cons_append, skip_cons_cons, if_neg hclosing]
    -- an opening takes both of its characters, and its star begins no closing, since there is none
    by_cases hopening : nests ∧ c = '/' ∧ d = '*'
    · obtain ⟨rfl, rfl, rfl⟩ := hopening
      have hcs : pairs '*' '/' cs = 0 := by
        rw [Text.pairs_cons] at hrest
        omega
      have hpairs : pairs '/' '*' ('/' :: '*' :: cs) = pairs '/' '*' cs + 1 := by
        rw [Text.pairs_cons, Text.pairs_cons_of_ne (by decide), if_pos ⟨rfl, rfl⟩]
      rw [if_pos ⟨rfl, rfl, rfl⟩, skip_append_blank true (depth + 1) cs rest hcs, hpairs, if_pos rfl, if_pos rfl]
      congr 1
      omega
    · have hpairs : (if nests then pairs '/' '*' (c :: d :: cs) else 0) =
          if nests then pairs '/' '*' (d :: cs) else 0 := by
        cases nests with
        | false => rfl
        | true =>
          rw [if_pos rfl, if_pos rfl, Text.pairs_cons, if_neg, Nat.add_zero]
          exact fun h => hopening ⟨rfl, h.1, Option.some.inj h.2⟩
      rw [if_neg hopening, hpairs]
      exact skip_append_blank nests depth (d :: cs) rest hrest

/-! ## Breaking closings -/

theorem head?_breakClosing (cs : List Char) : (breakClosing cs).head? = cs.head? := by
  fun_cases breakClosing cs with
  | case1 => rfl
  | case2 c => rfl
  | case3 c d rest h =>
    simp only [Bool.and_eq_true, decide_eq_true_eq] at h
    rw [h.1]
    rfl
  | case4 c d rest h => rfl

/-- No closing is left. -/
theorem pairs_closing_breakClosing (cs : List Char) : pairs '*' '/' (breakClosing cs) = 0 := by
  fun_induction breakClosing cs with
  | case1 => rfl
  | case2 c => rfl
  | case3 c d rest h ih => simp [Text.pairs_cons, ih]
  | case4 c d rest h ih =>
    rw [Text.pairs_cons, ih, head?_breakClosing]
    simpa using h

/-- Openings stay as they are. -/
theorem pairs_opening_breakClosing (cs : List Char) : pairs '/' '*' (breakClosing cs) = pairs '/' '*' cs := by
  fun_induction breakClosing cs with
  | case1 => rfl
  | case2 c => rfl
  | case3 c d rest h ih =>
    simp only [Bool.and_eq_true, decide_eq_true_eq] at h
    obtain ⟨rfl, rfl⟩ := h
    have hstar : pairs '/' '*' ('*' :: '/' :: rest) = pairs '/' '*' ('/' :: rest) :=
      Text.pairs_cons_of_ne (by decide) _
    rw [Text.pairs_cons_of_ne (by decide), Text.pairs_cons_of_ne (by decide), Text.pairs_cons, ih,
      head?_breakClosing, ← Text.pairs_cons, hstar]
  | case4 c d rest h ih => rw [Text.pairs_cons, ih, head?_breakClosing, ← Text.pairs_cons]

theorem pairs_blockTexts {a b : Char} (ha : Text.isBlank a = false) (hb : Text.isBlank b = false)
    (description : String) :
    ((blockTexts description).map fun line => pairs a b line.toList).sum =
      pairs a b (breakClosing description.toList) := by
  rw [blockTexts, List.map_map, Function.comp_def, Text.sum_pairs_lines ha hb, String.toList_ofList]

/-! ## The text of a comment -/

/-- A block comment with an indentation before each of its lines. -/
def blockText (indent description : String) : String :=
  Text.concat (((block description).map (indent ++ ·)).map (· ++ "\n"))

/-- What is between the opening of a comment and its closing, a blank before the closing apart. -/
def inside (indent description : String) : List Char :=
  if (blockTexts description).length ≤ 1 then '*' :: ' ' :: (blockTexts description).flatMap String.toList
  else '*' :: '\n' ::
    (blockTexts description).flatMap (fun line => indent.toList ++ (starred line).toList ++ ['\n']) ++ indent.toList

theorem toList_blockText (indent description : String) :
    (blockText indent description).toList =
      indent.toList ++ '/' :: '*' :: (inside indent description ++ ' ' :: '*' :: '/' :: ['\n']) := by
  unfold blockText block inside
  rw [Text.toList_concat]
  rcases blockTexts description with _ | ⟨line, _ | ⟨next, lines⟩⟩
  · simp
  · simp
  · simp [List.flatMap_map]

theorem head?_inside (indent description : String) : (inside indent description).head? = some '*' := by
  unfold inside
  split
  · rfl
  · rfl

section Inside

variable {a b : Char} (ha : Text.isBlank a = false) (hb : Text.isBlank b = false)

include ha hb

theorem ne_of_isBlank {c : Char} (hc : Text.isBlank c = true) : c ≠ a ∧ c ≠ b := by
  constructor
  · rintro rfl
    exact Bool.false_ne_true (ha.symm.trans hc)
  · rintro rfl
    exact Bool.false_ne_true (hb.symm.trans hc)

/-- A star before a blank is in no pair. -/
theorem pairs_star_cons {c : Char} (hc : Text.isBlank c = true) (cs : List Char) :
    pairs a b ('*' :: c :: cs) = pairs a b cs := by
  obtain ⟨hca, hcb⟩ := ne_of_isBlank ha hb hc
  rw [Text.pairs_cons, Text.pairs_cons_of_ne hca, if_neg, Nat.add_zero]
  exact fun h => hcb (Option.some.inj h.2)

theorem pairs_starred (line : String) : pairs a b (starred line).toList = pairs a b line.toList := by
  have hspace := (ne_of_isBlank ha hb (c := ' ') rfl).1
  unfold starred
  split
  · rename_i hempty
    simp [String.isEmpty_iff.1 hempty, Text.pairs_cons, hspace]
  · rw [String.toList_append]
    exact (Text.pairs_cons_of_ne hspace _).trans (pairs_star_cons ha hb rfl _)

/-- Indentations and line ends are in no pair. -/
theorem pairs_lines {indent : List Char} (hindent : ∀ c ∈ indent, Text.isBlank c = true) (lines : List String) :
    pairs a b (lines.flatMap (fun line => indent ++ (starred line).toList ++ ['\n']) ++ indent) =
      (lines.map fun line => pairs a b line.toList).sum := by
  obtain ⟨hfeeda, hfeedb⟩ := ne_of_isBlank ha hb (c := '\n') rfl
  have hmem : a ∉ indent := fun h => (ne_of_isBlank ha hb (hindent a h)).1 rfl
  induction lines with
  | nil =>
    have hnone := Text.pairs_append_of_not_mem (b := b) hmem []
    rw [List.append_nil] at hnone
    exact hnone
  | cons line lines ih =>
    rw [List.flatMap_cons, List.append_assoc, List.append_assoc, List.append_assoc, Text.pairs_append_of_not_mem hmem,
      List.singleton_append, Text.pairs_append_cons hfeeda hfeedb, pairs_starred ha hb, ih, List.map_cons,
      List.sum_cons]

/-- **A comment has the pairs of its description**, with the closings in it broken. -/
theorem pairs_inside {indent : String} (hindent : ∀ c ∈ indent.toList, Text.isBlank c = true) (description : String) :
    pairs a b (inside indent description) = pairs a b (breakClosing description.toList) := by
  rw [← pairs_blockTexts ha hb]
  unfold inside
  split
  · rename_i hlength
    rw [pairs_star_cons ha hb rfl]
    rcases htexts : blockTexts description with _ | ⟨line, _ | ⟨next, lines⟩⟩
    · rfl
    · simp
    · simp [htexts] at hlength
  · rw [List.cons_append, List.cons_append, pairs_star_cons ha hb rfl, pairs_lines ha hb hindent]

end Inside

theorem pairs_closing_inside {indent : String} (hindent : ∀ c ∈ indent.toList, Text.isBlank c = true)
    (description : String) : pairs '*' '/' (inside indent description) = 0 :=
  (pairs_inside rfl rfl hindent description).trans (pairs_closing_breakClosing _)

/-- **Where a comment ends.** A scanner that has seen its opening comes to its last line feed. If comments nest, there
are as many comments open then as there are openings in the description. -/
theorem skip_blockText (nests : Bool) {indent : String} (hindent : ∀ c ∈ indent.toList, Text.isBlank c = true)
    (description : String) (more : List Char) :
    skip nests 1 (inside indent description ++ ' ' :: '*' :: '/' :: '\n' :: more) =
      skip nests (if nests then pairs '/' '*' description.toList else 0) ('\n' :: more) := by
  have hopenings : pairs '/' '*' (inside indent description) = pairs '/' '*' description.toList :=
    (pairs_inside rfl rfl hindent description).trans (pairs_opening_breakClosing _)
  rw [skip_append_blank nests 0 _ _ (pairs_closing_inside hindent description), hopenings, Nat.zero_add, Nat.add_comm,
    skip_cons_cons, if_neg (by decide), if_neg (by simp), skip_cons_cons, if_pos ⟨rfl, rfl⟩]

/-! ## Lines of a comment -/

theorem not_mem_of_mem_block {description line : String} (h : line ∈ block description) : '\n' ∉ line.toList := by
  have htexts : ∀ line ∈ blockTexts description, '\n' ∉ line.toList := by
    intro line hline hmem
    obtain ⟨line, hlines, rfl⟩ := List.mem_map.1 hline
    rw [Text.toList_trimEnd] at hmem
    exact Text.not_mem_of_mem_lines hlines (Text.mem_of_mem_dropBlankEnd hmem)
  rcases eq_of_mem_block h with rfl | rfl | rfl | ⟨text, htext, rfl | rfl⟩
  · decide
  · decide
  · decide
  · simpa using htexts text htext
  · unfold starred
    split
    · decide
    · simpa using htexts text htext

/-- Every line of a comment begins with its indentation. -/
theorem pieces_blockText {indent : String} (hindent : '\n' ∉ indent.toList) (description : String) :
    Text.pieces (· == '\n') (blockText indent description).toList =
      (block description).map (fun line => (indent ++ line).toList) ++ [[]] :=
  Text.pieces_indented hindent fun _ => not_mem_of_mem_block

/-- Before other lines, a comment is written with an indentation before each of its lines, if none of them is empty. -/
theorem renderLines_comment {comment : String → List String} {description : String}
    (hne : ∀ line ∈ comment description, line ≠ "") (style : IndentStyle) (level depth : Nat) (lines : List Line) :
    renderLines style level (documented comment depth (some description) ++ lines) =
      Text.concat (((comment description).map (style.indent (level + depth) ++ ·)).map (· ++ "\n")) ++
        renderLines style level lines := by
  have hline : ∀ line ∈ comment description, Line.render style level ⟨depth, line⟩ =
      style.indent (level + depth) ++ line ++ "\n" := by
    intro line hline
    rw [Line.render, String.isEmpty_eq_false_iff.2 (hne line hline)]
    rfl
  have hcomment : (documented comment depth (some description)).map (Line.render style level) =
      ((comment description).map (style.indent (level + depth) ++ ·)).map (· ++ "\n") := by
    rw [documented, Line.block, List.map_map, List.map_map]
    exact List.map_congr_left hline
  rw [renderLines, List.map_append, Text.concat_append, hcomment]
  rfl

theorem renderLines_documented (style : IndentStyle) (level depth : Nat) (description : String) (lines : List Line) :
    renderLines style level (documented block depth (some description) ++ lines) =
      blockText (style.indent (level + depth)) description ++ renderLines style level lines := by
  refine renderLines_comment (fun line hline => ?_) style level depth lines
  rintro rfl
  rcases head?_of_mem_block hline with h | h <;> cases h

/-- **Block comments close once.** With any indentation of spaces and tabs, and so with those that declarations are
written with, the text of a comment begins with the indentation and `/**`. Behind its opening there is one closing, right
before the line feed at the end, and every line begins with the indentation. So a scanner for comments that do not nest
comes to the end of the text, whatever the description is and whatever comes after it. -/
theorem block_closes_once (indent description : String) (hindent : ∀ c ∈ indent.toList, c = ' ' ∨ c = '\t') :
    (∀ (style : IndentStyle) (level depth : Nat), style.indent (level + depth) = indent →
      renderLines style level (documented block depth (some description)) = blockText indent description) ∧
    ∃ body : List Char, (blockText indent description).toList = indent.toList ++ '/' :: '*' :: body ∧
      body.head? = some '*' ∧ pairs '*' '/' body = 1 ∧ ['*', '/', '\n'] <:+ body ∧
      (∃ lines, Text.pieces (· == '\n') (blockText indent description).toList = lines ++ [[]] ∧
        ∀ line ∈ lines, indent.toList <+: line) ∧
      ∀ more, skip false 1 (body ++ more) = some ('\n' :: more) := by
  have hblank : ∀ c ∈ indent.toList, Text.isBlank c = true := by
    intro c hc
    rcases hindent c hc with rfl | rfl <;> rfl
  have hfeed : '\n' ∉ indent.toList := fun h => by
    rcases hindent '\n' h with h | h <;> exact absurd h (by decide)
  refine ⟨?_, _, toList_blockText indent description, ?_, ?_, ?_, ⟨_, pieces_blockText hfeed _, ?_⟩, ?_⟩
  · rintro style level depth rfl
    have hrender := renderLines_documented style level depth description []
    rw [List.append_nil] at hrender
    exact hrender.trans String.append_empty
  · rw [List.head?_append, head?_inside]
    rfl
  · rw [Text.pairs_append_cons (by decide) (by decide), pairs_closing_inside hblank]
    rfl
  · exact ⟨inside indent description ++ [' '], by simp⟩
  · intro line hline
    obtain ⟨text, -, rfl⟩ := List.mem_map.1 hline
    exact ⟨text.toList, String.toList_append.symm⟩
  · intro more
    have hskip := skip_blockText false hblank description more
    rw [List.append_assoc]
    exact hskip

theorem block_closes_once_stars :
    (∀ c ∈ "\t ".toList, c = ' ' ∨ c = '\t') ∧
      (blockText "\t " "a **\r\n/ b */\n\n*").toList =
        "\t /**\n\t  * a **\n\t  * / b *\\/\n\t  *\n\t  * *\n\t  */\n".toList ∧
      ∃ body : List Char, (blockText "\t " "a **\r\n/ b */\n\n*").toList = "\t ".toList ++ '/' :: '*' :: body ∧
        pairs '*' '/' body = 1 ∧ skip false 1 body = some ['\n'] := by
  have hindent : ∀ c ∈ "\t ".toList, c = ' ' ∨ c = '\t' := by
    intro c hc
    have hchars : "\t ".toList = ['\t', ' '] := rfl
    rw [hchars, List.mem_pair] at hc
    exact hc.symm
  obtain ⟨-, body, hbody, -, hpairs, -, -, hskip⟩ := block_closes_once "\t " "a **\r\n/ b */\n\n*" hindent
  refine ⟨hindent, by decide +kernel, body, hbody, hpairs, ?_⟩
  have hend := hskip []
  rw [List.append_nil] at hend
  exact hend

end Comment

/-! ## Comments that nest -/

theorem IndentStyle.eq_of_mem_indent {style : IndentStyle} {level : Nat} {c : Char}
    (h : c ∈ (style.indent level).toList) : c = ' ' ∨ c = '\t' := by
  cases style with
  | spaces width =>
    rw [IndentStyle.indent, String.toList_ofList] at h
    exact .inl (List.eq_of_mem_replicate h)
  | tabs =>
    rw [IndentStyle.indent, String.toList_ofList] at h
    exact .inr (List.eq_of_mem_replicate h)

theorem IndentStyle.isBlank_of_mem_indent (style : IndentStyle) (level : Nat) :
    ∀ c ∈ (style.indent level).toList, Text.isBlank c = true := by
  intro c hc
  rcases eq_of_mem_indent hc with rfl | rfl
  · rfl
  · rfl

namespace Kotlin

open Text (pairs)

/-- **Comments close unless there is an opening in the description.** A description adds its comment before a
declaration, and before a field, and nothing else. When a scanner for comments that nest has seen the opening of the
comment and comes to its last line feed, as many comments are open as there are openings in the description. So it finds
the end of the comment there, and not earlier, exactly if there are none. -/
theorem comments_close_iff (style : IndentStyle) (level : Nat) (text : String) :
    (∀ (s : TypeSystem) (d : Definition), d.description = some text →
      renderLines style level (declaration s d).lines = Comment.blockText (style.indent level) text ++
        renderLines style level (declaration s { d with description := none }).lines) ∧
    (∀ p : Property, p.description = some text →
      renderLines style level (propertyLines p) = Comment.blockText (style.indent (level + 1)) text ++
        renderLines style level (propertyLines { p with description := none })) ∧
    ∀ n, ∃ body : List Char,
      (Comment.blockText (style.indent n) text).toList = (style.indent n).toList ++ '/' :: '*' :: body ∧
      (∀ more, Comment.skip true 1 (body ++ more) = Comment.skip true (pairs '/' '*' text.toList) ('\n' :: more)) ∧
      (Comment.skip true 1 body = some ['\n'] ↔ ¬['/', '*'] <:+: text.toList) := by
  refine ⟨fun s d hd => ?_, fun p hp => ?_, fun n => ?_⟩
  · have hlines : (declaration s d).lines = documented Comment.block 0 (some text) ++
        (declaration s { d with description := none }).lines := by
      rw [← hd]
      rfl
    rw [hlines, Comment.renderLines_documented, Nat.add_zero]
  · have hlines : propertyLines p = documented Comment.block 1 (some text) ++
        propertyLines { p with description := none } := by
      rw [← hp]
      rfl
    rw [hlines, Comment.renderLines_documented]
  · have hskip := Comment.skip_blockText true (style.isBlank_of_mem_indent n) text
    refine ⟨_, Comment.toList_blockText (style.indent n) text, fun more => ?_, ?_⟩
    · rw [List.append_assoc]
      exact hskip more
    · rw [hskip [], if_pos rfl, ← Text.pairs_eq_zero_iff]
      cases pairs '/' '*' text.toList with
      | zero => exact iff_of_true rfl rfl
      | succ count => exact iff_of_false (by simp [Comment.skip]) (Nat.succ_ne_zero count)

def path : Property where
  name := "path"
  shape := .primitive "string"
  required := false
  description := some "A path"

/-- A record with an opening in its description, and none in that of its field. -/
def glob : Definition :=
  (Definition.record "Glob" [path]).describe "All of src/*"

theorem comments_close_iff_glob :
    glob.description = some "All of src/*" ∧ path.description = some "A path" ∧
      renderLines language.style 0 (declaration ⟨none, [glob]⟩ glob).lines =
        Comment.blockText "" "All of src/*" ++
          renderLines language.style 0 (declaration ⟨none, [glob]⟩ { glob with description := none }).lines ∧
      renderLines language.style 0 (propertyLines path) =
        Comment.blockText "    " "A path" ++ "    val path: String? = null,\n" ∧
      (∃ body : List Char, (Comment.blockText "" "All of src/*").toList = '/' :: '*' :: body ∧
        Comment.skip true 1 body ≠ some ['\n']) ∧
      ∃ body : List Char, (Comment.blockText "    " "A path").toList = "    ".toList ++ '/' :: '*' :: body ∧
        Comment.skip true 1 body = some ['\n'] := by
  obtain ⟨hglob, -, hopen⟩ := comments_close_iff language.style 0 "All of src/*"
  obtain ⟨-, hpath, hclosed⟩ := comments_close_iff language.style 0 "A path"
  obtain ⟨body, hbody, -, hiff⟩ := hopen 0
  obtain ⟨body', hbody', -, hiff'⟩ := hclosed 1
  refine ⟨rfl, rfl, hglob ⟨none, [glob]⟩ glob rfl, ?_, ⟨body, hbody, fun h => hiff.1 h ?_⟩, body', hbody', hiff'.2 ?_⟩
  · exact (hpath path rfl).trans (by decide +kernel)
  · decide +kernel
  · decide +kernel

/-- **An opening in a description leaves the comment open.** The scanner does not find the end of the comment, neither in
its own text nor in the whole declaration. -/
theorem opening_left_open :
    Comment.blockText "" "All of src/*" = "/** All of src/* */\n" ∧
      Comment.skip true 1 "* All of src/* */\n".toList = none ∧
      ⟨0, "/** All of src/* */"⟩ ∈ (declaration ⟨none, [glob]⟩ glob).lines ∧
      Comment.skip true 1 ((declarationText ⟨none, [glob]⟩ glob).toList.drop 2) = none := by
  refine ⟨by decide +kernel, by decide +kernel, by decide +kernel, by decide +kernel⟩

end Kotlin

end TypeBindings
