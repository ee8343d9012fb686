import TypeBindings.Language.CSharp
import TypeBindings.Proofs.BlockComments

/-!
# Summaries

A description is written in lines that begin with three slashes, and its ampersands and angle brackets are written as
entities. Blanks are written as themselves and nothing else is written with one (`Text.KeepsBlanks`), so a text may be
cut into lines and trimmed before its characters are written or after (`KeepsBlanks.trimmed_lines`), and every line of
the description has one line in the summary (`summary_eq`). Hence

* the lines of the description can be read in the summary (`summary_reads_back`);
* of the lines that source code has there, which end at carriage returns as well, those are commented out that come
  first in a line of the summary; whether all are is a question about the carriage returns in the description
  (`summary_holds_text_iff`).
-/

namespace TypeBindings

namespace Text

/-! ## Writing characters as others -/

theorem isBlank_of_getLast?_dropBlankEnd {c : Char} {cs : List Char} (h : (dropBlankEnd cs).getLast? = some c) :
    isBlank c = false := by
  have hne : cs.rdropWhile isBlank ≠ [] := by
    intro hnil
    rw [dropBlankEnd, ← List.rdropWhile, hnil] at h
    cases h
  have hlast := List.rdropWhile_last_not isBlank cs hne
  have heq : (cs.rdropWhile isBlank).getLast hne = c :=
    Option.some.inj ((List.getLast?_eq_some_getLast hne).symm.trans h)
  rw [heq, Bool.not_eq_true] at hlast
  exact hlast

/-- Every blank is written as itself, and every other character as one or more characters that are no blanks. -/
structure KeepsBlanks (write : Char → List Char) : Prop where
  blank : ∀ c, isBlank c = true → write c = [c]
  visible : ∀ c, isBlank c = false → write c ≠ [] ∧ ∀ d ∈ write c, isBlank d = false

namespace KeepsBlanks

variable {write : Char → List Char} (h : KeepsBlanks write)

include h

/-- The last character that is written for a character is a blank exactly if this is one. -/
theorem exists_last (c : Char) : ∃ front d, write c = front ++ [d] ∧ isBlank d = isBlank c ∧
    (isBlank c = true → d = c ∧ front = []) := by
  by_cases hc : isBlank c = true
  · exact ⟨[], c, h.blank c hc, rfl, fun _ => ⟨rfl, rfl⟩⟩
  · rw [Bool.not_eq_true] at hc
    obtain ⟨hne, hvisible⟩ := h.visible c hc
    refine ⟨_, _, (List.dropLast_append_getLast hne).symm, ?_, fun hblank => ?_⟩
    · rw [hvisible _ (List.getLast_mem hne), hc]
    · exact absurd (hc.symm.trans hblank) Bool.false_ne_true

theorem flatMap_eq_nil_iff (cs : List Char) : cs.flatMap write = [] ↔ cs = [] := by
  cases cs with
  | nil => simp
  | cons c cs =>
    obtain ⟨front, d, hwrite, -⟩ := h.exists_last c
    simp [hwrite]

/-- No blanks come or go. -/
theorem mem_flatMap_iff {d : Char} (hd : isBlank d = true) (cs : List Char) : d ∈ cs.flatMap write ↔ d ∈ cs := by
  rw [List.mem_flatMap]
  constructor
  · rintro ⟨c, hc, hmem⟩
    by_cases hblank : isBlank c = true
    · rw [h.blank c hblank, List.mem_singleton] at hmem
      rwa [hmem]
    · have hvisible := (h.visible c (by simpa using hblank)).2 d hmem
      exact absurd (hvisible.symm.trans hd) Bool.false_ne_true
  · intro hmem
    exact ⟨d, hmem, by rw [h.blank d hd]; exact List.mem_singleton_self d⟩

/-- Text may be cut at blanks before it is written or after. -/
theorem pieces_flatMap {isSep : Char → Bool} (hsep : ∀ c, isSep c = true → isBlank c = true) (cs : List Char) :
    pieces isSep (cs.flatMap write) = (pieces isSep cs).map (List.flatMap write) := by
  induction cs with
  | nil => rfl
  | cons c cs ih =>
    rw [List.flatMap_cons]
    by_cases hc : isSep c = true
    · rw [h.blank c (hsep c hc), List.singleton_append, pieces, pieces, if_pos hc, if_pos hc, ih]
      rfl
    · rw [Bool.not_eq_true] at hc
      have hwrite : ∀ d ∈ write c, isSep d = false := by
        intro d hd
        by_cases hblank : isBlank c = true
        · rw [h.blank c hblank] at hd
          rwa [List.mem_singleton.1 hd]
        · have hvisible := (h.visible c (by simpa using hblank)).2 d hd
          by_contra hsep'
          exact Bool.false_ne_true (hvisible.symm.trans (hsep d (by simpa using hsep')))
      have hcons := pieces_append (List.forall_mem_singleton.2 hc) cs
      rw [pieces_append hwrite, ih, ← List.singleton_append, hcons]
      cases pieces isSep cs with
      | nil => rfl
      | cons piece rest => simp

theorem dropReturn_flatMap (line : List Char) :
    dropReturn (line.flatMap write) = (dropReturn line).flatMap write := by
  induction line using List.reverseRecOn with
  | nil => rfl
  | append_singleton line c _ =>
    obtain ⟨front, d, hwrite, hd, hblank⟩ := h.exists_last c
    have hlast : d = '\r' ↔ c = '\r' := by
      constructor
      · rintro rfl
        exact (hblank (hd.symm.trans rfl)).1.symm
      · rintro rfl
        exact (hblank rfl).1
    unfold dropReturn
    simp only [List.flatMap_append, List.flatMap_singleton, hwrite, ← List.append_assoc, List.getLast?_concat,
      Option.some.injEq, hlast, List.dropLast_concat]
    split
    · rename_i hc
      rw [(hblank (by rw [hc]; rfl)).2, List.append_nil]
    · simp [hwrite]

theorem dropBlankEnd_flatMap (cs : List Char) :
    dropBlankEnd (cs.flatMap write) = (dropBlankEnd cs).flatMap write := by
  induction cs using List.reverseRecOn with
  | nil => rfl
  | append_singleton cs c ih =>
    obtain ⟨front, d, hwrite, hd, hblank⟩ := h.exists_last c
    have hboth : (cs ++ [c]).flatMap write = cs.flatMap write ++ front ++ [d] := by simp [hwrite]
    by_cases hc : isBlank c = true
    · have hleft : dropBlankEnd (cs.flatMap write ++ front ++ [d]) = dropBlankEnd (cs.flatMap write ++ front) :=
        List.rdropWhile_concat_pos isBlank _ d (hd.trans hc)
      have hright : dropBlankEnd (cs ++ [c]) = dropBlankEnd cs := List.rdropWhile_concat_pos isBlank cs c hc
      rw [hboth, hleft, hright, (hblank hc).2, List.append_nil, ih]
    · have hleft : dropBlankEnd (cs.flatMap write ++ front ++ [d]) = cs.flatMap write ++ front ++ [d] :=
        List.rdropWhile_concat_neg isBlank _ d (hd ▸ hc)
      have hright : dropBlankEnd (cs ++ [c]) = cs ++ [c] := List.rdropWhile_concat_neg isBlank cs c hc
      rw [hboth, hleft, hright, hboth]

theorem linesOfPieces_map : ∀ texts : List (List Char),
    linesOfPieces (texts.map (List.flatMap write)) = (linesOfPieces texts).map (List.flatMap write)
  | [] => rfl
  | [last] => by
    have hlast := h.flatMap_eq_nil_iff last
    simp only [List.map_singleton, linesOfPieces, hlast]
    split
    · rfl
    · rfl
  | text :: next :: texts => by
    have hstep : linesOfPieces (text :: next :: texts) = dropReturn text :: linesOfPieces (next :: texts) := rfl
    have hmap : linesOfPieces ((text :: next :: texts).map (List.flatMap write)) =
        dropReturn (text.flatMap write) :: linesOfPieces ((next :: texts).map (List.flatMap write)) := rfl
    rw [hmap, linesOfPieces_map (next :: texts), hstep, List.map_cons, h.dropReturn_flatMap]

/-- **Text may be cut into lines and trimmed before it is written or after.** -/
theorem trimmed_lines (s : String) :
    (lines (String.ofList (s.toList.flatMap write))).map trimEnd =
      (lines s).map fun line => String.ofList ((trimEnd line).toList.flatMap write) := by
  have hfeed : ∀ c, (c == '\n') = true → isBlank c = true := by
    intro c hc
    rw [beq_iff_eq.1 hc]
    rfl
  unfold lines lineList
  rw [String.toList_ofList, h.pieces_flatMap hfeed, h.linesOfPieces_map, List.map_map, List.map_map, List.map_map]
  refine List.map_congr_left fun line _ => ?_
  simp only [Function.comp_apply, trimEnd, String.toList_ofList, h.dropBlankEnd_flatMap]

end KeepsBlanks

/-! ## Lines of source code -/

/-- The lines of a source text. A line ends at a line feed, at a carriage return, or at both together. -/
def sourceLines : List Char → List (List Char)
  | [] => [[]]
  | '\r' :: '\n' :: rest => [] :: sourceLines rest
  | c :: rest =>
    if c = '\n' ∨ c = '\r' then [] :: sourceLines rest else (sourceLines rest).modifyHead (c :: ·)

theorem sourceLines_feed (rest : List Char) : sourceLines ('\n' :: rest) = [] :: sourceLines rest := by
  rw [sourceLines, if_pos (.inl rfl)]
  intro rest' h
  exact absurd h (by decide)

/-- A carriage return ends a line if no line feed follows. -/
theorem sourceLines_return {c : Char} (hc : c ≠ '\n') (rest : List Char) :
    sourceLines ('\r' :: c :: rest) = [] :: sourceLines (c :: rest) := by
  rw [sourceLines, if_pos (.inr rfl)]
  rintro rest' - h
  exact hc (List.cons.inj h).1

theorem sourceLines_cons {c : Char} (hfeed : c ≠ '\n') (hreturn : c ≠ '\r') (rest : List Char) :
    sourceLines (c :: rest) = (sourceLines rest).modifyHead (c :: ·) := by
  rw [sourceLines, if_neg (by simp [hfeed, hreturn])]
  rintro rest' rfl -
  exact hreturn rfl

/-- A line of text is as many lines of source code as it has pieces between carriage returns. -/
theorem sourceLines_append {line : List Char} (hfeed : '\n' ∉ line) (hlast : line.getLast? ≠ some '\r')
    (rest : List Char) :
    sourceLines (line ++ '\n' :: rest) = pieces (· == '\r') line ++ sourceLines rest := by
  induction line with
  | nil => exact sourceLines_feed rest
  | cons c line ih =>
    rw [List.mem_cons, not_or] at hfeed
    by_cases hc : c = '\r'
    · subst hc
      -- the carriage return is not the last character, so something other than a line feed follows
      cases line with
      | nil => exact absurd rfl hlast
      | cons d line =>
        have hd : d ≠ '\n' := fun h => hfeed.2 (h ▸ List.mem_cons_self)
        have hpieces : pieces (· == '\r') ('\r' :: d :: line) = [] :: pieces (· == '\r') (d :: line) := if_pos rfl
        rw [List.getLast?_cons_cons] at hlast
        rw [List.cons_append, List.cons_append, sourceLines_return hd, ← List.cons_append, ih hfeed.2 hlast, hpieces,
          List.cons_append]
    · have hlast' : line.getLast? ≠ some '\r' := by
        cases line with
        | nil => simp
        | cons d line => rwa [List.getLast?_cons_cons] at hlast
      have hpieces : pieces (· == '\r') ([c] ++ line) = (pieces (· == '\r') line).modifyHead ([c] ++ ·) :=
        pieces_append (by simp [hc]) line
      rw [List.cons_append, sourceLines_cons (Ne.symm hfeed.1) hc, ih hfeed.2 hlast', ← List.singleton_append, hpieces]
      cases h : pieces (· == '\r') line with
      | nil => exact absurd h (pieces_ne_nil line)
      | cons piece more => rfl

theorem sourceLines_concat {texts : List String} (hfeed : ∀ text ∈ texts, '\n' ∉ text.toList)
    (hlast : ∀ text ∈ texts, text.toList.getLast? ≠ some '\r') :
    sourceLines (concat (texts.map (· ++ "\n"))).toList =
      texts.flatMap (fun text => pieces (· == '\r') text.toList) ++ [[]] := by
  induction texts with
  | nil => rfl
  | cons text texts ih =>
    obtain ⟨hfeed₁, hfeed₂⟩ := List.forall_mem_cons.1 hfeed
    obtain ⟨hlast₁, hlast₂⟩ := List.forall_mem_cons.1 hlast
    have hchars : (concat ((text :: texts).map (· ++ "\n"))).toList =
        text.toList ++ '\n' :: (concat (texts.map (· ++ "\n"))).toList := by
      rw [List.map_cons, concat, String.toList_append, String.toList_append, List.append_assoc]
      rfl
    rw [hchars, sourceLines_append hfeed₁ hlast₁, ih hfeed₂ hlast₂, List.flatMap_cons, List.append_assoc]

end Text

namespace Comment

/-! ## Entities -/

/-- The entities that stand for characters with a meaning in markup. -/
def entities : List (List Char) :=
  [['&', 'a', 'm', 'p', ';'], ['&', 'l', 't', ';'], ['&', 'g', 't', ';']]

/-- The text that is meant by a text with entities. -/
def readMarkup : List Char → List Char
  | '&' :: 'a' :: 'm' :: 'p' :: ';' :: rest => '&' :: readMarkup rest
  | '&' :: 'l' :: 't' :: ';' :: rest => '<' :: readMarkup rest
  | '&' :: 'g' :: 't' :: ';' :: rest => '>' :: readMarkup rest
  | c :: rest => c :: readMarkup rest
  | [] => []

/-- Every ampersand is the first character of an entity. -/
def EntitiesOnly (text : List Char) : Prop :=
  ∀ rest, '&' :: rest <:+ text → ∃ entity ∈ entities, entity <+: '&' :: rest

theorem entitiesOnly_cons_iff {c : Char} {text : List Char} :
    EntitiesOnly (c :: text) ↔ (c = '&' → ∃ entity ∈ entities, entity <+: c :: text) ∧ EntitiesOnly text := by
  unfold EntitiesOnly
  constructor
  · intro h
    refine ⟨?_, fun rest hrest => h rest (hrest.trans (List.suffix_cons c text))⟩
    rintro rfl
    exact h text List.suffix_rfl
  · rintro ⟨hc, htext⟩ rest hrest
    rcases List.suffix_cons_iff.1 hrest with heq | hrest
    · obtain ⟨rfl, rfl⟩ := List.cons.inj heq
      exact hc rfl
    · exact htext rest hrest

theorem EntitiesOnly.append {front text : List Char} (hfront : '&' ∉ front) (h : EntitiesOnly text) :
    EntitiesOnly (front ++ text) := by
  induction front with
  | nil => exact h
  | cons c front ih =>
    rw [List.mem_cons, not_or] at hfront
    exact entitiesOnly_cons_iff.2 ⟨fun hc => absurd hc.symm hfront.1, ih hfront.2⟩

/-- An entity is an ampersand with characters behind it that are no markup and no blanks. -/
theorem exists_of_mem_entities {entity : List Char} (h : entity ∈ entities) :
    ∃ name, entity = '&' :: name ∧ (∀ d ∈ name, d ∉ ['&', '<', '>']) ∧ ∀ d ∈ name, Text.isBlank d = false := by
  simp only [entities, List.mem_cons, List.not_mem_nil, or_false] at h
  rcases h with rfl | rfl | rfl
  · exact ⟨_, rfl, by simp, by simp [Text.isBlank]⟩
  · exact ⟨_, rfl, by simp, by simp [Text.isBlank]⟩
  · exact ⟨_, rfl, by simp, by simp [Text.isBlank]⟩

/-- How one character comes out of the three replacements. -/
def escapeMarkup (c : Char) : List Char :=
  if c = '&' then "&amp;".toList
  else if c = '<' then "&lt;".toList
  else if c = '>' then "&gt;".toList
  else [c]

/-- **The replacements come to one pass.** No later one finds anything in the entities that an earlier one brought. -/
theorem markupSafe_eq (text : String) : markupSafe text = String.ofList (text.toList.flatMap escapeMarkup) := by
  have hchar : ∀ c : Char, ((if c = '&' then "&amp;".toList else [c]).flatMap fun d =>
      (if d = '<' then "&lt;".toList else [d]).flatMap fun e => if e = '>' then "&gt;".toList else [e]) =
        escapeMarkup c := by
    intro c
    unfold escapeMarkup
    by_cases hamp : c = '&'
    · rw [if_pos hamp, if_pos hamp]
      rfl
    rw [if_neg hamp, if_neg hamp, List.flatMap_singleton]
    by_cases hless : c = '<'
    · rw [if_pos hless, if_pos hless]
      rfl
    · rw [if_neg hless, if_neg hless, List.flatMap_singleton]
  apply String.toList_injective
  rw [markupSafe, Text.toList_replace, Text.toList_replace, Text.toList_replace, List.flatMap_assoc,
    List.flatMap_assoc]
  simp only [hchar, String.toList_ofList]

/-- A character is written as itself, or as an entity if it has a meaning in markup. -/
theorem escapeMarkup_cases (c : Char) :
    (escapeMarkup c = [c] ∧ c ∉ ['&', '<', '>']) ∨ (escapeMarkup c ∈ entities ∧ c ∈ ['&', '<', '>']) := by
  by_cases hc : c ∈ ['&', '<', '>']
  · refine .inr ⟨?_, hc⟩
    simp only [List.mem_cons, List.not_mem_nil, or_false] at hc
    rcases hc with rfl | rfl | rfl <;> decide
  · refine .inl ⟨?_, hc⟩
    simp only [List.mem_cons, List.not_mem_nil, or_false, not_or] at hc
    simp [escapeMarkup, hc]

theorem keepsBlanks_escapeMarkup : Text.KeepsBlanks escapeMarkup where
  blank c hc := by
    rcases escapeMarkup_cases c with ⟨hself, -⟩ | ⟨-, hmem⟩
    · exact hself
    · simp only [List.mem_cons, List.not_mem_nil, or_false] at hmem
      rcases hmem with rfl | rfl | rfl <;> exact absurd hc (by decide)
  visible c hc := by
    rcases escapeMarkup_cases c with ⟨hself, -⟩ | ⟨hmem, -⟩
    · rw [hself]
      exact ⟨List.cons_ne_nil _ _, List.forall_mem_singleton.2 hc⟩
    · obtain ⟨name, hentity, -, hvisible⟩ := exists_of_mem_entities hmem
      rw [hentity]
      exact ⟨List.cons_ne_nil _ _, List.forall_mem_cons.2 ⟨by decide, hvisible⟩⟩

theorem readMarkup_escapeMarkup_append (c : Char) (rest : List Char) :
    readMarkup (escapeMarkup c ++ rest) = c :: readMarkup rest := by
  rcases escapeMarkup_cases c with ⟨hself, hc⟩ | ⟨-, hc⟩
  · have hamp : c ≠ '&' := fun h => hc (h ▸ List.mem_cons_self)
    rw [hself, List.singleton_append]
    simp [readMarkup, hamp]
  · simp only [List.mem_cons, List.not_mem_nil, or_false] at hc
    rcases hc with rfl | rfl | rfl <;> rfl

/-- **Entities are read back.** -/
theorem readMarkup_flatMap (cs : List Char) : readMarkup (cs.flatMap escapeMarkup) = cs := by
  induction cs with
  | nil => rfl
  | cons c cs ih => rw [List.flatMap_cons, readMarkup_escapeMarkup_append, ih]

theorem entitiesOnly_flatMap (cs : List Char) : EntitiesOnly (cs.flatMap escapeMarkup) := by
  induction cs with
  | nil =>
    intro rest hrest
    exact absurd (List.suffix_nil.1 hrest) (List.cons_ne_nil _ _)
  | cons c cs ih =>
    rw [List.flatMap_cons]
    rcases escapeMarkup_cases c with ⟨hself, hc⟩ | ⟨hmem, -⟩
    · rw [hself]
      exact ih.append fun h => hc (List.mem_singleton.1 h ▸ List.mem_cons_self)
    · have hprefix := List.prefix_append (escapeMarkup c) (cs.flatMap escapeMarkup)
      obtain ⟨name, hentity, hname, -⟩ := exists_of_mem_entities hmem
      rw [hentity] at hmem hprefix ⊢
      exact entitiesOnly_cons_iff.2 ⟨fun _ => ⟨_, hmem, hprefix⟩,
        ih.append fun h => hname _ h List.mem_cons_self⟩

theorem not_mem_flatMap_escapeMarkup {d : Char} (hd : d = '<' ∨ d = '>') (cs : List Char) :
    d ∉ cs.flatMap escapeMarkup := by
  have hd' : d ∈ ['&', '<', '>'] := by
    rcases hd with rfl | rfl <;> decide
  have hamp : d ≠ '&' := by
    rcases hd with rfl | rfl <;> decide
  intro hmem
  obtain ⟨c, -, hwritten⟩ := List.mem_flatMap.1 hmem
  rcases escapeMarkup_cases c with ⟨hself, hc⟩ | ⟨hentity, -⟩
  · rw [hself, List.mem_singleton] at hwritten
    exact hc (hwritten ▸ hd')
  · obtain ⟨name, heq, hname, -⟩ := exists_of_mem_entities hentity
    rw [heq] at hwritten
    rcases List.mem_cons.1 hwritten with h | h
    · exact hamp h
    · exact hname d h hd'

/-- Whether text begins with characters that are no markup does not change when it is written. -/
theorem prefix_flatMap_escapeMarkup_iff {front : List Char} (hfront : ∀ c ∈ front, c ∉ ['&', '<', '>']) (cs : List Char) :
    front <+: cs.flatMap escapeMarkup ↔ front <+: cs := by
  induction front generalizing cs with
  | nil => simp
  | cons c front ih =>
    obtain ⟨hc, hrest⟩ := List.forall_mem_cons.1 hfront
    cases cs with
    | nil => simp
    | cons d cs =>
      rw [List.flatMap_cons, List.cons_prefix_cons]
      rcases escapeMarkup_cases d with ⟨hself, hd⟩ | ⟨hentity, hd⟩
      · rw [hself, List.singleton_append, List.cons_prefix_cons, ih hrest]
      · obtain ⟨name, heq, -⟩ := exists_of_mem_entities hentity
        rw [heq, List.cons_append, List.cons_prefix_cons]
        refine iff_of_false (fun h => hc (h.1 ▸ List.mem_cons_self)) fun h => hc (h.1 ▸ hd)

/-! ## The text of a summary -/

/-- A summary with an indentation before each of its lines. -/
def summaryText (indent description : String) : String :=
  Text.concat (((summary description).map (indent ++ ·)).map (· ++ "\n"))

/-- How a line of a description is written in a summary. -/
def summaryLine (line : String) : String :=
  "/// " ++ String.ofList ((Text.trimEnd line).toList.flatMap escapeMarkup)

theorem toList_summaryLine (line : String) :
    (summaryLine line).toList = ['/', '/', '/', ' '] ++ (Text.dropBlankEnd line.toList).flatMap escapeMarkup := by
  rw [← Text.toList_trimEnd]
  exact String.toList_append.trans (congrArg _ String.toList_ofList)

theorem toList_indented (indent line : String) : (indent ++ summaryLine line).toList =
    (indent ++ "/// ").toList ++ (Text.trimEnd line).toList.flatMap escapeMarkup := by
  rw [String.toList_append, toList_summaryLine, String.toList_append, List.append_assoc, Text.toList_trimEnd]
  rfl

/-- **A summary has one line for each line of the description**, between its first and its last. -/
theorem summary_eq (description : String) :
    summary description = "/// <summary>" :: (Text.lines description).map summaryLine ++ ["/// </summary>"] := by
  unfold summary summaryTexts
  rw [markupSafe_eq, keepsBlanks_escapeMarkup.trimmed_lines, List.map_map]
  rfl

theorem eq_of_mem_summary {description line : String} (h : line ∈ summary description) :
    line = "/// <summary>" ∨ line = "/// </summary>" ∨
      ∃ source ∈ Text.lines description, line = summaryLine source := by
  rw [summary_eq] at h
  rcases List.mem_append.1 h with h | h
  · rcases List.mem_cons.1 h with h | h
    · exact .inl h
    · obtain ⟨source, hsource, rfl⟩ := List.mem_map.1 h
      exact .inr (.inr ⟨source, hsource, rfl⟩)
  · exact .inr (.inl (List.mem_singleton.1 h))

/-- No line of a summary has a line feed in it or ends in a blank that does not belong to the comment. -/
theorem not_mem_of_mem_summary {description line : String} (h : line ∈ summary description) :
    '\n' ∉ line.toList ∧ line.toList.getLast? ≠ some '\r' := by
  rcases eq_of_mem_summary h with rfl | rfl | ⟨source, hsource, rfl⟩
  · decide
  · decide
  · rw [toList_summaryLine]
    constructor
    · rw [List.mem_append, not_or, keepsBlanks_escapeMarkup.mem_flatMap_iff rfl]
      exact ⟨by decide, fun hmem => Text.not_mem_of_mem_lines hsource (Text.mem_of_mem_dropBlankEnd hmem)⟩
    · rw [← keepsBlanks_escapeMarkup.dropBlankEnd_flatMap, List.getLast?_append]
      intro hlast
      rcases Option.or_eq_some_iff.1 hlast with hlast | ⟨-, hlast⟩
      · exact absurd (Text.isBlank_of_getLast?_dropBlankEnd hlast) (by decide)
      · exact absurd hlast (by decide)

theorem ne_of_mem_summary {description line : String} (h : line ∈ summary description) : line ≠ "" := by
  rintro rfl
  rcases eq_of_mem_summary h with h | h | ⟨source, -, h⟩
  · exact absurd h (by decide)
  · exact absurd h (by decide)
  · have hchars := congrArg String.toList h
    rw [toList_summaryLine] at hchars
    cases hchars

theorem renderLines_summary (style : IndentStyle) (level depth : Nat) (description : String) :
    renderLines style level (documented summary depth (some description)) =
      summaryText (style.indent (level + depth)) description := by
  have hrender := renderLines_comment (fun line (hline : line ∈ summary description) => ne_of_mem_summary hline)
    style level depth []
  rw [List.append_nil] at hrender
  exact hrender.trans String.append_empty

section Indent

variable {indent : String} (hindent : ∀ c ∈ indent.toList, c = ' ' ∨ c = '\t')

include hindent

theorem not_mem_indent {c : Char} (hspace : c ≠ ' ') (htab : c ≠ '\t') : c ∉ indent.toList := by
  intro hc
  rcases hindent c hc with h | h
  · exact hspace h
  · exact htab h

/-- There are only blanks and slashes before the text of a line. -/
theorem not_mem_front {c : Char} (hspace : c ≠ ' ') (htab : c ≠ '\t') (hslash : c ≠ '/') :
    c ∉ (indent ++ "/// ").toList := by
  rw [String.toList_append, List.mem_append, not_or]
  exact ⟨not_mem_indent hindent hspace htab, by simp [hspace, hslash]⟩

theorem not_mem_front_of_markup {c : Char} (hc : c ∈ ['&', '<', '>']) : c ∉ (indent ++ "/// ").toList := by
  simp only [List.mem_cons, List.not_mem_nil, or_false] at hc
  rcases hc with rfl | rfl | rfl <;> exact not_mem_front hindent (by decide) (by decide) (by decide)

end Indent

/-! ## Reading a summary -/

/-- Reads a line of a summary: the text behind the indentation and the slashes, with its entities read. -/
def readLine (indent : String) (line : List Char) : Option String :=
  ((indent ++ "/// ").toList.isPrefixOf? line).map fun text => String.ofList (readMarkup text)

theorem readLine_summaryLine (indent line : String) :
    readLine indent (indent ++ summaryLine line).toList = some (Text.trimEnd line) := by
  have hprefix : (indent ++ "/// ").toList.isPrefixOf? (indent ++ summaryLine line).toList =
      some ((Text.trimEnd line).toList.flatMap escapeMarkup) :=
    List.isPrefixOf?_eq_some_iff_append_eq.2 (toList_indented indent line).symm
  rw [readLine, hprefix, Option.map_some, readMarkup_flatMap, String.ofList_toList]

section Reading

variable {indent : String} (hindent : ∀ c ∈ indent.toList, c = ' ' ∨ c = '\t')

include hindent

/-- There is no markup in a written line but entities. -/
theorem markup_of_summaryLine (line : String) :
    '<' ∉ (indent ++ summaryLine line).toList ∧ '>' ∉ (indent ++ summaryLine line).toList ∧
      EntitiesOnly (indent ++ summaryLine line).toList := by
  have hfront : ∀ c ∈ ['&', '<', '>'], c ∉ (indent ++ "/// ").toList := fun _ => not_mem_front_of_markup hindent
  rw [toList_indented, List.mem_append, List.mem_append, not_or, not_or]
  exact ⟨⟨hfront _ (by simp), not_mem_flatMap_escapeMarkup (.inl rfl) _⟩,
    ⟨hfront _ (by simp), not_mem_flatMap_escapeMarkup (.inr rfl) _⟩,
    (entitiesOnly_flatMap _).append (hfront _ (by simp))⟩

theorem pieces_summaryText (description : String) :
    Text.pieces (· == '\n') (summaryText indent description).toList =
      (indent ++ "/// <summary>").toList ::
        (Text.lines description).map (fun line => (indent ++ summaryLine line).toList) ++
          [(indent ++ "/// </summary>").toList, []] := by
  have hfeed : '\n' ∉ indent.toList := not_mem_indent hindent (by decide) (by decide)
  rw [summaryText, Text.pieces_indented hfeed fun _ hline => (not_mem_of_mem_summary hline).1, summary_eq]
  simp

end Reading

/-- **Summaries are read back.** With any indentation of spaces and tabs, and so with those that declarations are
written with, a summary has between its first line and its last one line for each line of the description, in order. The
text of the line behind the indentation, the slashes and a blank is the line of the description without the blanks at its
end, once the entities are read. These lines have no angle brackets in them, and every ampersand begins an entity. -/
theorem summary_reads_back (indent description : String) (hindent : ∀ c ∈ indent.toList, c = ' ' ∨ c = '\t') :
    (∀ (style : IndentStyle) (level depth : Nat), style.indent (level + depth) = indent →
      renderLines style level (documented summary depth (some description)) = summaryText indent description) ∧
    ∃ lines : List (List Char),
      Text.pieces (· == '\n') (summaryText indent description).toList =
        (indent ++ "/// <summary>").toList :: lines ++ [(indent ++ "/// </summary>").toList, []] ∧
      lines.map (readLine indent) = (Text.lines description).map (fun line => some (Text.trimEnd line)) ∧
      ∀ line ∈ lines, '<' ∉ line ∧ '>' ∉ line ∧ EntitiesOnly line := by
  refine ⟨?_, _, pieces_summaryText hindent description, ?_, ?_⟩
  · rintro style level depth rfl
    exact renderLines_summary style level depth description
  · rw [List.map_map]
    exact List.map_congr_left fun line _ => readLine_summaryLine indent line
  · exact List.forall_mem_map.2 fun line _ => markup_of_summaryLine hindent line

/-- Entities in the description are not taken for those that are written. -/
theorem summary_reads_back_markup :
    (∀ c ∈ "\t".toList, c = ' ' ∨ c = '\t') ∧
      summaryText "\t" "List<T> & &lt; \r\n\n  a\r&amp;b" =
        "\t/// <summary>\n\t/// List&lt;T&gt; &amp; &amp;lt;\n\t/// \n\t///   a\r&amp;amp;b\n\t/// </summary>\n" ∧
      ∃ lines : List (List Char),
        Text.pieces (· == '\n') (summaryText "\t" "List<T> & &lt; \r\n\n  a\r&amp;b").toList =
          "\t/// <summary>".toList :: lines ++ ["\t/// </summary>".toList, []] ∧
        lines.map (readLine "\t") = [some "List<T> & &lt;", some "", some "  a\r&amp;b"] := by
  have hindent : ∀ c ∈ "\t".toList, c = ' ' ∨ c = '\t' := List.forall_mem_singleton.2 (.inr rfl)
  obtain ⟨-, lines, hlines, hread, -⟩ := summary_reads_back "\t" "List<T> & &lt; \r\n\n  a\r&amp;b" hindent
  exact ⟨hindent, by decide +kernel, lines, hlines, hread.trans (by decide +kernel)⟩

/-! ## What is commented out -/

/-- A line that is empty or begins with the indentation and three slashes. -/
def Commented (indent : String) (line : List Char) : Prop :=
  line = [] ∨ (indent ++ "///").toList <+: line

instance (indent : String) (line : List Char) : Decidable (Commented indent line) :=
  inferInstanceAs (Decidable (_ ∨ _))

section Commented

variable {indent : String} (hindent : ∀ c ∈ indent.toList, c = ' ' ∨ c = '\t')

include hindent

/-- Whether a part of a description is commented out does not change when it is written. -/
theorem commented_flatMap_iff (part : List Char) :
    Commented indent (part.flatMap escapeMarkup) ↔ Commented indent part := by
  have hfront : ∀ c ∈ (indent ++ "///").toList, c ∉ ['&', '<', '>'] := by
    intro c hc hmarkup
    refine not_mem_front_of_markup hindent hmarkup ?_
    have hsplit : indent ++ "/// " = indent ++ "///" ++ " " := by
      rw [String.append_assoc]
      rfl
    rw [hsplit, String.toList_append]
    exact List.mem_append_left _ hc
  rw [Commented, Commented, keepsBlanks_escapeMarkup.flatMap_eq_nil_iff, prefix_flatMap_escapeMarkup_iff hfront]

/-- The parts of a written line between carriage returns are those of the line of the description, and only the first
has the slashes before it. -/
theorem pieces_return_summaryLine (line : String) :
    Text.pieces (· == '\r') (indent ++ summaryLine line).toList =
      ((Text.pieces (· == '\r') (Text.trimEnd line).toList).map (List.flatMap escapeMarkup)).modifyHead
        ((indent ++ "/// ").toList ++ ·) := by
  have hreturn : ∀ c, (c == '\r') = true → Text.isBlank c = true := by
    intro c hc
    rw [beq_iff_eq.1 hc]
    rfl
  have hfront : ∀ c ∈ (indent ++ "/// ").toList, (c == '\r') = false := by
    intro c hc
    rw [beq_eq_false_iff_ne]
    rintro rfl
    exact not_mem_front hindent (by decide) (by decide) (by decide) hc
  rw [toList_indented, Text.pieces_append hfront, keepsBlanks_escapeMarkup.pieces_flatMap hreturn]

/-- The slashes comment out the first part of a line, so only the other parts can be code. -/
theorem forall_commented_iff (line : String) :
    (∀ part ∈ Text.pieces (· == '\r') (indent ++ summaryLine line).toList, Commented indent part) ↔
      ∀ part ∈ (Text.pieces (· == '\r') (Text.trimEnd line).toList).tail, Commented indent part := by
  rw [pieces_return_summaryLine hindent]
  cases Text.pieces (· == '\r') (Text.trimEnd line).toList with
  | nil => simp
  | cons first parts =>
    have hfirst : Commented indent ((indent ++ "/// ").toList ++ first.flatMap escapeMarkup) :=
      .inr ⟨' ' :: first.flatMap escapeMarkup, by simp⟩
    simp only [List.map_cons, List.modifyHead_cons, List.forall_mem_cons, List.tail_cons, hfirst, true_and,
      List.forall_mem_map, commented_flatMap_iff hindent]

theorem sourceLines_summaryText (description : String) :
    Text.sourceLines (summaryText indent description).toList =
      (indent ++ "/// <summary>").toList ::
        (Text.lines description).flatMap (fun line => Text.pieces (· == '\r') (indent ++ summaryLine line).toList) ++
          [(indent ++ "/// </summary>").toList, []] := by
  have hreturn : '\r' ∉ indent.toList := not_mem_indent hindent (by decide) (by decide)
  have hlines : ∀ line ∈ (summary description).map (indent ++ ·),
      '\n' ∉ line.toList ∧ line.toList.getLast? ≠ some '\r' := by
    intro line hline
    obtain ⟨text, htext, rfl⟩ := List.mem_map.1 hline
    obtain ⟨hfeed, hlast⟩ := not_mem_of_mem_summary htext
    rw [String.toList_append, List.mem_append, not_or, List.getLast?_append]
    refine ⟨⟨not_mem_indent hindent (by decide) (by decide), hfeed⟩, fun h => ?_⟩
    rcases Option.or_eq_some_iff.1 h with h | ⟨-, h⟩
    · exact hlast h
    · exact hreturn (List.mem_of_getLast? h)
  have hfirst : '\r' ∉ (indent ++ "/// <summary>").toList := by simpa using hreturn
  have hend : '\r' ∉ (indent ++ "/// </summary>").toList := by simpa using hreturn
  rw [summaryText, Text.sourceLines_concat (fun line hline => (hlines line hline).1) fun line hline =>
    (hlines line hline).2, summary_eq, List.map_append, List.map_cons, List.map_map, List.map_singleton,
    List.flatMap_append, List.flatMap_cons, List.flatMap_singleton, List.flatMap_map, Text.pieces_of_not_mem hfirst,
    Text.pieces_of_not_mem hend, List.append_assoc]
  rfl

theorem forall_sourceLines_iff (description : String) :
    (∀ line ∈ Text.sourceLines (summaryText indent description).toList, Commented indent line) ↔
      ∀ line ∈ Text.lines description,
        ∀ part ∈ (Text.pieces (· == '\r') (Text.trimEnd line).toList).tail, Commented indent part := by
  have hfirst : Commented indent (indent ++ "/// <summary>").toList := .inr ⟨" <summary>".toList, by simp⟩
  have hend : Commented indent (indent ++ "/// </summary>").toList := .inr ⟨" </summary>".toList, by simp⟩
  have hends : ∀ line ∈ [(indent ++ "/// </summary>").toList, []], Commented indent line :=
    List.forall_mem_cons.2 ⟨hend, List.forall_mem_singleton.2 (.inl rfl)⟩
  rw [sourceLines_summaryText hindent, List.forall_mem_append, and_iff_left hends, List.forall_mem_cons,
    and_iff_right hfirst, List.forall_mem_flatMap]
  exact forall₂_congr fun line _ => forall_commented_iff hindent line

end Commented

/-- **Summaries hold their text unless there is a carriage return in it.** With any indentation of spaces and tabs, and
so with those that declarations are written with, all lines of source code in a summary are empty or begin with the
indentation and three slashes exactly if this is true of all that stands behind a carriage return in a line of the
description, blanks at the end of the line apart. So a description whose carriage returns all stand at the ends of lines
is commented out. -/
theorem summary_holds_text_iff (indent description : String) (hindent : ∀ c ∈ indent.toList, c = ' ' ∨ c = '\t') :
    (∀ (style : IndentStyle) (level depth : Nat), style.indent (level + depth) = indent →
      renderLines style level (documented summary depth (some description)) = summaryText indent description) ∧
    ((∀ line ∈ Text.sourceLines (summaryText indent description).toList, Commented indent line) ↔
      ∀ line ∈ Text.lines description,
        ∀ part ∈ (Text.pieces (· == '\r') (Text.trimEnd line).toList).tail, Commented indent part) ∧
    ((∀ line ∈ Text.lines description, '\r' ∉ (Text.trimEnd line).toList) →
      ∀ line ∈ Text.sourceLines (summaryText indent description).toList, Commented indent line) := by
  have hiff := forall_sourceLines_iff hindent description
  refine ⟨?_, hiff, fun hreturn => hiff.2 fun line hline => ?_⟩
  · rintro style level depth rfl
    exact renderLines_summary style level depth description
  · rw [Text.pieces_of_not_mem (hreturn line hline)]
    exact List.forall_mem_nil _

theorem summary_holds_text_iff_returns :
    (∀ c ∈ "  ".toList, c = ' ' ∨ c = '\t') ∧
      (∀ line ∈ Text.lines "One\r\nTwo \r\r\n\r", '\r' ∉ (Text.trimEnd line).toList) ∧
      (∀ line ∈ Text.sourceLines (summaryText "  " "One\r\nTwo \r\r\n\r").toList, Commented "  " line) ∧
      ¬∀ line ∈ Text.sourceLines (summaryText "  " "One\r  /// Two\r\rint three;").toList, Commented "  " line := by
  have hindent : ∀ c ∈ "  ".toList, c = ' ' ∨ c = '\t' :=
    List.forall_mem_cons.2 ⟨.inl rfl, List.forall_mem_singleton.2 (.inl rfl)⟩
  have hreturns : ∀ line ∈ Text.lines "One\r\nTwo \r\r\n\r", '\r' ∉ (Text.trimEnd line).toList := by decide +kernel
  obtain ⟨-, -, hholds⟩ := summary_holds_text_iff "  " "One\r\nTwo \r\r\n\r" hindent
  obtain ⟨-, hiff, -⟩ := summary_holds_text_iff "  " "One\r  /// Two\r\rint three;" hindent
  refine ⟨hindent, hreturns, hholds hreturns, fun h => absurd (hiff.1 h) ?_⟩
  decide +kernel

/-- A class with a carriage return in its description. -/
def note : Definition :=
  (Definition.record "Note" []).describe "First line\rSecond line"

/-- **A carriage return ends the comment.** What stands behind it is a line of source code without slashes, in the
summary and in the declaration. -/
theorem return_ends_summary :
    summaryText "    " "First line\rSecond line" =
        "    /// <summary>\n    /// First line\rSecond line\n    /// </summary>\n" ∧
      "Second line".toList ∈ Text.sourceLines (summaryText "    " "First line\rSecond line").toList ∧
      ¬Commented "    " "Second line".toList ∧
      "Second line".toList ∈ Text.sourceLines (CSharp.declarationText ⟨none, [note]⟩ note).toList := by
  refine ⟨by decide +kernel, by decide +kernel, by decide +kernel, by decide +kernel⟩

end Comment

end TypeBindings
