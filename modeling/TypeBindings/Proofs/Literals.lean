import Mathlib.Algebra.Group.Nat.Even
import Mathlib.Data.List.Basic
import Mathlib.Data.List.Induction
import TypeBindings.Emit.Literal

/-!
# Reading literals

A literal is read character by character: a backslash gives the next character another meaning, and a quote that is not
behind such a backslash ends the literal. What a character is written as (`Writes`) is either the character itself, if
it is no quote and no backslash, or a backslash with a character that stands for it. Of such a text

* reading gives the characters back and stops at the end (`readBody_flatMap`);
* no quote is bare: an odd number of backslashes stands before each (`not_hasBareQuote`).

Both kinds of literals are written in this way (`writes_escapeDouble`, `writes_escapeSingle`).
-/

namespace TypeBindings.Literal

/-! ## Readers -/

/-- Reads up to the quote that ends a literal: what the characters before it stand for, and the characters after it.
`escaped` says that a backslash came just before, and `unescape` what a character behind a backslash stands for. -/
def readBody (quote : Char) (unescape : Char → Option Char) : (escaped : Bool) → List Char →
    Option (List Char × List Char)
  | _, [] => none
  | true, c :: rest =>
    (unescape c).bind fun d => (readBody quote unescape false rest).map (Prod.map (d :: ·) id)
  | false, c :: rest =>
    if c = quote then some ([], rest)
    else if c = '\\' then readBody quote unescape true rest
    else (readBody quote unescape false rest).map (Prod.map (c :: ·) id)

/-- Reads a literal that the characters begin with: its value, and the characters after it. -/
def read (quote : Char) (unescape : Char → Option Char) : List Char → Option (String × List Char)
  | [] => none
  | c :: rest => if c = quote then (readBody quote unescape false rest).map (Prod.map String.ofList id) else none

/-- What a character behind a backslash stands for between double quotes. -/
def unescapeDouble : Char → Option Char
  | '"' => some '"'
  | '\\' => some '\\'
  | 'n' => some '\n'
  | 'r' => some '\r'
  | 't' => some '\t'
  | _ => none

def readDouble : List Char → Option (String × List Char) :=
  read '"' unescapeDouble

section Reading

variable {quote : Char} {unescape : Char → Option Char}

theorem readBody_quote (after : List Char) : readBody quote unescape false (quote :: after) = some ([], after) := by
  rw [readBody, if_pos rfl]

theorem readBody_cons {c : Char} (hquote : c ≠ quote) (hback : c ≠ '\\') (rest : List Char) :
    readBody quote unescape false (c :: rest) = (readBody quote unescape false rest).map (Prod.map (c :: ·) id) := by
  conv_lhs => rw [readBody, if_neg hquote, if_neg hback]

/-- A backslash and the character behind it are read as one. -/
theorem readBody_escape {c e : Char} (hquote : quote ≠ '\\') (he : unescape e = some c) (rest : List Char) :
    readBody quote unescape false ('\\' :: e :: rest) =
      (readBody quote unescape false rest).map (Prod.map (c :: ·) id) := by
  have hopens : readBody quote unescape false ('\\' :: e :: rest) = readBody quote unescape true (e :: rest) := by
    conv_lhs => rw [readBody, if_neg hquote.symm, if_pos rfl]
  rw [hopens, readBody, he, Option.bind_some]

end Reading

/-! ## Bare quotes -/

/-- The number of backslashes at the end. -/
def backslashes (cs : List Char) : Nat :=
  (cs.reverse.takeWhile (· = '\\')).length

/-- There is a quote that no backslash escapes: the backslashes before it, if there are any, escape each other. -/
def HasBareQuote (quote : Char) (body : List Char) : Prop :=
  ∃ before after, body = before ++ quote :: after ∧ Even (backslashes before)

theorem backslashes_concat (cs : List Char) (c : Char) :
    backslashes (cs ++ [c]) = if c = '\\' then backslashes cs + 1 else 0 := by
  unfold backslashes
  rw [List.reverse_append, List.reverse_singleton, List.singleton_append, List.takeWhile_cons]
  split
  · rename_i hc
    rw [if_pos (of_decide_eq_true hc), List.length_cons]
  · rename_i hc
    rw [if_neg (fun h => hc (decide_eq_true h)), List.length_nil]

/-- Characters that end in an even number of backslashes change nothing about what comes after them. -/
theorem even_backslashes_append {front : List Char} (hfront : Even (backslashes front)) (cs : List Char) :
    Even (backslashes (front ++ cs)) ↔ Even (backslashes cs) := by
  induction cs using List.reverseRecOn with
  | nil =>
    rw [List.append_nil]
    exact iff_of_true hfront Even.zero
  | append_singleton cs c ih =>
    rw [← List.append_assoc, backslashes_concat, backslashes_concat]
    split
    · rw [Nat.even_add_one, Nat.even_add_one, ih]
    · rfl

/-! ## What a character is written as -/

/-- A character is written as itself, or as a backslash and a character that stands for it. -/
def Writes (quote : Char) (unescape : Char → Option Char) (c : Char) (text : List Char) : Prop :=
  (text = [c] ∧ c ≠ quote ∧ c ≠ '\\') ∨ ∃ e, text = ['\\', e] ∧ unescape e = some c

section Writes

variable {quote : Char} {unescape : Char → Option Char}

/-- Reading takes one written character at a time. -/
theorem Writes.readBody_append {c : Char} {text : List Char} (h : Writes quote unescape c text) (hquote : quote ≠ '\\')
    (rest : List Char) :
    readBody quote unescape false (text ++ rest) =
      (readBody quote unescape false rest).map (Prod.map (c :: ·) id) := by
  rcases h with ⟨rfl, hne, hback⟩ | ⟨e, rfl, he⟩
  · exact readBody_cons hne hback rest
  · exact readBody_escape hquote he rest

/-- Backslashes at the end of a written character escape each other. -/
theorem Writes.even_backslashes {c : Char} {text : List Char} (h : Writes quote unescape c text) :
    Even (backslashes text) := by
  rcases h with ⟨rfl, -, hback⟩ | ⟨e, rfl, -⟩
  · have hnone : backslashes [c] = 0 := by simp [backslashes, hback]
    rw [hnone]
    exact Even.zero
  · by_cases he : e = '\\'
    · rw [he]
      decide
    · have hnone : backslashes ['\\', e] = 0 := by simp [backslashes, he]
      rw [hnone]
      exact Even.zero

/-- A quote within a written character has one backslash before it. -/
theorem Writes.before_quote {c : Char} {before after : List Char}
    (h : Writes quote unescape c (before ++ quote :: after)) (hquote : quote ≠ '\\') : before = ['\\'] := by
  rcases h with ⟨htext, hne, -⟩ | ⟨e, htext, -⟩
  · cases before with
    | nil => exact absurd (List.cons.inj htext).1.symm hne
    | cons b before => simp at htext
  · cases before with
    | nil => exact absurd (List.cons.inj htext).1 hquote
    | cons b before =>
      obtain ⟨rfl, hrest⟩ := List.cons.inj htext
      cases before with
      | nil => rfl
      | cons b' before => simp at hrest

variable {escape : Char → List Char}

/-- **Reading gives back what was written** and stops behind the quote. -/
theorem readBody_flatMap (hquote : quote ≠ '\\') (hescape : ∀ c, Writes quote unescape c (escape c))
    (value after : List Char) :
    readBody quote unescape false (value.flatMap escape ++ quote :: after) = some (value, after) := by
  induction value with
  | nil => exact readBody_quote after
  | cons c value ih =>
    rw [List.flatMap_cons, List.append_assoc, (hescape c).readBody_append hquote, ih]
    rfl

/-- **Written text has no bare quotes.** -/
theorem not_hasBareQuote (hquote : quote ≠ '\\') (hescape : ∀ c, Writes quote unescape c (escape c))
    (value : List Char) : ¬HasBareQuote quote (value.flatMap escape) := by
  induction value with
  | nil =>
    rintro ⟨before, after, hbody, -⟩
    simp at hbody
  | cons c value ih =>
    rintro ⟨before, after, hbody, heven⟩
    rw [List.flatMap_cons] at hbody
    -- the quote stands behind the first written character, or is part of it
    rcases List.append_eq_append_iff.1 hbody with ⟨later, rfl, hlater⟩ | ⟨later, hfirst, hafter⟩
    · exact ih ⟨later, after, hlater, (even_backslashes_append (hescape c).even_backslashes later).1 heven⟩
    · cases later with
      | nil => exact ih ⟨[], after, hafter.symm, Even.zero⟩
      | cons q later =>
        obtain ⟨rfl, -⟩ := List.cons.inj hafter
        have hwrites := hescape c
        rw [hfirst] at hwrites
        rw [hwrites.before_quote hquote] at heven
        exact absurd heven (by decide)

theorem read_quoted (hquote : quote ≠ '\\') (hescape : ∀ c, Writes quote unescape c (escape c)) (value : String)
    (after : List Char) :
    read quote unescape ((String.ofList (quote :: value.toList.flatMap escape ++ [quote])).toList ++ after) =
      some (value, after) := by
  rw [String.toList_ofList, List.cons_append, List.cons_append, List.append_assoc, List.singleton_append, read,
    if_pos rfl, readBody_flatMap hquote hescape, Option.map_some, Prod.map_apply, String.ofList_toList, id_eq]

end Writes

/-! ## The two kinds of literals -/

/-- Between double quotes a character is written as it is, or as a backslash with a character on the same line. -/
theorem escapeDouble_cases (c : Char) :
    (escapeDouble c = [c] ∧ c ∉ ['"', '\\', '\n', '\r', '\t']) ∨
      ∃ e ∉ ['\n', '\r', '\t'], escapeDouble c = ['\\', e] ∧ unescapeDouble e = some c := by
  by_cases hc : c ∈ ['"', '\\', '\n', '\r', '\t']
  · refine .inr ?_
    simp only [List.mem_cons, List.not_mem_nil, or_false] at hc
    rcases hc with rfl | rfl | rfl | rfl | rfl
    · exact ⟨'"', by decide, rfl, rfl⟩
    · exact ⟨'\\', by decide, rfl, rfl⟩
    · exact ⟨'n', by decide, rfl, rfl⟩
    · exact ⟨'r', by decide, rfl, rfl⟩
    · exact ⟨'t', by decide, rfl, rfl⟩
  · refine .inl ⟨?_, hc⟩
    simp only [List.mem_cons, List.not_mem_nil, or_false, not_or] at hc
    simp [escapeDouble, hc]

theorem mem_of_unescapeDouble {c e : Char} (h : unescapeDouble e = some c) : c ∈ ['"', '\\', '\n', '\r', '\t'] := by
  unfold unescapeDouble at h
  split at h <;> cases h <;> decide

theorem writes_escapeDouble (c : Char) : Writes '"' unescapeDouble c (escapeDouble c) := by
  rcases escapeDouble_cases c with ⟨htext, hc⟩ | ⟨e, -, htext, he⟩
  · refine .inl ⟨htext, ?_, ?_⟩
    · rintro rfl
      exact hc (by decide)
    · rintro rfl
      exact hc (by decide)
  · exact .inr ⟨e, htext, he⟩

/-- Line ends and tabs are not written as themselves between double quotes. -/
theorem not_mem_escapeDouble {d : Char} (hd : d ∈ ['\n', '\r', '\t']) (c : Char) : d ∉ escapeDouble c := by
  intro hmem
  rcases escapeDouble_cases c with ⟨htext, hc⟩ | ⟨e, he, htext, -⟩
  · rw [htext] at hmem
    cases List.mem_singleton.1 hmem
    exact hc (List.mem_cons_of_mem _ (List.mem_cons_of_mem _ hd))
  · rw [htext] at hmem
    rcases List.mem_pair.1 hmem with rfl | rfl
    · exact absurd hd (by decide)
    · exact he hd

/-- How one character comes out of the two replacements of a single-quoted literal. -/
def escapeSingle (c : Char) : List Char :=
  if c = '\\' then ['\\', '\\']
  else if c = '\'' then ['\\', '\'']
  else [c]

/-- **The replacements come to one pass.** The second one finds no quote in what the first one brought. -/
theorem singleQuoted_eq (value : String) :
    singleQuoted value = String.ofList ('\'' :: value.toList.flatMap escapeSingle ++ ['\'']) := by
  have hchar : ∀ c : Char, (if c = '\\' then "\\\\".toList else [c]).flatMap
      (fun d => if d = '\'' then "\\'".toList else [d]) = escapeSingle c := by
    intro c
    unfold escapeSingle
    by_cases hback : c = '\\'
    · rw [if_pos hback, if_pos hback]
      rfl
    · rw [if_neg hback, if_neg hback, List.flatMap_singleton]
      rfl
  apply String.toList_injective
  rw [singleQuoted, String.toList_append, String.toList_append, Text.toList_replace, Text.toList_replace,
    List.flatMap_assoc]
  simp only [hchar, String.toList_ofList]
  rfl

/-- Between single quotes only the backslash and the quote are escaped. -/
theorem writes_escapeSingle {unescape : Char → Option Char} (hback : unescape '\\' = some '\\')
    (hquote : unescape '\'' = some '\'') (c : Char) : Writes '\'' unescape c (escapeSingle c) := by
  unfold escapeSingle
  split
  · rename_i hc
    exact .inr ⟨'\\', rfl, hback.trans (congrArg some hc.symm)⟩
  split
  · rename_i hc
    exact .inr ⟨'\'', rfl, hquote.trans (congrArg some hc.symm)⟩
  · rename_i hne hne'
    exact .inl ⟨rfl, hne', hne⟩

/-- **A double-quoted literal is read as what it was made of**, whatever comes after it. -/
theorem readDouble_doubleQuoted (value : String) (after : List Char) :
    readDouble ((doubleQuoted value).toList ++ after) = some (value, after) :=
  read_quoted (by decide) writes_escapeDouble value after

theorem singleQuoted_injective : Function.Injective singleQuoted := by
  intro a b h
  have hread : ∀ value, read '\'' some ((singleQuoted value).toList ++ []) = some (value, []) :=
    fun value => singleQuoted_eq value ▸ read_quoted (by decide) (writes_escapeSingle rfl rfl) value []
  have hboth := hread a
  rw [h, hread b] at hboth
  cases hboth
  rfl

end TypeBindings.Literal
