import TypeBindings.Text.Blank
import TypeBindings.Text.Concat
import TypeBindings.Text.Replace
import TypeBindings.Text.Split

/-!
# Documentation comments

Both kinds of comments are given as the texts of their lines, without indentation. Blank characters at the end of a
line of the description are left out.
-/

namespace TypeBindings.Comment

/-! ## Block comments -/

/-- The characters with a backslash between every star and a slash that follows it. -/
def breakClosing : List Char → List Char
  | [] => []
  | [c] => [c]
  | c :: d :: rest =>
    if c = '*' && d = '/' then '*' :: '\\' :: '/' :: breakClosing rest else c :: breakClosing (d :: rest)

/-- The lines of a description as they stand in a block comment. -/
def blockTexts (description : String) : List String :=
  (Text.lines (String.ofList (breakClosing description.toList))).map Text.trimEnd

def starred (line : String) : String :=
  if line.isEmpty then " *" else " * " ++ line

/-- A comment between `/**` and `*/`, on one line if the description has no more than one. -/
def block (description : String) : List String :=
  match blockTexts description with
  | [] => ["/**  */"]
  | [line] => ["/** " ++ line ++ " */"]
  | lines => "/**" :: lines.map starred ++ [" */"]

/-- What the lines of a comment are. -/
theorem eq_of_mem_block {description line : String} (h : line ∈ block description) :
    line = "/**  */" ∨ line = "/**" ∨ line = " */" ∨
      ∃ text ∈ blockTexts description, line = "/** " ++ text ++ " */" ∨ line = starred text := by
  unfold block at h
  split at h
  · exact .inl (List.mem_singleton.1 h)
  · rename_i text htexts
    refine .inr (.inr (.inr ⟨text, ?_, .inl (List.mem_singleton.1 h)⟩))
    rw [htexts]
    exact List.mem_singleton_self text
  · rcases List.mem_append.1 h with h | h
    · rcases List.mem_cons.1 h with h | h
      · exact .inr (.inl h)
      · obtain ⟨text, htext, rfl⟩ := List.mem_map.1 h
        exact .inr (.inr (.inr ⟨text, htext, .inr rfl⟩))
    · exact .inr (.inr (.inl (List.mem_singleton.1 h)))

/-- The lines of a comment begin with a slash or a blank. -/
theorem head?_of_mem_block {description line : String} (h : line ∈ block description) :
    line.toList.head? = some '/' ∨ line.toList.head? = some ' ' := by
  rcases eq_of_mem_block h with rfl | rfl | rfl | ⟨text, -, rfl | rfl⟩
  · exact .inl rfl
  · exact .inl rfl
  · exact .inr rfl
  · exact .inl (by simp)
  · refine .inr ?_
    unfold starred
    split <;> simp

/-! ## Summaries -/

/-- The text with entities for the characters of markup. The ampersand comes first, since every entity has one. -/
def markupSafe (text : String) : String :=
  Text.replace '>' "&gt;" (Text.replace '<' "&lt;" (Text.replace '&' "&amp;" text))

/-- The lines of a description as they stand in a summary. -/
def summaryTexts (description : String) : List String :=
  (Text.lines (markupSafe description)).map Text.trimEnd

/-- A comment of lines that begin with three slashes, with a summary element around the description. -/
def summary (description : String) : List String :=
  "/// <summary>" :: (summaryTexts description).map ("/// " ++ ·) ++ ["/// </summary>"]

end TypeBindings.Comment
