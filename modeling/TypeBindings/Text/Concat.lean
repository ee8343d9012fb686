/-!
# Putting texts together
-/

namespace TypeBindings.Text

/-- Texts one after the other. -/
def concat : List String → String
  | [] => ""
  | s :: rest => s ++ concat rest

theorem concat_append (texts more : List String) : concat (texts ++ more) = concat texts ++ concat more := by
  induction texts with
  | nil => rw [List.nil_append, concat, String.empty_append]
  | cons text texts ih => rw [List.cons_append, concat, concat, ih, String.append_assoc]

theorem toList_concat (texts : List String) : (concat texts).toList = texts.flatMap String.toList := by
  induction texts with
  | nil => rfl
  | cons text texts ih => rw [concat, String.toList_append, ih, List.flatMap_cons]

/-- Texts with a separator between them. -/
def joinWith (sep : String) : List String → String
  | [] => ""
  | [s] => s
  | s :: rest => s ++ sep ++ joinWith sep rest

/-- Every character of texts that are put together comes from one of them or from the separator. -/
theorem mem_of_mem_joinWith {c : Char} {sep : String} : ∀ {texts : List String}, c ∈ (joinWith sep texts).toList →
    c ∈ sep.toList ∨ ∃ text ∈ texts, c ∈ text.toList
  | [], h => by cases h
  | [text], h => .inr ⟨text, List.mem_cons_self, h⟩
  | text :: next :: rest, h => by
    have hcons : joinWith sep (text :: next :: rest) = text ++ sep ++ joinWith sep (next :: rest) := rfl
    rw [hcons, String.toList_append, String.toList_append, List.mem_append, List.mem_append] at h
    rcases h with (h | h) | h
    · exact .inr ⟨text, List.mem_cons_self, h⟩
    · exact .inl h
    · rcases mem_of_mem_joinWith h with hsep | ⟨other, hother, hmem⟩
      · exact .inl hsep
      · exact .inr ⟨other, List.mem_cons_of_mem _ hother, hmem⟩

end TypeBindings.Text
