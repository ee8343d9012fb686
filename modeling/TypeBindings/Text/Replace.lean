/-!
# Replacing a character
-/

namespace TypeBindings.Text

/-- The text with another one in the place of every occurrence of a character. -/
def replace (c : Char) (new text : String) : String :=
  String.ofList (text.toList.flatMap fun d => if d = c then new.toList else [d])

theorem toList_replace (c : Char) (new text : String) :
    (replace c new text).toList = text.toList.flatMap fun d => if d = c then new.toList else [d] :=
  String.toList_ofList

end TypeBindings.Text
