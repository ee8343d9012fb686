import TypeBindings.Proofs.FreeNames
import TypeBindings.Validation.Finding

/-!
# Paths tell places apart

The path of a place is read from the left: a number ends at its closing bracket (`eq_of_append_bracket`), and what comes
after the bracket tells the part. So different places have different paths (`Site.path_injective`).
-/

namespace TypeBindings

/-- A number ends at the closing bracket behind it. -/
theorem eq_of_append_bracket {m n : Nat} {a b : List Char}
    (h : Nat.toDigits 10 m ++ ']' :: a = Nat.toDigits 10 n ++ ']' :: b) : m = n ∧ a = b := by
  have hdigits : ∀ (k : Nat) (rest : List Char),
      (Nat.toDigits 10 k ++ ']' :: rest).takeWhile Char.isDigit = Nat.toDigits 10 k := by
    intro k rest
    rw [List.takeWhile_append_of_pos fun c hc => Nat.isDigit_of_mem_toDigits (by decide) (by decide) hc,
      List.takeWhile_cons_of_neg (by decide), List.append_nil]
  have hnumber := congrArg (List.takeWhile Char.isDigit) h
  rw [hdigits, hdigits] at hnumber
  obtain rfl := Naming.toDigits_injective hnumber
  exact ⟨rfl, by simpa using h⟩

namespace Site

/-- The number of the definition that a place is in. -/
def definition : Site → Nat
  | .typeName type => type
  | .parent type => type
  | .propertyName type _ => type
  | .propertyShape type _ => type
  | .value type _ => type

/-- The end of a path, behind the number of the definition and its bracket. -/
def ending : Site → String
  | .typeName _ => ".name"
  | .parent _ => ".parentType"
  | .propertyName _ property => ".properties[" ++ toString property ++ "].name"
  | .propertyShape _ property => ".properties[" ++ toString property ++ "].type"
  | .value _ n => ".enumValues[" ++ toString n ++ "]"

theorem toList_path (site : Site) :
    site.path.toList = "$.types[".toList ++ (Nat.toDigits 10 site.definition ++ ']' :: site.ending.toList) := by
  cases site <;> simp [path, definition, ending]

theorem eq_of_ending_eq {a b : Site} (hdefinition : a.definition = b.definition) (h : a.ending = b.ending) : a = b := by
  have hlist := congrArg String.toList h
  -- endings of different kinds differ in a letter, but for the name and the shape of a property before the number ends
  cases a <;> cases b <;> simp [ending] at hlist <;> simp only [definition] at hdefinition
  case propertyName.propertyShape => simpa using (eq_of_append_bracket hlist).2
  case propertyShape.propertyName => simpa using (eq_of_append_bracket hlist).2
  case propertyName.propertyName => rw [hdefinition, Naming.toDigits_injective hlist]
  case propertyShape.propertyShape => rw [hdefinition, Naming.toDigits_injective hlist]
  case value.value => rw [hdefinition, Naming.toDigits_injective hlist]
  all_goals rw [hdefinition]

/-- **Different places have different paths.** -/
theorem path_injective {a b : Site} (h : a.path = b.path) : a = b := by
  have hlist := congrArg String.toList h
  rw [toList_path, toList_path] at hlist
  obtain ⟨hdefinition, hending⟩ := eq_of_append_bracket (List.append_cancel_left hlist)
  exact eq_of_ending_eq hdefinition (String.toList_injective hending)

end Site

end TypeBindings
