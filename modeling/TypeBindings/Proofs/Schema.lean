import TypeBindings.Json.Schema.Basic

/-!
# When a value has no breaches

For the schemas that ask for a type, for an array of items or for an object with members, and for references to such
schemas, these lemmas say when a value has no breaches at all. Each one goes one step down into the value, so that
proofs about whole values are inductions on the value.
-/

namespace TypeBindings.Json.Schema

variable {definitions : List (String × Schema)}

/-! ## Parts -/

theorem parts_rules_none (items : Option Schema) (properties : List (String × Schema)) (required : List String)
    (types : List Kind) : parts definitions (.rules none items properties required types) =
      [.rules none items properties required types] := by
  unfold parts
  cases definitions.length <;> rfl

/-- The parts of a reference are the schema that it leads to and rules that say nothing. -/
theorem parts_refer {name : String} {items : Option Schema} {properties : List (String × Schema)}
    {required : List String} {types : List Kind}
    (h : definitions.find? (·.1 = name) = some (name, .rules none items properties required types)) :
    parts definitions (refer name) = [.rules none items properties required types, typed []] := by
  unfold parts refer
  cases hl : definitions.length with
  | zero =>
    rw [List.length_eq_zero_iff.1 hl] at h
    cases h
  | succ n =>
    rw [partsWithin, Option.bind_some, h]
    cases n <;> rfl

/-! ## Types -/

theorem violations_typed (types : List Kind) (path : List Step) (value : Json) :
    violations definitions (typed types) path value = typeViolations path types value := by
  cases value <;> simp [violations, typed, parts_rules_none, missingKeys]

theorem typeViolations_eq_nil_iff {path : List Step} {types : List Kind} {value : Json} :
    typeViolations path types value = [] ↔ types = [] ∨ ∃ kind ∈ types, kind.admits value = true := by
  unfold typeViolations
  split
  · rename_i h
    simpa using h
  · rename_i h
    simpa using h

/-! ## Items and members -/

/-- The breaches of a list of items are those of the single items. -/
theorem mem_itemViolations_iff {item : Schema} {path : List Step} {v : Violation} :
    ∀ {index : Nat} {elements : List Json}, v ∈ itemViolations definitions item path index elements ↔
      ∃ i element, elements[i]? = some element ∧
        v ∈ violations definitions item (path ++ [Step.index (index + i)]) element
  | _, [] => by simp [itemViolations]
  | index, first :: rest => by
    rw [itemViolations, List.mem_append, mem_itemViolations_iff]
    constructor
    · rintro (hfirst | ⟨i, element, hi, hv⟩)
      · exact ⟨0, first, rfl, hfirst⟩
      · rw [show index + 1 + i = index + (i + 1) by omega] at hv
        exact ⟨i + 1, element, hi, hv⟩
    · rintro ⟨i, element, hi, hv⟩
      cases i with
      | zero =>
        cases Option.some.inj hi
        exact .inl hv
      | succ i =>
        rw [show index + (i + 1) = index + 1 + i by omega] at hv
        exact .inr ⟨i, element, hi, hv⟩

/-- The breaches of a member are those of its value. -/
theorem mem_memberViolations_iff {key : String} {property : Schema} {path : List Step} {v : Violation} :
    ∀ {members : List (String × Json)}, v ∈ memberViolations definitions key property path members ↔
      ∃ member, members.lookup key = some member ∧ v ∈ violations definitions property (path ++ [Step.key key]) member
  | [] => by simp [memberViolations]
  | (name, value) :: rest => by
    rw [memberViolations, List.lookup_cons]
    by_cases h : name = key
    · subst h
      simp
    · have hne : (key == name) = false := by simpa using fun e => h e.symm
      rw [if_neg h, hne, mem_memberViolations_iff]

theorem itemViolations_eq_nil_iff {item : Schema} {path : List Step} {index : Nat} {elements : List Json} :
    itemViolations definitions item path index elements = [] ↔ ∀ i element, elements[i]? = some element →
      violations definitions item (path ++ [Step.index (index + i)]) element = [] := by
  simp only [List.eq_nil_iff_forall_not_mem, mem_itemViolations_iff]
  exact ⟨fun h i element hi v hv => h v ⟨i, element, hi, hv⟩, fun h v ⟨i, element, hi, hv⟩ => h i element hi v hv⟩

theorem memberViolations_eq_nil_iff {key : String} {property : Schema} {path : List Step}
    {members : List (String × Json)} : memberViolations definitions key property path members = [] ↔
      ∀ member, members.lookup key = some member →
        violations definitions property (path ++ [Step.key key]) member = [] := by
  simp only [List.eq_nil_iff_forall_not_mem, mem_memberViolations_iff]
  exact ⟨fun h member hm v hv => h v ⟨member, hm, hv⟩, fun h v ⟨member, hm, hv⟩ => h member hm v hv⟩

/-! ## Arrays, objects and references -/

/-- The breaches of an array are those of its items. -/
theorem mem_violations_arrayOf_iff {item : Schema} {path : List Step} {elements : List Json} {v : Violation} :
    v ∈ violations definitions (arrayOf item) path (.arr elements) ↔ ∃ i element, elements[i]? = some element ∧
      v ∈ violations definitions item (path ++ [Step.index i]) element := by
  unfold arrayOf
  rw [violations, parts_rules_none]
  simp [typeViolations, Kind.admits, mem_itemViolations_iff]

/-- The breaches of an object are those of its members and the keys that it lacks. -/
theorem mem_violations_objectOf_iff {properties : List (String × Schema)} {required : List String}
    {path : List Step} {members : List (String × Json)} {v : Violation} :
    v ∈ violations definitions (objectOf properties required) path (.obj members) ↔
      (∃ p ∈ properties, ∃ member, members.lookup p.1 = some member ∧
        v ∈ violations definitions p.2 (path ++ [Step.key p.1]) member) ∨
      ∃ name ∈ required, members.lookup name = none ∧ v = ⟨path, .missing name⟩ := by
  unfold objectOf
  rw [violations, parts_rules_none]
  simp [typeViolations, Kind.admits, missingKeys, mem_memberViolations_iff, and_assoc, @eq_comm _ v]

/-- A value follows the schema of an array if it is one and its items follow the schema of the items. -/
theorem violations_arrayOf_eq_nil_iff {item : Schema} {path : List Step} {value : Json} :
    violations definitions (arrayOf item) path value = [] ↔ ∃ elements, value = .arr elements ∧
      ∀ i element, elements[i]? = some element → violations definitions item (path ++ [Step.index i]) element = [] := by
  unfold arrayOf
  cases value with
  | arr elements =>
    rw [violations, parts_rules_none]
    simp [typeViolations, Kind.admits, itemViolations_eq_nil_iff]
  | obj members =>
    rw [violations, parts_rules_none]
    simp [typeViolations, Kind.admits, missingKeys]
  | _ => simp [violations, parts_rules_none, typeViolations, Kind.admits]

/-- A value follows the schema of an object if it is one, each member that has a schema follows it, and no member that
is required is missing. -/
theorem violations_objectOf_eq_nil_iff {properties : List (String × Schema)} {required : List String}
    {path : List Step} {value : Json} :
    violations definitions (objectOf properties required) path value = [] ↔ ∃ members, value = .obj members ∧
      (∀ p ∈ properties, ∀ member, members.lookup p.1 = some member →
        violations definitions p.2 (path ++ [Step.key p.1]) member = []) ∧
      ∀ name ∈ required, (members.lookup name).isSome = true := by
  unfold objectOf
  cases value with
  | obj members =>
    rw [violations, parts_rules_none]
    simp [typeViolations, Kind.admits, missingKeys, memberViolations_eq_nil_iff, Option.isSome_iff_ne_none]
  | arr elements =>
    rw [violations, parts_rules_none]
    simp [typeViolations, Kind.admits]
  | _ => simp [violations, parts_rules_none, typeViolations, Kind.admits]

/-- A reference says what the schema says that it leads to. -/
theorem violations_refer {name : String} {items : Option Schema} {properties : List (String × Schema)}
    {required : List String} {types : List Kind}
    (h : definitions.find? (·.1 = name) = some (name, .rules none items properties required types))
    (path : List Step) (value : Json) :
    violations definitions (refer name) path value =
      violations definitions (.rules none items properties required types) path value := by
  have hparts := parts_refer h
  cases value <;>
    simp [violations, hparts, parts_rules_none, typed, typeViolations, missingKeys]

end TypeBindings.Json.Schema
