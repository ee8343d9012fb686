import TypeBindings.Backend

/-!
# The lines of records

What the names of the fields are is one question, and where they stand is another. For every target language
`fieldLines properties names` are the lines of the properties when their fields have the given names, and `lines_record`
says that a record is declared by these lines, with what opens and closes it around them, for the list of names that the
language makes (`fieldNames`).
-/

namespace TypeBindings

/-- Pairing every item with what a function makes of it. -/
theorem flatMap_zip_map {α β γ : Type} (f : α → β) (g : α × β → List γ) (items : List α) :
    (items.zip (items.map f)).flatMap g = items.flatMap fun item => g (item, f item) := by
  induction items with
  | nil => rfl
  | cons item items ih =>
    rw [List.map_cons, List.zip_cons_cons, List.flatMap_cons, List.flatMap_cons, ih]

/-- What a function makes of the names of properties. -/
theorem map_map_name (f : String → String) (properties : List Property) :
    (properties.map (·.name)).map f = properties.map fun p => f p.name :=
  List.map_map

namespace TypeScript

/-- The keys of the properties of a record. -/
def fieldNames (properties : List Property) : List String :=
  properties.map fun p => key p.name

/-- The lines of properties that have the given keys. -/
def fieldLines (properties : List Property) (keys : List String) : List Line :=
  (properties.zip keys).flatMap fun field => documented Comment.block 1 field.1.description ++
    [⟨1, field.2 ++ (if field.1.required then "" else "?") ++ ": " ++ language.typeText field.1.shape ++ ";"⟩]

/-- The lines of an interface whose properties have the given keys. -/
def recordLines (d : Definition) (properties : List Property) (keys : List String) : List Line :=
  ⟨0, "export interface " ++ d.name ++ d.base?.elim "" (" extends " ++ ·) ++ " \x7b"⟩ ::
    fieldLines properties keys ++ [⟨0, "\x7d"⟩]

theorem fieldLines_fieldNames (properties : List Property) :
    fieldLines properties (fieldNames properties) = properties.flatMap propertyLines :=
  flatMap_zip_map _ _ _

theorem lines_record (s : TypeSystem) {d : Definition} {r : Record} (hd : d.body = .record r) :
    (declaration s d).lines = documented Comment.block 0 d.description ++
      recordLines d r.properties (fieldNames r.properties) := by
  unfold declaration bodyLines recordLines
  rw [fieldLines_fieldNames, hd]
  cases d.base? with
  | none => rfl
  | some parent => rfl

/-- The lines of an enumeration whose members have the given keys. -/
def enumLines (name : String) (values keys : List String) : List Line :=
  ⟨0, "export enum " ++ name ++ " \x7b"⟩ ::
    (values.zip keys).map (fun member => ⟨1, member.2 ++ " = " ++ Literal.singleQuoted member.1 ++ ","⟩) ++
      [⟨0, "\x7d"⟩]

theorem lines_enumeration (s : TypeSystem) {d : Definition} {values : List String} (hd : d.body = .enumeration values) :
    (declaration s d).lines = documented Comment.block 0 d.description ++ enumLines d.name values (values.map key) := by
  unfold declaration bodyLines enumLines
  rw [hd, ← List.map_prod_left_eq_zip, List.map_map]
  rfl

end TypeScript

namespace Kotlin

/-- The names of the fields of a record. -/
def fieldNames (properties : List Property) : List String :=
  properties.map fun p => fieldName p.name

/-- The lines of properties whose fields have the given names. -/
def fieldLines (properties : List Property) (names : List String) : List Line :=
  (properties.zip names).flatMap fun field => documented Comment.block 1 field.1.description ++
    [⟨1, "val " ++ field.2 ++ ": " ++ language.typeText field.1.shape ++
      (if field.1.required then "," else "? = null,")⟩]

/-- The lines of a class whose fields have the given names. -/
def recordLines (s : TypeSystem) (d : Definition) (properties : List Property) (names : List String) : List Line :=
  ⟨0, "@Serializable"⟩ ::
    if properties.isEmpty then [⟨0, "class " ++ d.name ++ extension s d⟩]
    else ⟨0, "data class " ++ d.name ++ "("⟩ :: fieldLines properties names ++ [⟨0, ")" ++ extension s d⟩]

theorem fieldLines_fieldNames (properties : List Property) :
    fieldLines properties (fieldNames properties) = properties.flatMap propertyLines :=
  flatMap_zip_map _ _ _

theorem lines_record (s : TypeSystem) {d : Definition} {r : Record} (hd : d.body = .record r) :
    (declaration s d).lines = documented Comment.block 0 d.description ++
      recordLines s d r.properties (fieldNames r.properties) := by
  unfold declaration bodyLines recordLines
  rw [fieldLines_fieldNames, hd]

end Kotlin

namespace Java

/-- The names of the components of a record. -/
def fieldNames (properties : List Property) : List String :=
  properties.map fun p => componentName p.name

/-- The lines of properties whose components have the given names; all components but the last have a comma behind
them. -/
def fieldLines : List Property → List String → List Line
  | p :: rest, name :: names =>
    documented Comment.block 1 p.description ++
      ⟨1, "@JsonProperty(" ++ Literal.doubleQuoted p.name ++ ") " ++ (if p.required then "" else "@Nullable ") ++
        language.typeText p.shape ++ " " ++ name ++ (if rest.isEmpty then "" else ",")⟩ :: fieldLines rest names
  | _, _ => []

/-- The lines of a record whose components have the given names. -/
def recordLines (s : TypeSystem) (d : Definition) (properties : List Property) (names : List String) : List Line :=
  (if properties.isEmpty then [⟨0, "public record " ++ d.name ++ "()" ++ recordTail s d⟩]
    else ⟨0, "public record " ++ d.name ++ "("⟩ :: fieldLines properties names ++ [⟨0, ")" ++ recordTail s d⟩]) ++
  d.base?.elim [] (fun parent => [⟨1, "// Records cannot extend " ++ parent ++ "; add its members here by hand."⟩]) ++
  [⟨0, "\x7d"⟩]

theorem fieldLines_fieldNames : ∀ properties, fieldLines properties (fieldNames properties) = componentLines properties
  | [] => rfl
  | [p] => rfl
  | p :: next :: rest => by
    have hstep : componentLines (p :: next :: rest) = propertyLines false p ++ componentLines (next :: rest) := rfl
    rw [hstep, ← fieldLines_fieldNames (next :: rest), propertyLines, List.append_assoc, List.singleton_append]
    rfl

theorem lines_record (s : TypeSystem) {d : Definition} {r : Record} (hd : d.body = .record r) :
    (declaration s d).lines = documented Comment.block 0 d.description ++
      recordLines s d r.properties (fieldNames r.properties) := by
  unfold declaration bodyLines recordLines
  rw [fieldLines_fieldNames, hd]
  cases d.base? with
  | none => rfl
  | some parent => rfl

end Java

namespace CSharp

/-- The names of the properties of a class. -/
def fieldNames (properties : List Property) : List String :=
  properties.map fun p => propertyName p.name

/-- The lines of properties that have the given names in their class, with empty lines between them. -/
def fieldLines : List Property → List String → List Line
  | p :: rest, name :: names =>
    let type := language.typeText p.shape
    let accessors := " " ++ name ++ " \x7b get; set; \x7d"
    documented Comment.summary 1 p.description ++
      ⟨1, "[JsonPropertyName(" ++ Literal.doubleQuoted p.name ++ ")]"⟩ ::
      ⟨1, if p.required then "public required " ++ type ++ accessors
        else if isValueType p.shape then "public " ++ type ++ "?" ++ accessors
        else "public " ++ type ++ "?" ++ accessors ++ " = null;"⟩ ::
      (if rest.isEmpty then [] else Line.blank :: fieldLines rest names)
  | _, _ => []

/-- The lines of a class whose properties have the given names. -/
def recordLines (s : TypeSystem) (d : Definition) (properties : List Property) (names : List String) : List Line :=
  ⟨0, "public class " ++ d.name ++ extension s d⟩ :: ⟨0, "\x7b"⟩ :: fieldLines properties names ++ [⟨0, "\x7d"⟩]

theorem fieldLines_fieldNames : ∀ properties, fieldLines properties (fieldNames properties) = memberLines properties
  | [] => rfl
  | [p] => rfl
  | p :: next :: rest => by
    have hstep : memberLines (p :: next :: rest) = propertyLines p ++ Line.blank :: memberLines (next :: rest) := rfl
    rw [hstep, ← fieldLines_fieldNames (next :: rest), propertyLines, List.append_assoc]
    rfl

theorem lines_record (s : TypeSystem) {d : Definition} {r : Record} (hd : d.body = .record r) :
    (declaration s d).lines = documented Comment.summary 0 d.description ++
      recordLines s d r.properties (fieldNames r.properties) := by
  unfold declaration bodyLines recordLines
  rw [fieldLines_fieldNames, hd]

end CSharp

end TypeBindings
