import Mathlib.Data.List.Basic
import TypeBindings.Proofs.JavaFiles
import TypeBindings.Proofs.Ownership
import TypeBindings.Proofs.Suppression

/-!
# One more type at the end

A type that is no union lists nothing. So it changes neither the marks of the definitions before it
(`TypeSystem.extends_ofDefinitions`) nor their owners (`Extends.owner?_eq`), and their declarations stay as they are.
What is generated from the longer list then begins with what was generated from the shorter one
(`appending_disturbs_nothing`).
-/

namespace TypeBindings

/-! ## Beginnings of texts -/

namespace Text

/-- A text begins with another. -/
def Begins (front whole : String) : Prop :=
  ∃ rest, whole = front ++ rest

theorem Begins.append_left {front whole : String} (before : String) (h : Begins front whole) :
    Begins (before ++ front) (before ++ whole) := by
  obtain ⟨rest, rfl⟩ := h
  exact ⟨rest, String.append_assoc.symm⟩

theorem Begins.append_right {front whole : String} (after : String) (h : Begins front whole) :
    Begins front (whole ++ after) := by
  obtain ⟨rest, rfl⟩ := h
  exact ⟨rest ++ after, String.append_assoc⟩

theorem begins_concat (texts more : List String) : Begins (concat texts) (concat (texts ++ more)) :=
  ⟨concat more, concat_append texts more⟩

theorem begins_joinWith (sep : String) : ∀ texts more : List String,
    Begins (joinWith sep texts) (joinWith sep (texts ++ more))
  | [], more => ⟨joinWith sep more, String.empty_append.symm⟩
  | [_], [] => ⟨"", String.append_empty.symm⟩
  | [_], next :: more => ⟨sep ++ joinWith sep (next :: more), String.append_assoc⟩
  | text :: next :: rest, more => (begins_joinWith sep (next :: rest) more).append_left (text ++ sep)

end Text

/-! ## Systems with more definitions at the end -/

/-- The second system has more definitions at its end, and they list nothing. -/
structure Extends (s s' : TypeSystem) (more : List Definition) : Prop where
  package : s'.package = s.package
  definitions : s'.definitions = s.definitions ++ more
  components : ∀ d ∈ more, d.components = []

namespace Definition

theorem components_of_not_isUnion {d : Definition} (h : d.isUnion = false) : d.components = [] := by
  obtain ⟨_, body, _⟩ := d
  cases body with
  | record _ => rfl
  | enumeration _ => rfl
  | union _ => cases h

theorem base?_of_isUnion {d : Definition} (h : d.isUnion = true) : d.base? = none := by
  obtain ⟨_, body, _⟩ := d
  cases body with
  | record _ => cases h
  | enumeration _ => cases h
  | union _ => rfl

theorem properties_of_isEnumeration {d : Definition} (h : d.isEnumeration = true) : d.properties = [] := by
  obtain ⟨_, body, _⟩ := d
  cases body with
  | record _ => cases h
  | enumeration _ => rfl
  | union _ => cases h

theorem values_of_not_isEnumeration {d : Definition} (h : d.isEnumeration = false) : d.values = [] := by
  obtain ⟨_, body, _⟩ := d
  cases body with
  | record _ => rfl
  | enumeration _ => cases h
  | union _ => rfl

end Definition

namespace TypeSystem

theorem listedNames_append {definitions more : List Definition} (h : ∀ d ∈ more, d.components = []) :
    listedNames (definitions ++ more) = listedNames definitions := by
  have hmore : listedNames more = [] := by
    refine List.flatMap_eq_nil_iff.2 fun d hd => ?_
    rw [h d hd, List.filter_nil]
  unfold listedNames at hmore ⊢
  rw [List.flatMap_append, hmore, List.append_nil]

/-- **A type that is no union marks nothing.** -/
theorem extends_ofDefinitions (package : Option String) (definitions : List Definition) {d : Definition}
    (h : d.isUnion = false) :
    Extends (ofDefinitions package definitions) (ofDefinitions package (definitions ++ [d]))
      [mark (listedNames definitions) d] := by
  have hcomponents := Definition.components_of_not_isUnion h
  refine ⟨rfl, ?_, fun d' hd' => ?_⟩
  · unfold ofDefinitions
    rw [listedNames_append (List.forall_mem_singleton.2 hcomponents), List.map_append, List.map_singleton]
  · rw [List.mem_singleton.1 hd', components_mark, hcomponents]

end TypeSystem

namespace Extends

variable {s s' : TypeSystem} {more : List Definition}

/-- The union that a name belongs to is not among the new definitions. -/
theorem unionOf?_eq (h : Extends s s' more) (name : String) : s'.unionOf? name = s.unionOf? name := by
  have hnone : more.find? (TypeSystem.lists name) = none := by
    refine List.find?_eq_none.2 fun d hd hlists => ?_
    have hname := (TypeSystem.lists_iff.1 hlists).2
    rw [h.components d hd] at hname
    cases hname
  unfold TypeSystem.unionOf?
  rw [h.definitions, List.find?_append, hnone, Option.or_none]

theorem owner?_eq (h : Extends s s' more) (d : Definition) : owner? s' d = owner? s d := by
  unfold owner?
  rw [h.unionOf?_eq]

/-- **Declarations stay as they are.** -/
theorem declarationText_eq (h : Extends s s' more) (target : Target) :
    target.declarationText s' = target.declarationText s := by
  funext d
  have hdeclaration : target.declaration s' d = target.declaration s d := target.declaration_congr (h.owner?_eq d)
  cases target <;> exact congrArg (fun declaration => renderLines _ _ declaration.lines) hdeclaration

/-- The new definitions that get a declaration come after the others. -/
theorem eligible_eq (h : Extends s s' more) (lang : Language) (policy : ComponentPolicy) :
    lang.eligible policy s' = lang.eligible policy s ++ lang.eligible policy ⟨s.package, more⟩ := by
  unfold Language.eligible
  rw [h.definitions, List.filter_append]

end Extends

section Generated

variable {s s' : TypeSystem} {more : List Definition} {policy : ComponentPolicy}

/-! ## Files of all declarations -/

theorem TypeScript.begins_fileContent (h : Extends s s' more) :
    Text.Begins (fileContent s policy) (fileContent s' policy) := by
  have htext : declarationText s' = declarationText s := h.declarationText_eq .typeScript
  unfold fileContent
  rw [h.package, h.eligible_eq, List.map_append, htext]
  exact (Text.begins_concat _ _).append_left _

theorem Kotlin.begins_fileBody (h : Extends s s' more) :
    Text.Begins (fileBody s policy) (fileBody s' policy) := by
  have htext : declarationText s' = declarationText s := h.declarationText_eq .kotlin
  unfold fileBody
  rw [h.eligible_eq, List.map_append, htext]
  exact Text.begins_concat _ _

theorem CSharp.begins_fileBody (h : Extends s s' more) :
    Text.Begins (fileBody s policy) (fileBody s' policy) := by
  have htext : declarationText s' = declarationText s := h.declarationText_eq .cSharp
  unfold fileBody
  rw [h.eligible_eq, List.map_append, htext]
  exact Text.begins_joinWith _ _ _

/-! ## A file for each declaration -/

/-- Files that are added stand behind those that are there, one for each definition. -/
theorem Java.files_foldl_addFile (s : TypeSystem) : ∀ (ds : List Definition) (files : FileSet), ∃ added,
    (ds.foldl (addFile s) files).files = files.files ++ added ∧ added.length = ds.length
  | [], files => ⟨[], (List.append_nil _).symm, rfl⟩
  | d :: ds, files => by
    obtain ⟨file, hfile, -⟩ := files_addFile s files d
    obtain ⟨added, hadded, hlength⟩ := files_foldl_addFile s ds (addFile s files d)
    refine ⟨file :: added, ?_, by rw [List.length_cons, hlength, List.length_cons]⟩
    rw [List.foldl_cons, hadded, hfile, List.append_assoc, List.singleton_append]

theorem Java.files_generate (h : Extends s s' more) : ∃ added,
    (generate s' policy).files = (generate s policy).files ++ added ∧ added.length ≤ more.length := by
  have htext : declarationText s' = declarationText s := h.declarationText_eq .java
  have hfile : addFile s' = addFile s := by
    funext files d
    rw [addFile, fileContent, htext, h.package, addFile, fileContent]
  obtain ⟨added, hadded, hlength⟩ :=
    files_foldl_addFile s (language.eligible policy ⟨s.package, more⟩) (generate s policy)
  refine ⟨added, ?_, ?_⟩
  · rw [generate, hfile, h.eligible_eq, List.foldl_append]
    exact hadded
  · rw [hlength]
    exact List.length_filter_le _ _

end Generated

/-- What stands before the declarations of a Kotlin file: the header, the package and the imports. -/
def Kotlin.preamble (s : TypeSystem) (policy : ComponentPolicy) : String :=
  fileHeader ++
    (match s.package with
      | some name => "package " ++ name ++ "\n"
      | none => "") ++
    importLines (fileImports s (language.eligible policy s))

/-- What stands before the closing brace of a C# file. -/
def CSharp.unclosed (s : TypeSystem) (policy : ComponentPolicy) : String :=
  fileHeader ++ "#nullable enable\n\n" ++ Text.concat (usings.map fun name => "using " ++ name ++ ";\n") ++
    "\nnamespace " ++ s.package.getD defaultNamespace ++ "\n\x7b\n" ++ fileBody s policy

/-- **One more type disturbs no other.** When a type that is no union is added at the end, the Java files stay and at
most one comes after them, the TypeScript file goes on after its end, the C# file goes on where its closing brace
was, and the Kotlin declarations go on after the last one. -/
theorem appending_disturbs_nothing (package : Option String) (definitions : List Definition) (d : Definition)
    (hd : d.isUnion = false) (policy : ComponentPolicy) :
    let s := TypeSystem.ofDefinitions package definitions
    let s' := TypeSystem.ofDefinitions package (definitions ++ [d])
    (∃ added, (Java.generate s' policy).files = (Java.generate s policy).files ++ added ∧ added.length ≤ 1) ∧
    (∃ content content', TypeScript.generate s policy = ⟨[("types.ts", content)]⟩ ∧
      TypeScript.generate s' policy = ⟨[("types.ts", content')]⟩ ∧ Text.Begins content content') ∧
    (∃ front content', CSharp.generate s policy = ⟨[("Types.cs", front ++ "\x7d\n")]⟩ ∧
      CSharp.generate s' policy = ⟨[("Types.cs", content')]⟩ ∧ Text.Begins front content') ∧
    (Kotlin.generate s policy = ⟨[("Types.kt", Kotlin.preamble s policy ++ Kotlin.fileBody s policy)]⟩ ∧
      Kotlin.generate s' policy = ⟨[("Types.kt", Kotlin.preamble s' policy ++ Kotlin.fileBody s' policy)]⟩ ∧
      Text.Begins (Kotlin.fileBody s policy) (Kotlin.fileBody s' policy)) := by
  intro s s'
  have h : Extends s s' [TypeSystem.mark (TypeSystem.listedNames definitions) d] :=
    TypeSystem.extends_ofDefinitions package definitions hd
  refine ⟨Java.files_generate h, ⟨_, _, rfl, rfl, TypeScript.begins_fileContent h⟩,
    ⟨CSharp.unclosed s policy, _, rfl, rfl, ?_⟩, rfl, rfl, Kotlin.begins_fileBody h⟩
  exact ((CSharp.begins_fileBody h).append_left _).append_right _

/-- A record, and a union that lists a type which is not there yet. -/
def slashAndUnion : List Definition :=
  [.record "A/B" [], .union "Shape" ["A.B"]]

theorem appending_disturbs_nothing_dot :
    let s := TypeSystem.ofDefinitions none slashAndUnion
    let s' := TypeSystem.ofDefinitions none (slashAndUnion ++ [.record "A.B" []])
    (Definition.record "A.B" []).isUnion = false ∧
    (Java.generate s .emit).names = ["A_B.java", "Shape.java"] ∧
    (Java.generate s' .emit).names = ["A_B.java", "Shape.java", "A_B_2.java"] ∧
    (∃ added, (Java.generate s' .emit).files = (Java.generate s .emit).files ++ added ∧ added.length ≤ 1) ∧
    Text.Begins (Kotlin.fileBody s .emit) (Kotlin.fileBody s' .emit) :=
  have h := appending_disturbs_nothing none slashAndUnion (.record "A.B" []) rfl .emit
  ⟨rfl, by decide +kernel, by decide +kernel, h.1, h.2.2.2.2.2⟩

end TypeBindings
