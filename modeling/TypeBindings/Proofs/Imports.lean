import TypeBindings.Proofs.Emissions
import TypeBindings.Proofs.GeneratedNames
import TypeBindings.Proofs.Sorting
import TypeBindings.Proofs.TypeTexts

/-!
# Imports are what is used

What is taken out of the context at the end of a file is in strict order, and is what the declarations need
(`Target.pairwise_takenImports`, `Target.mem_takenImports`). What a type needs is a question of its containers
(`Language.mem_typeImports_iff`), what a Java declaration needs is a question of its properties and values, and what a
Kotlin file needs is a question of the kinds of its definitions. No declaration begins as an import line does
(`Java.beginsOtherwise_alone`, `Kotlin.beginsOtherwise_alone`). Hence Java and Kotlin files have a line for each import
that is used in them, and no other import lines (`imports_are_what_is_used`).
-/

namespace TypeBindings

/-! ## What is needed -/

/-- The containers of a type decide which imports it needs. -/
theorem Language.mem_typeImports_iff (lang : Language) (name : String) (shape : Shape) :
    name ∈ lang.typeImports shape ↔
      (name ∈ lang.listImports ∧ Container.list ∈ shape.containers) ∨
      (name ∈ lang.mapImports ∧ Container.map ∈ shape.containers) := by
  induction shape with
  | primitive text => simp [typeImports, Shape.containers]
  | reference text => simp [typeImports, Shape.containers]
  | array element ih =>
    simp only [typeImports, Shape.containers, List.mem_append, ih, List.mem_cons, reduceCtorEq, false_or, true_or,
      and_true]
    tauto
  | map value ih =>
    simp only [typeImports, Shape.containers, List.mem_append, ih, List.mem_cons, reduceCtorEq, false_or, true_or,
      and_true]
    tauto
  | unknown => simp [typeImports, Shape.containers]

namespace Target

variable (target : Target) (s : TypeSystem)

/-- The imports of a file are those that the declarations of its definitions need. -/
theorem mem_takenImports (ds : List Definition) (name : String) :
    name ∈ target.takenImports s ds ↔ ∃ d ∈ ds, name ∈ (target.declaration s d).imports := by
  have hnoted : ∀ noted : List String, name ∈ ds.foldl (fun noted d =>
      addImports noted (target.declaration s d).imports) noted ↔
        name ∈ noted ∨ ∃ d ∈ ds, name ∈ (target.declaration s d).imports := by
    intro noted
    induction ds generalizing noted with
    | nil => simp
    | cons d ds ih => rw [List.foldl_cons, ih, mem_addImports, List.exists_mem_cons_iff, or_assoc]
  rw [takenImports_eq, sortTexts, mem_sortBy, hnoted]
  simp

theorem pairwise_takenImports (ds : List Definition) : (target.takenImports s ds).Pairwise (· < ·) := by
  have hnodup : ∀ noted : List String, noted.Nodup →
      (ds.foldl (fun noted d => addImports noted (target.declaration s d).imports) noted).Nodup := by
    intro noted h
    induction ds generalizing noted with
    | nil => exact h
    | cons d ds ih => exact ih _ (nodup_addImports h _)
  rw [takenImports_eq]
  exact pairwise_sortTexts (hnodup [] List.nodup_nil)

end Target

/-! ## Java -/

namespace Java

/-- The imports of a file are in strict order, and each is there exactly if something in the definition uses it. -/
structure ImportsUsed (d : Definition) (imports : List String) : Prop where
  ascending : imports.Pairwise (· < ·)
  jsonProperty : "com.fasterxml.jackson.annotation.JsonProperty" ∈ imports ↔ d.properties ≠ [] ∨ d.values ≠ []
  list : "java.util.List" ∈ imports ↔ ∃ p ∈ d.properties, Container.list ∈ p.shape.containers
  map : "java.util.Map" ∈ imports ↔ ∃ p ∈ d.properties, Container.map ∈ p.shape.containers
  nullable : "javax.annotation.Nullable" ∈ imports ↔ ∃ p ∈ d.properties, p.required = false
  nothingElse : imports ⊆ ["com.fasterxml.jackson.annotation.JsonProperty", "java.util.List", "java.util.Map",
    "javax.annotation.Nullable"]

theorem mem_propertyImports_iff (p : Property) (name : String) :
    name ∈ propertyImports p ↔ (name = "java.util.List" ∧ Container.list ∈ p.shape.containers) ∨
      (name = "java.util.Map" ∧ Container.map ∈ p.shape.containers) ∨
      (name = "javax.annotation.Nullable" ∧ p.required = false) := by
  have htype := language.mem_typeImports_iff name p.shape
  simp only [language, List.mem_singleton] at htype
  cases hrequired : p.required with
  | true => simp [propertyImports, hrequired, htype, language]
  | false => simp [propertyImports, hrequired, htype, language, nullable, or_assoc]

/-- The imports of a definition come from its members and from what its properties need besides. -/
theorem mem_imports_iff (d : Definition) (name : String) :
    name ∈ imports d ↔
      (name = "com.fasterxml.jackson.annotation.JsonProperty" ∧ (d.properties ≠ [] ∨ d.values ≠ [])) ∨
      ∃ p ∈ d.properties, name ∈ propertyImports p := by
  obtain ⟨title, body, description⟩ := d
  cases body with
  | record r =>
    by_cases hempty : r.properties = []
    · simp [imports, Definition.properties, Definition.values, hempty]
    · simp [imports, Definition.properties, Definition.values, hempty, Java.jsonProperty]
  | enumeration values =>
    by_cases hempty : values = []
    · simp [imports, Definition.properties, Definition.values, hempty]
    · simp [imports, Definition.properties, Definition.values, hempty, Java.jsonProperty]
  | union components => simp [imports, Definition.properties, Definition.values]

theorem importsUsed (s : TypeSystem) (d : Definition) : ImportsUsed d (Target.java.takenImports s [d]) := by
  have hmem : ∀ name, name ∈ Target.java.takenImports s [d] ↔
      (name = "com.fasterxml.jackson.annotation.JsonProperty" ∧ (d.properties ≠ [] ∨ d.values ≠ [])) ∨
      ∃ p ∈ d.properties, (name = "java.util.List" ∧ Container.list ∈ p.shape.containers) ∨
        (name = "java.util.Map" ∧ Container.map ∈ p.shape.containers) ∨
        (name = "javax.annotation.Nullable" ∧ p.required = false) := by
    intro name
    simp only [← mem_propertyImports_iff, ← mem_imports_iff, Target.mem_takenImports, List.mem_singleton,
      exists_eq_left]
    exact Iff.rfl
  constructor
  · exact Target.java.pairwise_takenImports s [d]
  · simp [hmem]
  · simp [hmem]
  · simp [hmem]
  · simp [hmem]
  · intro name hname
    rcases (hmem name).1 hname with ⟨rfl, -⟩ | ⟨p, -, ⟨rfl, -⟩ | ⟨rfl, -⟩ | ⟨rfl, -⟩⟩ <;> simp

end Java

/-! ## Kotlin -/

namespace Kotlin

/-- The imports of a file are in strict order, and each is there exactly if some definition in the file uses it. -/
structure ImportsUsed (ds : List Definition) (imports : List String) : Prop where
  ascending : imports.Pairwise (· < ·)
  serializable : "kotlinx.serialization.Serializable" ∈ imports ↔ ds ≠ []
  serialName : "kotlinx.serialization.SerialName" ∈ imports ↔ ∃ d ∈ ds, d.isEnumeration = true
  nothingElse : imports ⊆ ["kotlinx.serialization.Serializable", "kotlinx.serialization.SerialName"]

theorem mem_imports_iff (s : TypeSystem) (d : Definition) (name : String) :
    name ∈ (declaration s d).imports ↔ name = "kotlinx.serialization.Serializable" ∨
      (name = "kotlinx.serialization.SerialName" ∧ d.isEnumeration = true) := by
  cases henum : d.isEnumeration with
  | true => simp [declaration, henum, Kotlin.serializable, Kotlin.serialName]
  | false => simp [declaration, henum, Kotlin.serializable]

theorem importsUsed (s : TypeSystem) (ds : List Definition) : ImportsUsed ds (Target.kotlin.takenImports s ds) := by
  have hmem : ∀ name, name ∈ Target.kotlin.takenImports s ds ↔
      ∃ d ∈ ds, name = "kotlinx.serialization.Serializable" ∨
        (name = "kotlinx.serialization.SerialName" ∧ d.isEnumeration = true) := by
    intro name
    simp only [← mem_imports_iff s, Target.mem_takenImports]
    exact Iff.rfl
  constructor
  · exact Target.kotlin.pairwise_takenImports s ds
  · simp [hmem, List.eq_nil_iff_forall_not_mem]
  · simp [hmem]
  · intro name hname
    obtain ⟨d, -, rfl | ⟨rfl, -⟩⟩ := (hmem name).1 hname <;> simp

/-- The order of the definitions does not matter. -/
theorem takenImports_eq_of_perm (s s' : TypeSystem) {ds es : List Definition} (h : ds.Perm es) :
    Target.kotlin.takenImports s ds = Target.kotlin.takenImports s' es := by
  refine (Target.kotlin.pairwise_takenImports s ds).eq_of_mem_iff (Target.kotlin.pairwise_takenImports s' es)
    fun name => ?_
  rw [Target.mem_takenImports, Target.mem_takenImports]
  refine exists_congr fun d => and_congr h.mem_iff ?_
  exact (mem_imports_iff s d name).trans (mem_imports_iff s' d name).symm

end Kotlin

/-! ## The first line of a declaration -/

theorem IndentStyle.indent_zero (style : IndentStyle) : style.indent 0 = "" := by
  cases style with
  | spaces width => rw [indent, Nat.zero_mul]; rfl
  | tabs => rfl

/-- At the outermost level a text begins as its first line does. -/
theorem head?_renderLines {style : IndentStyle} {text : String} {c : Char} (htext : text.toList.head? = some c)
    (lines : List Line) : (renderLines style 0 (⟨0, text⟩ :: lines)).toList.head? = some c := by
  have hne : text ≠ "" := by
    rintro rfl
    cases htext
  rw [renderLines_cons, Line.render_of_ne style 0 hne, lineText, IndentStyle.indent_zero, String.empty_append,
    String.toList_append, String.toList_append, List.append_assoc, List.head?_append, htext, Option.some_or]

/-- A comment begins with a slash or a blank, if there is one. -/
theorem head_renderLines_documented {style : IndentStyle} {description : Option String} {c : Char}
    (h : c ∈ (renderLines style 0 (documented Comment.block 0 description)).toList.head?) : c = '/' ∨ c = ' ' := by
  cases description with
  | none => cases h
  | some text =>
    cases hblock : Comment.block text with
    | nil =>
      rw [documented, Line.block, hblock] at h
      cases h
    | cons line lines =>
      have hline : line ∈ Comment.block text := hblock ▸ List.mem_cons_self
      rw [documented, Line.block, hblock, List.map_cons] at h
      rcases Comment.head?_of_mem_block hline with hhead | hhead
      · rw [head?_renderLines hhead] at h
        exact .inl (Option.some.inj h).symm
      · rw [head?_renderLines hhead] at h
        exact .inr (Option.some.inj h).symm

/-- A comment does not change whether a declaration begins otherwise. -/
theorem beginsOtherwise_renderLines {style : IndentStyle} {description : Option String} {text : String}
    (h : BeginsOtherwise text) (lines : List Line) :
    BeginsOtherwise (renderLines style 0 (documented Comment.block 0 description ++ ⟨0, text⟩ :: lines)) := by
  obtain ⟨first, hfirst, hother⟩ := h
  rw [renderLines_append]
  cases hcomment : (renderLines style 0 (documented Comment.block 0 description)).toList.head? with
  | none =>
    refine ⟨first, ?_, hother⟩
    rw [String.toList_append, List.head?_append, hcomment, head?_renderLines hfirst, Option.none_or]
  | some c =>
    refine BeginsOtherwise.append ⟨c, hcomment, ?_⟩ _
    rcases head_renderLines_documented hcomment with rfl | rfl <;> decide

namespace Java

/-- The code of a declaration begins with `public`. -/
theorem exists_first_bodyLines (s : TypeSystem) (d : Definition) :
    ∃ text lines, bodyLines s d = ⟨0, text⟩ :: lines ∧ text.toList.head? = some 'p' := by
  cases hbody : d.body with
  | record r =>
    rw [bodyLines_record s hbody]
    unfold headLines
    split
    · exact ⟨_, _, rfl, by simp⟩
    · exact ⟨_, _, rfl, by simp⟩
  | enumeration values =>
    rw [bodyLines, hbody]
    exact ⟨_, _, rfl, by simp⟩
  | union components =>
    rw [bodyLines, hbody]
    refine ⟨_, _, rfl, ?_⟩
    split
    · simp
    · simp

theorem beginsOtherwise_alone (s : TypeSystem) (style : IndentStyle) (d : Definition) :
    BeginsOtherwise (Target.java.alone s style 0 d) := by
  obtain ⟨text, lines, hlines, htext⟩ := exists_first_bodyLines s d
  have hdeclaration : (Target.java.declaration s d).lines =
      documented Comment.block 0 d.description ++ ⟨0, text⟩ :: lines := congrArg _ hlines
  rw [Target.alone_eq, hdeclaration]
  exact beginsOtherwise_renderLines ⟨'p', htext, by decide⟩ lines

/-- A file has the imports that are taken out of the context in which its declaration was written. -/
theorem standalone_eq (s : TypeSystem) (d : Definition) :
    standalone s.package (sortTexts (addImports [] (declaration s d).imports)) (declaration s d) =
      "// Code generated by typegen. DO NOT EDIT.\n" ++ "package " ++ s.package.getD "com.example.models" ++ ";\n" ++
        (importBlock ";" (Target.java.takenImports s [d]) ++ "\n" ++ Target.java.alone s language.style 0 d) := by
  have htext : Target.java.alone s language.style 0 d =
      (({ style := .spaces 4 } : Context).emit (declaration s d)).1 := Target.alone_eq _ _ _ _ _
  have himports : Target.java.takenImports s [d] = sortTexts (addImports [] (declaration s d).imports) :=
    Target.takenImports_eq _ _ _
  rw [htext, himports]
  rfl

/-- The names that Java files import are on one line. -/
theorem ImportsUsed.not_feed {d : Definition} {imports : List String} (h : ImportsUsed d imports) :
    ∀ name ∈ imports, '\n' ∉ name.toList := by
  intro name hname
  have hmem := h.nothingElse hname
  simp only [List.mem_cons, List.not_mem_nil, or_false] at hmem
  rcases hmem with rfl | rfl | rfl | rfl <;> decide

end Java

namespace Kotlin

theorem beginsOtherwise_alone (s : TypeSystem) (style : IndentStyle) (d : Definition) :
    BeginsOtherwise (Target.kotlin.alone s style 0 d) := by
  have hdeclaration : (Target.kotlin.declaration s d).lines =
      documented Comment.block 0 d.description ++ ⟨0, "@Serializable"⟩ :: bodyLines s d := rfl
  rw [Target.alone_eq, hdeclaration]
  exact beginsOtherwise_renderLines ⟨'@', rfl, by decide⟩ (bodyLines s d)

theorem ImportsUsed.not_feed {ds : List Definition} {imports : List String} (h : ImportsUsed ds imports) :
    ∀ name ∈ imports, '\n' ∉ name.toList := by
  intro name hname
  have hmem := h.nothingElse hname
  simp only [List.mem_cons, List.not_mem_nil, or_false] at hmem
  rcases hmem with rfl | rfl <;> decide

/-- The declarations of a file follow its imports behind an empty line, and a file without declarations has no
imports. -/
theorem importLinesOf_body (s : TypeSystem) (ds : List Definition) :
    importLinesOf (importBlock "" (Target.kotlin.takenImports s ds) ++
        Target.kotlin.separated (ds.map (Target.kotlin.alone s language.style 0))) =
      (Target.kotlin.takenImports s ds).map ("import " ++ ·) := by
  cases ds with
  | nil => rfl
  | cons d ds =>
    obtain ⟨more, hmore⟩ : ∃ more, Target.kotlin.separated ((d :: ds).map (Target.kotlin.alone s language.style 0)) =
        "\n" ++ (Target.kotlin.alone s language.style 0 d ++ more) := ⟨_, String.append_assoc⟩
    have hbegins := (beginsOtherwise_alone s language.style d).append more
    rw [hmore, ← String.append_assoc,
      importLinesOf_importBlock "" (by decide) (importsUsed s (d :: ds)).not_feed hbegins]
    simp only [String.append_empty]

end Kotlin

/-- **Imports are exactly what is used.** Every Java file and the Kotlin file begin with the header and the package.
Behind these stand the imports that were taken out of the context in which the declarations were written: there is a
line for each of them, in strict order, and no other import line up to the first declaration. They are those that are
used, and in Kotlin they do not depend on the order of the types. -/
theorem imports_are_what_is_used (s : TypeSystem) (policy : ComponentPolicy) :
    (∀ (k : Nat) (d : Definition), (Java.language.eligible policy s)[k]? = some d → ∃ name body,
      (Java.generate s policy).files[k]? = some (name, "// Code generated by typegen. DO NOT EDIT.\n" ++ "package " ++
        s.package.getD "com.example.models" ++ ";\n" ++ body) ∧
      body = importBlock ";" (Target.java.takenImports s [d]) ++ "\n" ++
        Target.java.alone s Java.language.style 0 d ∧
      importLinesOf body = (Target.java.takenImports s [d]).map (fun name => "import " ++ name ++ ";") ∧
      Java.ImportsUsed d (Target.java.takenImports s [d])) ∧
    (∃ name body, Kotlin.generate s policy = ⟨[(name, "// Code generated by typegen. DO NOT EDIT.\n" ++
        (s.package.elim "" fun name => "package " ++ name ++ "\n") ++ body)]⟩ ∧
      body = importBlock "" (Target.kotlin.takenImports s (Kotlin.language.eligible policy s)) ++
        Target.kotlin.separated ((Kotlin.language.eligible policy s).map
          (Target.kotlin.alone s Kotlin.language.style 0)) ∧
      importLinesOf body =
        (Target.kotlin.takenImports s (Kotlin.language.eligible policy s)).map ("import " ++ ·)) ∧
    Kotlin.ImportsUsed (Kotlin.language.eligible policy s)
      (Target.kotlin.takenImports s (Kotlin.language.eligible policy s)) ∧
    ∀ s' : TypeSystem, s'.definitions.Perm s.definitions →
      Target.kotlin.takenImports s' (Kotlin.language.eligible policy s') =
        Target.kotlin.takenImports s (Kotlin.language.eligible policy s) := by
  have hkotlin := Kotlin.importsUsed s (Kotlin.language.eligible policy s)
  refine ⟨fun k d hd => ?_, ?_, hkotlin, fun s' hperm => ?_⟩
  · obtain ⟨⟨name, content⟩, hfile, -, hcontent⟩ := (Java.covers_generate s policy).file k d hd
    have hused := Java.importsUsed s d
    have hbegins := Java.beginsOtherwise_alone s Java.language.style d
    have hlines := importLinesOf_importBlock ";" (by decide) hused.not_feed hbegins
    have htext := hcontent.trans (Java.standalone_eq s d)
    exact ⟨name, _, hfile.trans (congrArg some (Prod.ext rfl htext)), rfl, hlines, hused⟩
  · obtain ⟨name, hgenerate⟩ := Target.kotlin.generate_combined s policy rfl
    have hclosing : ∀ text, text ++ Target.kotlin.closing = text := fun _ => String.append_empty
    rw [Target.fileRun_eq, hclosing, Target.opening_kotlin, Kotlin.importLines_eq, String.append_assoc] at hgenerate
    exact ⟨name, _, hgenerate, rfl, Kotlin.importLinesOf_body s _⟩
  · exact Kotlin.takenImports_eq_of_perm s' s (hperm.filter _)

/-- A record with a list inside a map and a field that may be left out. -/
def cache : Definition :=
  .record "Cache" [⟨"rows", .map (.array (.primitive "string")), true, none⟩,
    ⟨"note", .primitive "string", false, none⟩]

theorem imports_are_what_is_used_cache :
    let s : TypeSystem := ⟨none, [cache, .enumeration "Mood" ["calm"]]⟩
    let s' : TypeSystem := ⟨none, [.enumeration "Mood" ["calm"], cache]⟩
    (Java.language.eligible .usual s)[0]? = some cache ∧
    (∃ name body, (Java.generate s .usual).files[0]? = some (name, "// Code generated by typegen. DO NOT EDIT.\n" ++
        "package " ++ "com.example.models" ++ ";\n" ++ body) ∧
      importLinesOf body = ["import com.fasterxml.jackson.annotation.JsonProperty;", "import java.util.List;",
        "import java.util.Map;", "import javax.annotation.Nullable;"]) ∧
    (Target.java.takenImports s [cache]).Pairwise (· < ·) ∧
    "java.util.List" ∈ Target.java.takenImports s [cache] ∧ "java.util.Map" ∈ Target.java.takenImports s [cache] ∧
    "javax.annotation.Nullable" ∈ Target.java.takenImports s [cache] ∧
    "kotlinx.serialization.SerialName" ∈ Target.kotlin.takenImports s (Kotlin.language.eligible .usual s) ∧
    s'.definitions.Perm s.definitions ∧
    Target.kotlin.takenImports s' (Kotlin.language.eligible .usual s') =
      Target.kotlin.takenImports s (Kotlin.language.eligible .usual s) := by
  intro s s'
  have heligible : (Java.language.eligible .usual s)[0]? = some cache := rfl
  have hperm : s'.definitions.Perm s.definitions := List.Perm.swap _ _ _
  have himports : Target.java.takenImports s [cache] = ["com.fasterxml.jackson.annotation.JsonProperty",
      "java.util.List", "java.util.Map", "javax.annotation.Nullable"] := by rfl
  obtain ⟨hjava, -, hkotlin, horder⟩ := imports_are_what_is_used s .usual
  obtain ⟨name, body, hfile, -, hlines, hused⟩ := hjava 0 cache heligible
  rw [himports] at hlines
  exact ⟨heligible, ⟨name, body, hfile, hlines⟩, hused.ascending, hused.list.2 (by decide), hused.map.2 (by decide),
    hused.nullable.2 (by decide), hkotlin.serialName.2 (by decide), hperm, horder s' hperm⟩

end TypeBindings
