import TypeBindings.Emitters
import TypeBindings.Proofs.Declarations
import TypeBindings.Proofs.Summaries

/-!
# What emitters leave behind

An emitter writes a declaration step by step in a context that it may change. `EmitsAt style level depth x lines
imports` says what such a step comes to, a number of levels deeper than the declaration begins: it gives the text of the
lines, it notes the imports behind those that are there, and it leaves everything else as it was. Steps that do so can be
repeated (`emitsAt_each`), and every emitter does so for the lines and the imports of its declaration
(`Target.run_definition`), whichever way it takes through its levels. Hence declarations that are written in one context
do not disturb each other (`declarations_do_not_interfere`).
-/

namespace TypeBindings

/-! ## Texts of lines -/

section Lines

variable (style : IndentStyle) (level : Nat)

@[simp] theorem renderLines_nil : renderLines style level [] = "" := rfl

@[simp] theorem renderLines_cons (line : Line) (lines : List Line) :
    renderLines style level (line :: lines) = line.render style level ++ renderLines style level lines := rfl

@[simp] theorem renderLines_append (lines more : List Line) :
    renderLines style level (lines ++ more) = renderLines style level lines ++ renderLines style level more := by
  simp [renderLines, Text.concat_append]

@[simp] theorem Line.render_blank : Line.blank.render style level = "\n" := rfl

/-- A line that is not empty is written behind its indentation. -/
theorem Line.render_of_ne {text : String} (h : text ≠ "") (depth : Nat) :
    Line.render style level ⟨depth, text⟩ = lineText (style.indent (level + depth)) text := by
  rw [render, String.isEmpty_eq_false_iff.2 h]
  rfl

theorem renderLines_commentText {comment : String → List String}
    (hne : ∀ description, ∀ line ∈ comment description, line ≠ "") (depth : Nat) (description : Option String) :
    renderLines style level (documented comment depth description) =
      commentText comment (style.indent (level + depth)) description := by
  cases description with
  | none => rfl
  | some text =>
    have hline : ∀ line ∈ comment text,
        Line.render style level ⟨depth, line⟩ = lineText (style.indent (level + depth)) line :=
      fun line hline => Line.render_of_ne style level (hne text line hline) depth
    rw [documented, Line.block, renderLines, List.map_map, commentText, ← List.map_congr_left hline]
    rfl

@[simp] theorem renderLines_block (depth : Nat) (description : Option String) :
    renderLines style level (documented Comment.block depth description) =
      commentText Comment.block (style.indent (level + depth)) description := by
  refine renderLines_commentText style level (fun text line hline => ?_) depth description
  rintro rfl
  rcases Comment.head?_of_mem_block hline with h | h <;> cases h

@[simp] theorem renderLines_summary (depth : Nat) (description : Option String) :
    renderLines style level (documented Comment.summary depth description) =
      commentText Comment.summary (style.indent (level + depth)) description :=
  renderLines_commentText style level (fun _ _ => Comment.ne_of_mem_summary) depth description

theorem renderLines_map {α : Type} {text : α → String} (h : ∀ item, text item ≠ "") (depth : Nat) (items : List α) :
    renderLines style level (items.map fun item => ⟨depth, text item⟩) =
      Text.concat (items.map fun item => lineText (style.indent (level + depth)) (text item)) := by
  rw [renderLines, List.map_map]
  simp [Function.comp_def, Line.render_of_ne, h]

theorem renderLines_flatMap {α : Type} (lines : α → List Line) (items : List α) :
    renderLines style level (items.flatMap lines) =
      Text.concat (items.map fun item => renderLines style level (lines item)) := by
  induction items with
  | nil => rfl
  | cons item items ih => rw [List.flatMap_cons, renderLines_append, ih, List.map_cons, Text.concat]

end Lines

/-! ## Running emissions -/

namespace Emission

@[simp high] theorem run_pure {α : Type} (a : α) (ctx : Context) : (pure a : Emission α).run ctx = (a, ctx) := rfl

@[simp high] theorem run_bind {α β : Type} (x : Emission α) (f : α → Emission β) (ctx : Context) :
    (x >>= f).run ctx = (f (x.run ctx).1).run (x.run ctx).2 := rfl

@[simp high] theorem run_map {α β : Type} (f : α → β) (x : Emission α) (ctx : Context) :
    (f <$> x).run ctx = (f (x.run ctx).1, (x.run ctx).2) := rfl

section Steps

variable (style : IndentStyle) (level : Nat) (noted : List String)

@[simp] theorem run_indent : indent.run ⟨style, level, noted⟩ = (style.indent level, ⟨style, level, noted⟩) := rfl

@[simp] theorem run_innerIndent :
    innerIndent.run ⟨style, level, noted⟩ = (style.indent (level + 1), ⟨style, level, noted⟩) := rfl

@[simp] theorem run_deeper : deeper.run ⟨style, level, noted⟩ = ((), ⟨style, level + 1, noted⟩) := rfl

/-- Coming back from a deeper level. -/
@[simp] theorem run_shallower : shallower.run ⟨style, level + 1, noted⟩ = ((), ⟨style, level, noted⟩) := rfl

@[simp] theorem run_needs (name : String) :
    (needs name).run ⟨style, level, noted⟩ = ((), ⟨style, level, addImport noted name⟩) := rfl

end Steps

theorem run_forM_needs (names : List String) (ctx : Context) :
    (forM names needs).run ctx = ((), { ctx with imports := addImports ctx.imports names }) := by
  induction names generalizing ctx with
  | nil => rfl
  | cons name names ih => exact ih (ctx.needs name)

/-- Writing a type notes the imports of its containers and does nothing else. -/
@[simp] theorem run_type (lang : Language) (shape : Shape) (ctx : Context) :
    (type lang shape).run ctx =
      (lang.typeText shape, { ctx with imports := addImports ctx.imports (lang.typeImports shape) }) := by
  induction shape generalizing ctx with
  | primitive name => rfl
  | reference name => rfl
  | array element ih => simp [type, ih, run_forM_needs, Language.typeText, Language.typeImports, addImports_append]
  | map value ih => simp [type, ih, run_forM_needs, Language.typeText, Language.typeImports, addImports_append]
  | unknown => rfl

/-- What an emission does, a number of levels deeper than its declaration begins: it gives the text of the lines and
notes the imports. -/
def EmitsAt (style : IndentStyle) (level depth : Nat) (x : Emission String) (lines : List Line)
    (imports : List String) : Prop :=
  ∀ noted, x.run ⟨style, level + depth, noted⟩ =
    (renderLines style level lines, ⟨style, level + depth, addImports noted imports⟩)

/-- **Emissions one after the other** give the lines of all. -/
theorem emitsAt_each {style : IndentStyle} {level depth : Nat} {α : Type} {write : α → Emission String}
    {lines : α → List Line} (h : ∀ item, EmitsAt style level depth (write item) (lines item) []) (items : List α) :
    EmitsAt style level depth (each write items) (items.flatMap lines) [] := by
  induction items with
  | nil => exact fun _ => rfl
  | cons item items ih =>
    intro noted
    simp [each, h item noted, ih noted]

end Emission

open Emission

/-- A language whose containers need no imports needs none for any type. -/
theorem Language.typeImports_eq_nil {lang : Language} (hlist : lang.listImports = []) (hmap : lang.mapImports = [])
    (shape : Shape) : lang.typeImports shape = [] := by
  induction shape with
  | primitive name => rfl
  | reference name => rfl
  | array element ih => simp [typeImports, ih, hlist]
  | map value ih => simp [typeImports, ih, hmap]
  | unknown => rfl

/-! ## The emitters -/

section Emitters

variable {style : IndentStyle} {level : Nat} (s : TypeSystem) {d : Definition} {r : Record}
  {values components : List String}

namespace TypeScript

@[simp] theorem typeImports_eq (shape : Shape) : language.typeImports shape = [] :=
  Language.typeImports_eq_nil rfl rfl shape

theorem emitsAt_property (p : Property) : EmitsAt style level 1 (emitProperty p) (propertyLines p) [] := by
  intro noted
  simp [emitProperty, propertyLines, Line.render_of_ne]

theorem emitsAt_record (hd : d.body = .record r) :
    EmitsAt style level 0 (emitRecord s d r) (declaration s d).lines (declaration s d).imports := by
  intro noted
  have hproperties : EmitsAt style level 1 (each emitProperty r.properties) (r.properties.flatMap propertyLines) [] :=
    emitsAt_each emitsAt_property r.properties
  cases hbase : d.base? with
  | none =>
    simp [emitRecord, declaration, bodyLines, hd, hbase, hproperties noted, Line.render_of_ne, String.append_assoc]
  | some parent =>
    simp [emitRecord, declaration, bodyLines, hd, hbase, hproperties noted, Line.render_of_ne, String.append_assoc]

theorem emitsAt_enumeration (hd : d.body = .enumeration values) :
    EmitsAt style level 0 (emitEnumeration d values) (declaration s d).lines (declaration s d).imports := by
  intro noted
  simp [emitEnumeration, declaration, bodyLines, hd, Line.render_of_ne, renderLines_map, String.append_assoc]

theorem emitsAt_union (hd : d.body = .union components) :
    EmitsAt style level 0 (emitUnion d components) (declaration s d).lines (declaration s d).imports := by
  intro noted
  simp [emitUnion, declaration, bodyLines, hd, Line.render_of_ne]

end TypeScript

namespace Kotlin

@[simp] theorem typeImports_eq (shape : Shape) : language.typeImports shape = [] :=
  Language.typeImports_eq_nil rfl rfl shape

theorem emitsAt_property (p : Property) :
    EmitsAt style level 1 (emitProperty (style.indent (level + 1)) p) (propertyLines p) [] := by
  intro noted
  simp [emitProperty, propertyLines, Line.render_of_ne]

/-- A class without fields is written without going deeper, and others come back from there. -/
theorem emitsAt_record (hd : d.body = .record r) :
    EmitsAt style level 0 (emitRecord s d r) (declaration s d).lines (declaration s d).imports := by
  intro noted
  by_cases hempty : r.properties.isEmpty = true
  · simp [emitRecord, declaration, bodyLines, hd, hempty, Definition.isEnumeration, Line.render_of_ne,
      String.append_assoc]
  · have hfields : EmitsAt style level 1 (each (emitProperty (style.indent (level + 1))) r.properties)
        (r.properties.flatMap propertyLines) [] :=
      emitsAt_each emitsAt_property r.properties
    simp [emitRecord, declaration, bodyLines, hd, hempty, hfields (addImport noted serializable),
      Definition.isEnumeration, Line.render_of_ne, String.append_assoc]

theorem emitsAt_enumeration (hd : d.body = .enumeration values) :
    EmitsAt style level 0 (emitEnumeration d values) (declaration s d).lines (declaration s d).imports := by
  intro noted
  simp [emitEnumeration, declaration, bodyLines, hd, Definition.isEnumeration, Line.render_of_ne, renderLines_flatMap,
    memberText, String.append_assoc]

theorem emitsAt_union (hd : d.body = .union components) :
    EmitsAt style level 0 (emitUnion d components) (declaration s d).lines (declaration s d).imports := by
  intro noted
  simp [emitUnion, declaration, bodyLines, hd, Definition.isEnumeration, Line.render_of_ne, String.append_assoc]

end Kotlin

namespace Java

theorem emitsAt_property (last : Bool) (p : Property) :
    EmitsAt style level 1 (emitProperty (style.indent (level + 1)) last p) (propertyLines last p)
      (propertyImports p) := by
  intro noted
  cases hrequired : p.required with
  | true => simp [emitProperty, propertyLines, propertyImports, hrequired, Line.render_of_ne]
  | false => simp [emitProperty, propertyLines, propertyImports, hrequired, Line.render_of_ne, addImports_append]

theorem emitsAt_components : ∀ properties : List Property,
    EmitsAt style level 1 (emitComponents (style.indent (level + 1)) properties) (componentLines properties)
      (properties.flatMap propertyImports)
  | [] => fun _ => rfl
  | [p] => by
    rw [List.flatMap_singleton]
    exact emitsAt_property true p
  | p :: next :: rest => by
    intro noted
    have hfirst : EmitsAt style level 1 (emitProperty (style.indent (level + 1)) false p) (propertyLines false p)
        (propertyImports p) := emitsAt_property false p
    have hrest := emitsAt_components (next :: rest)
    simp [emitComponents, componentLines, hfirst noted, hrest _, addImports_append]

/-- The lines that a record begins with, up to its brace. -/
def headLines (d : Definition) (r : Record) (tail : String) : List Line :=
  if r.properties.isEmpty then [⟨0, "public record " ++ d.name ++ "()" ++ tail⟩]
  else ⟨0, "public record " ++ d.name ++ "("⟩ :: componentLines r.properties ++ [⟨0, ")" ++ tail⟩]

/-- The line that stands in a record for its parent. -/
def noteLines (d : Definition) : List Line :=
  d.base?.elim [] fun parent => [⟨1, "// Records cannot extend " ++ parent ++ "; add its members here by hand."⟩]

theorem bodyLines_record (hd : d.body = .record r) :
    bodyLines s d = headLines d r (recordTail s d) ++ noteLines d ++ [⟨0, "\x7d"⟩] := by
  rw [bodyLines, hd, headLines, noteLines]
  cases d.base? with
  | none => rfl
  | some parent => rfl

/-- What is written up to the bracket behind the components, with what follows in that line. -/
theorem run_componentList (style : IndentStyle) (level : Nat) (noted : List String) (hd : d.body = .record r) :
    ∃ text, (emitComponentList (style.indent level) d r).run ⟨style, level, noted⟩ =
        (text, ⟨style, level, addImports noted (imports d)⟩) ∧
      ∀ tail, renderLines style level (headLines d r tail) = text ++ tail ++ "\n" := by
  by_cases hempty : r.properties.isEmpty = true
  · refine ⟨style.indent level ++ "public record " ++ d.name ++ "()", ?_, fun tail => ?_⟩
    · simp [emitComponentList, imports, hd, hempty]
    · simp [headLines, hempty, Line.render_of_ne, lineText, String.append_assoc]
  · have hcomponents : EmitsAt style level 1 (emitComponents (style.indent (level + 1)) r.properties)
        (componentLines r.properties) (r.properties.flatMap propertyImports) := emitsAt_components r.properties
    refine ⟨lineText (style.indent level) ("public record " ++ d.name ++ "(") ++
      renderLines style level (componentLines r.properties) ++ style.indent level ++ ")", ?_, fun tail => ?_⟩
    · simp [emitComponentList, imports, hd, hempty, hcomponents (addImport noted jsonProperty)]
    · simp [headLines, hempty, Line.render_of_ne, lineText, String.append_assoc]

theorem emitsAt_parentNote (d : Definition) : EmitsAt style level 0 (emitParentNote d) (noteLines d) [] := by
  intro noted
  cases hbase : d.base? with
  | none => simp [emitParentNote, noteLines, hbase]
  | some parent => simp [emitParentNote, noteLines, hbase, Line.render_of_ne]

theorem emitsAt_record (hd : d.body = .record r) :
    EmitsAt style level 0 (emitRecord s d r) (declaration s d).lines (declaration s d).imports := by
  intro noted
  obtain ⟨text, hrun, htext⟩ := run_componentList style level noted hd
  have hnote : EmitsAt style level 0 (emitParentNote d) (noteLines d) [] := emitsAt_parentNote d
  have hafter := hnote (addImports noted (imports d))
  rw [Nat.add_zero] at hafter
  simp [emitRecord, declaration, bodyLines_record s hd, hrun, htext, hafter, Line.render_of_ne, String.append_assoc]

theorem emitsAt_enumeration (hd : d.body = .enumeration values) :
    EmitsAt style level 0 (emitEnumeration d values) (declaration s d).lines (declaration s d).imports := by
  intro noted
  cases hempty : values.isEmpty with
  | true =>
    simp [emitEnumeration, declaration, bodyLines, imports, hd, hempty, Line.render_of_ne, renderLines_flatMap,
      memberText, String.append_assoc]
  | false =>
    simp [emitEnumeration, declaration, bodyLines, imports, hd, hempty, Line.render_of_ne, renderLines_flatMap,
      memberText, String.append_assoc]

theorem emitsAt_union (hd : d.body = .union components) :
    EmitsAt style level 0 (emitUnion d components) (declaration s d).lines (declaration s d).imports := by
  intro noted
  cases components with
  | nil => simp [emitUnion, declaration, bodyLines, imports, hd, Line.render_of_ne, String.append_assoc]
  | cons component components =>
    simp [emitUnion, declaration, bodyLines, imports, hd, Line.render_of_ne, String.append_assoc]

end Java

namespace CSharp

@[simp] theorem typeImports_eq (shape : Shape) : language.typeImports shape = [] :=
  Language.typeImports_eq_nil rfl rfl shape

theorem emitsAt_property (p : Property) : EmitsAt style level 1 (emitProperty p) (propertyLines p) [] := by
  intro noted
  cases hrequired : p.required with
  | true => simp [emitProperty, propertyLines, hrequired, Line.render_of_ne, String.append_assoc]
  | false =>
    cases hvalue : isValueType p.shape with
    | true => simp [emitProperty, propertyLines, hrequired, hvalue, Line.render_of_ne, String.append_assoc]
    | false => simp [emitProperty, propertyLines, hrequired, hvalue, Line.render_of_ne, String.append_assoc]

theorem emitsAt_properties : ∀ properties : List Property,
    EmitsAt style level 1 (emitProperties properties) (memberLines properties) []
  | [] => fun _ => rfl
  | [p] => emitsAt_property p
  | p :: next :: rest => by
    intro noted
    have hfirst : EmitsAt style level 1 (emitProperty p) (propertyLines p) [] := emitsAt_property p
    have hrest := emitsAt_properties (next :: rest)
    simp [emitProperties, memberLines, hfirst noted, hrest noted, String.append_assoc]

theorem emitsAt_record (hd : d.body = .record r) :
    EmitsAt style level 0 (emitRecord s d r) (declaration s d).lines (declaration s d).imports := by
  intro noted
  have hproperties : EmitsAt style level 1 (emitProperties r.properties) (memberLines r.properties) [] :=
    emitsAt_properties r.properties
  simp [emitRecord, declaration, bodyLines, hd, hproperties noted, Line.render_of_ne, String.append_assoc]

theorem emitsAt_enumeration (hd : d.body = .enumeration values) :
    EmitsAt style level 0 (emitEnumeration d values) (declaration s d).lines (declaration s d).imports := by
  intro noted
  simp [emitEnumeration, declaration, bodyLines, hd, Line.render_of_ne, renderLines_flatMap, memberText,
    String.append_assoc]

theorem emitsAt_union (hd : d.body = .union components) :
    EmitsAt style level 0 (emitUnion d components) (declaration s d).lines (declaration s d).imports := by
  intro noted
  simp [emitUnion, declaration, bodyLines, hd, Line.render_of_ne, String.append_assoc]

end CSharp

/-- **An emitter writes its declaration.** It gives the text of its lines at the level of the context, notes its imports
and leaves the context as it was otherwise. -/
theorem Target.run_definition (target : Target) (s : TypeSystem) (d : Definition) (ctx : Context) :
    (target.emitter.definition s d).run ctx = ctx.emit (target.declaration s d) := by
  obtain ⟨style, level, noted⟩ := ctx
  unfold Emitter.definition
  cases hd : d.body with
  | record r =>
    cases target with
    | typeScript => exact TypeScript.emitsAt_record s hd noted
    | kotlin => exact Kotlin.emitsAt_record s hd noted
    | java => exact Java.emitsAt_record s hd noted
    | cSharp => exact CSharp.emitsAt_record s hd noted
  | enumeration values =>
    cases target with
    | typeScript => exact TypeScript.emitsAt_enumeration s hd noted
    | kotlin => exact Kotlin.emitsAt_enumeration s hd noted
    | java => exact Java.emitsAt_enumeration s hd noted
    | cSharp => exact CSharp.emitsAt_enumeration s hd noted
  | union components =>
    cases target with
    | typeScript => exact TypeScript.emitsAt_union s hd noted
    | kotlin => exact Kotlin.emitsAt_union s hd noted
    | java => exact Java.emitsAt_union s hd noted
    | cSharp => exact CSharp.emitsAt_union s hd noted

end Emitters

/-! ## Declarations one after the other -/

namespace Target

/-- The text of a declaration that is written alone, in a fresh context at a level. -/
def alone (target : Target) (s : TypeSystem) (style : IndentStyle) (level : Nat) (d : Definition) : String :=
  ((target.emitter.definition s d).run { style, level }).1

theorem alone_eq (target : Target) (s : TypeSystem) (style : IndentStyle) (level : Nat) (d : Definition) :
    target.alone s style level d = renderLines style level (target.declaration s d).lines := by
  rw [alone, run_definition]
  rfl

/-- **A run over several definitions** gives each the text that it has alone, and notes the imports of all. -/
theorem run_definitions (target : Target) (s : TypeSystem) (ds : List Definition) (ctx : Context) :
    (ds.mapM (target.emitter.definition s)).run ctx =
      (ds.map (target.alone s ctx.style ctx.level),
        { ctx with
          imports := ds.foldl (fun noted d => addImports noted (target.declaration s d).imports) ctx.imports }) := by
  induction ds generalizing ctx with
  | nil => rfl
  | cons d ds ih => simp [run_definition, Context.emit, ih, alone_eq]

/-- The level at which the declarations of a file stand. -/
def fileLevel : Target → Nat
  | .cSharp => 1
  | .typeScript | .kotlin | .java => 0

/-- What stands in a file before its declarations. -/
def opening (target : Target) (package : Option String) (imports : List String) : String :=
  "// Code generated by typegen. DO NOT EDIT.\n" ++
    match target with
    | .typeScript => package.elim "" fun name => "// Namespace: " ++ name ++ "\n"
    | .kotlin => (package.elim "" fun name => "package " ++ name ++ "\n") ++ importBlock "" imports
    | .java => "package " ++ package.getD "com.example.models" ++ ";\n" ++ importBlock ";" imports
    | .cSharp => "#nullable enable\n\n" ++
      "using System;\nusing System.Collections.Generic;\nusing System.Text.Json.Serialization;\n" ++
        "\nnamespace " ++ package.getD "Models" ++ "\n\x7b\n"

theorem opening_typeScript (package : Option String) (imports : List String) :
    typeScript.opening package imports =
      fileHeader ++ package.elim "" fun name => "// Namespace: " ++ name ++ "\n" := rfl

theorem opening_kotlin (package : Option String) (imports : List String) :
    kotlin.opening package imports =
      fileHeader ++ (package.elim "" fun name => "package " ++ name ++ "\n") ++ Kotlin.importLines imports := by
  rw [Kotlin.importLines_eq, String.append_assoc]
  rfl

/-- Declarations with empty lines between them, and before the first where a file has no braces around them. -/
def separated : Target → List String → String
  | .cSharp, texts => Text.joinWith "\n" texts
  | .typeScript, texts | .kotlin, texts | .java, texts => Text.concat (texts.map ("\n" ++ ·))

/-- What stands in a file behind its declarations. -/
def closing : Target → String
  | .cSharp => "\x7d\n"
  | .typeScript | .kotlin | .java => ""

/-- The texts of definitions that are written for one file, and the context that is left. -/
def fileRun (target : Target) (s : TypeSystem) (ds : List Definition) : List String × Context :=
  (ds.mapM (target.emitter.definition s)).run { style := target.language.style, level := target.fileLevel }

/-- The imports that are taken out of the context of a file at its end. -/
def takenImports (target : Target) (s : TypeSystem) (ds : List Definition) : List String :=
  (target.fileRun s ds).2.takeImports.1

theorem fileRun_eq (target : Target) (s : TypeSystem) (ds : List Definition) :
    (target.fileRun s ds).1 = ds.map (target.alone s target.language.style target.fileLevel) := by
  rw [fileRun, run_definitions]

theorem takenImports_eq (target : Target) (s : TypeSystem) (ds : List Definition) :
    target.takenImports s ds =
      sortTexts (ds.foldl (fun noted d => addImports noted (target.declaration s d).imports) []) := by
  rw [takenImports, fileRun, run_definitions]
  rfl

theorem declarationText_eq (target : Target) (s : TypeSystem) (d : Definition) :
    target.declarationText s d = target.alone s target.language.style target.fileLevel d := by
  rw [alone_eq]
  cases target with
  | typeScript => rfl
  | kotlin => rfl
  | java => rfl
  | cSharp => rfl

/-- **A combined file** is what its definitions give when they are written in one context. -/
theorem generate_combined (target : Target) (s : TypeSystem) (policy : ComponentPolicy)
    (h : target.layout = .combined) :
    ∃ name, target.generate s policy = ⟨[(name,
      target.opening s.package (target.takenImports s (target.language.eligible policy s)) ++
        target.separated (target.fileRun s (target.language.eligible policy s)).1 ++ target.closing)]⟩ := by
  have htext : target.declarationText s = target.alone s target.language.style target.fileLevel :=
    funext (target.declarationText_eq s)
  rw [takenImports_eq, fileRun_eq, ← htext]
  cases target with
  | typeScript =>
    refine ⟨"types.ts", ?_⟩
    rw [opening_typeScript]
    cases hpackage : s.package with
    | none => simp [generate, TypeScript.generate, TypeScript.fileContent, hpackage, separated, closing,
        declarationText, language, Function.comp_def]
    | some name => simp [generate, TypeScript.generate, TypeScript.fileContent, hpackage, separated, closing,
        declarationText, language, Function.comp_def]
  | kotlin =>
    refine ⟨"Types.kt", ?_⟩
    rw [opening_kotlin]
    cases hpackage : s.package with
    | none => simp [generate, Kotlin.generate, Kotlin.fileContent, Kotlin.fileImports, Kotlin.fileBody, hpackage,
        separated, closing, declaration, declarationText, language, Function.comp_def]
    | some name => simp [generate, Kotlin.generate, Kotlin.fileContent, Kotlin.fileImports, Kotlin.fileBody, hpackage,
        separated, closing, declaration, declarationText, language, Function.comp_def]
  | java => cases h
  | cSharp => exact ⟨"Types.cs", rfl⟩

end Target

/-- **Declarations do not interfere through the context.** Whatever the context is, an emitter leaves the level and the
style as they were and takes no import away, and its text is the same in every context of that level and style. So
definitions that are written one after the other have the texts that they have alone, and the declarations of a combined
file are these texts in order, with what separates them. -/
theorem declarations_do_not_interfere (target : Target) (s : TypeSystem) :
    (∀ (d : Definition) (ctx : Context),
      ((target.emitter.definition s d).run ctx).2.level = ctx.level ∧
      ((target.emitter.definition s d).run ctx).2.style = ctx.style ∧
      ctx.imports <+: ((target.emitter.definition s d).run ctx).2.imports ∧
      ∀ ctx' : Context, ctx'.level = ctx.level → ctx'.style = ctx.style →
        ((target.emitter.definition s d).run ctx').1 = ((target.emitter.definition s d).run ctx).1) ∧
    (∀ (ds : List Definition) (ctx : Context), ((ds.mapM (target.emitter.definition s)).run ctx).1 =
      ds.map (target.alone s ctx.style ctx.level)) ∧
    ∀ policy, target.layout = .combined → ∃ name, target.generate s policy = ⟨[(name,
      target.opening s.package (target.takenImports s (target.language.eligible policy s)) ++
        target.separated ((target.language.eligible policy s).map
          (target.alone s target.language.style target.fileLevel)) ++ target.closing)]⟩ := by
  refine ⟨fun d ctx => ?_, fun ds ctx => ?_, fun policy hlayout => ?_⟩
  · rw [target.run_definition]
    refine ⟨rfl, rfl, prefix_addImports _ _, fun ctx' hlevel hstyle => ?_⟩
    rw [target.run_definition]
    simp only [Context.emit, hlevel, hstyle]
  · rw [target.run_definitions]
  · rw [← target.fileRun_eq]
    exact target.generate_combined s policy hlayout

/-- A union with a component that has no fields, a record that has one, and an enumeration. -/
def kennel : TypeSystem :=
  .ofDefinitions none [.union "Pet" ["Dog"], .record "Dog" [],
    (Definition.record "Owner" [⟨"pets", .array (.reference "Pet"), false, some "All pets"⟩]).describe "Keeps pets",
    .enumeration "Mood" ["calm"]]

theorem declarations_do_not_interfere_kennel :
    let owner := (Definition.record "Owner" [⟨"pets", .array (.reference "Pet"), false, some "All pets"⟩]).describe
      "Keeps pets"
    let ctx : Context := ⟨.tabs, 2, [Kotlin.serialName]⟩
    ((Target.kotlin.emitter.definition kennel owner).run ctx).1 = "\t\t/** Keeps pets */\n\t\t@Serializable\n" ++
      "\t\tdata class Owner(\n\t\t\t/** All pets */\n\t\t\tval pets: List<Pet>? = null,\n\t\t)\n" ∧
    ((Target.kotlin.emitter.definition kennel owner).run ⟨.tabs, 2, []⟩).1 =
      ((Target.kotlin.emitter.definition kennel owner).run ctx).1 ∧
    Target.kotlin.layout = .combined ∧
    ∃ name, Target.kotlin.generate kennel .usual = ⟨[(name,
      Target.kotlin.opening none [Kotlin.serialName, Kotlin.serializable] ++
        Target.kotlin.separated ((Kotlin.language.eligible .usual kennel).map
          (Target.kotlin.alone kennel (.spaces 4) 0)) ++ "")]⟩ := by
  intro owner ctx
  have h := declarations_do_not_interfere .kotlin kennel
  have hsame := (h.1 owner ctx).2.2.2 ⟨.tabs, 2, []⟩ rfl rfl
  refine ⟨hsame.symm.trans rfl, hsame, rfl, ?_⟩
  have himports : Target.kotlin.takenImports kennel (Kotlin.language.eligible .usual kennel) =
      [Kotlin.serialName, Kotlin.serializable] := by rfl
  rw [← himports]
  exact h.2.2 .usual rfl

end TypeBindings
