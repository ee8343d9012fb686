import TypeBindings.Proofs.DeclarationTexts
import TypeBindings.Proofs.Emissions
import TypeBindings.Proofs.EnumMembers
import TypeBindings.Proofs.FieldNames

/-!
# Indentation

Lines without line feeds are written deeper by putting indentation before those that are not empty
(`OneLines.renderLines_eq`). Whatever its description is, a declaration has only such lines if there is no line feed
in the names that are written in it: its own (`Definition.OneLine`), and that of the union which a mere component
extends (`Target.ownerName?`). Then an emitter writes at every level what it writes at the outermost, indented
(`emitted_deeper`). The name of the union is not part of the definition, and a line feed in it is not indented
(`owner_with_line_feed`).
-/

namespace TypeBindings

namespace Text

/-! ## Texts of one line -/

/-- A text without line feeds. -/
def OneLine (text : String) : Prop :=
  '\n' ∉ text.toList

instance (text : String) : Decidable (OneLine text) :=
  inferInstanceAs (Decidable ('\n' ∉ text.toList))

@[simp] theorem oneLine_append_iff {a b : String} : OneLine (a ++ b) ↔ OneLine a ∧ OneLine b := by
  simp [OneLine]

theorem oneLine_of_isIdentifier {text : String} (h : isIdentifier text = true) : OneLine text :=
  not_mem_of_isIdentifier h (by decide)

theorem oneLine_joinWith {sep : String} (hsep : OneLine sep) {texts : List String} (h : ∀ text ∈ texts, OneLine text) :
    OneLine (joinWith sep texts) := by
  intro hmem
  rcases mem_of_mem_joinWith hmem with hmem | ⟨text, htext, hmem⟩
  · exact hsep hmem
  · exact h text htext hmem

theorem oneLine_trim {text : String} (h : OneLine text) : OneLine (trim text) := by
  intro hmem
  rw [trim, String.toList_ofList] at hmem
  exact h (mem_of_mem_dropBlankEnds hmem)

theorem oneLine_doubleQuoted (value : String) : OneLine (Literal.doubleQuoted value) := by
  have hvalue : ∀ c ∈ value.toList, '\n' ∉ Literal.escapeDouble c :=
    fun c _ => Literal.not_mem_escapeDouble (by decide) c
  simpa [OneLine, Literal.doubleQuoted] using hvalue

/-! ## Putting indentation before lines -/

/-- A text with an indentation before every line that is not empty. -/
def indentLines (indent text : String) : String :=
  joinWith "\n" ((splitAt '\n' text).map fun line => if line.isEmpty then line else indent ++ line)

theorem joinWith_concat_empty (texts : List String) :
    joinWith "\n" (texts ++ [""]) = concat (texts.map (· ++ "\n")) := by
  induction texts with
  | nil => rfl
  | cons text texts ih =>
    have hcons : joinWith "\n" (text :: (texts ++ [""])) = text ++ "\n" ++ joinWith "\n" (texts ++ [""]) := by
      cases texts with
      | nil => rfl
      | cons next texts => rfl
    rw [List.cons_append, hcons, ih, List.map_cons, concat]

/-- Lines that each end in a line feed are indented one by one. -/
theorem indentLines_concat (indent : String) {texts : List String} (h : ∀ text ∈ texts, OneLine text) :
    indentLines indent (concat (texts.map (· ++ "\n"))) =
      concat ((texts.map fun line => if line.isEmpty then line else indent ++ line).map (· ++ "\n")) := by
  have hlines : splitAt '\n' (concat (texts.map (· ++ "\n"))) = texts ++ [""] := by
    rw [splitAt, pieces_concat_lines h, List.map_append, List.map_map]
    simp [Function.comp_def]
  rw [indentLines, hlines, List.map_append, ← joinWith_concat_empty]
  rfl

end Text

open Text (OneLine)

theorem IndentStyle.indent_add (style : IndentStyle) (level more : Nat) :
    style.indent (level + more) = style.indent level ++ style.indent more := by
  cases style with
  | spaces width => rw [indent, indent, indent, Nat.add_mul, List.replicate_add, String.ofList_append]
  | tabs => rw [indent, indent, indent, List.replicate_add, String.ofList_append]

/-- A line that is not empty is written deeper by putting the indentation of the level before it. -/
theorem Line.shown_deeper (style : IndentStyle) (level : Nat) (line : Line) :
    line.shown style level =
      if (line.shown style 0).isEmpty then line.shown style 0 else style.indent level ++ line.shown style 0 := by
  by_cases h : line.text.isEmpty = true
  · simp [shown, h]
  · have hne : line.text ≠ "" := fun htext => h (String.isEmpty_iff.2 htext)
    simp [shown, hne, style.indent_add level, String.append_assoc]

/-- No line has a line feed in it. -/
def OneLines (lines : List Line) : Prop :=
  ∀ line ∈ lines, OneLine line.text

@[simp] theorem oneLines_nil : OneLines [] :=
  List.forall_mem_nil _

@[simp] theorem oneLines_cons_iff {line : Line} {lines : List Line} :
    OneLines (line :: lines) ↔ OneLine line.text ∧ OneLines lines :=
  List.forall_mem_cons

@[simp] theorem oneLines_append_iff {lines more : List Line} :
    OneLines (lines ++ more) ↔ OneLines lines ∧ OneLines more :=
  List.forall_mem_append

theorem oneLines_flatMap {α : Type} {lines : α → List Line} {items : List α}
    (h : ∀ item ∈ items, OneLines (lines item)) : OneLines (items.flatMap lines) := by
  intro line hline
  obtain ⟨item, hitem, hmem⟩ := List.mem_flatMap.1 hline
  exact h item hitem line hmem

/-- **Lines are written deeper by indenting their text.** -/
theorem OneLines.renderLines_eq {lines : List Line} (h : OneLines lines) (style : IndentStyle) (level : Nat) :
    renderLines style level lines = Text.indentLines (style.indent level) (renderLines style 0 lines) := by
  have hrender : ∀ level, renderLines style level lines =
      Text.concat ((lines.map (Line.shown style level)).map (· ++ "\n")) := by
    intro level
    rw [renderLines, List.map_map]
    exact congrArg Text.concat (List.map_congr_left fun line _ => line.render_eq style level)
  have honeLine : ∀ text ∈ lines.map (Line.shown style 0), OneLine text :=
    List.forall_mem_map.2 fun line hline => line.not_feed_shown style 0 (h line hline)
  -- what is left is a law of single lines: deeper is behind the indentation of the level
  rw [hrender level, hrender 0, Text.indentLines_concat _ honeLine]
  congr 2
  rw [List.map_map]
  exact List.map_congr_left fun line _ => line.shown_deeper style level

/-! ## What declarations are made of -/

theorem oneLines_documented {comment : String → List String}
    (h : ∀ description, ∀ line ∈ comment description, OneLine line) (depth : Nat) (description : Option String) :
    OneLines (documented comment depth description) := by
  cases description with
  | none => exact oneLines_nil
  | some text => exact List.forall_mem_map.2 (h text)

@[simp] theorem oneLines_block (depth : Nat) (description : Option String) :
    OneLines (documented Comment.block depth description) :=
  oneLines_documented (fun _ _ => Comment.not_mem_of_mem_block) depth description

@[simp] theorem oneLines_summary (depth : Nat) (description : Option String) :
    OneLines (documented Comment.summary depth description) :=
  oneLines_documented (fun _ _ hline => (Comment.not_mem_of_mem_summary hline).1) depth description

theorem oneLines_valueLines {tag : String → String} (htag : ∀ value, OneLine (tag value)) (values : List String)
    {names : List String} (hnames : ∀ name ∈ names, Text.isIdentifier name = true) :
    OneLines (valueLines tag values names) := by
  refine oneLines_flatMap fun member hmember => ?_
  have hname := Text.oneLine_of_isIdentifier (hnames _ (List.of_mem_zip hmember).2)
  simp +decide [htag, hname]

/-- The text that names the parent of a record. -/
def Definition.parent? (d : Definition) : Option String :=
  match d.body with
  | .record r => r.parent
  | _ => none

/-- A property whose name and type have no line feed in them. Its description may have some. -/
structure Property.OneLine (p : Property) : Prop where
  name : Text.OneLine p.name
  leaf : ∀ name ∈ p.shape.leafName?, Text.OneLine name

instance (p : Property) : Decidable p.OneLine :=
  decidable_of_iff (Text.OneLine p.name ∧ ∀ name ∈ p.shape.leafName?, Text.OneLine name)
    ⟨fun h => ⟨h.1, h.2⟩, fun h => ⟨h.1, h.2⟩⟩

/-- No name in a definition has a line feed in it. Its description may have some. -/
structure Definition.OneLine (d : Definition) : Prop where
  name : Text.OneLine d.name
  parent : ∀ parent ∈ d.parent?, Text.OneLine parent
  property : ∀ p ∈ d.properties, p.OneLine
  value : ∀ value ∈ d.values, Text.OneLine value
  component : ∀ component ∈ d.components, Text.OneLine component

instance (d : Definition) : Decidable d.OneLine :=
  decidable_of_iff (Text.OneLine d.name ∧ (∀ parent ∈ d.parent?, Text.OneLine parent) ∧
      (∀ p ∈ d.properties, p.OneLine) ∧ (∀ value ∈ d.values, Text.OneLine value) ∧
      ∀ component ∈ d.components, Text.OneLine component)
    ⟨fun h => ⟨h.1, h.2.1, h.2.2.1, h.2.2.2.1, h.2.2.2.2⟩, fun h => ⟨h.1, h.2, h.3, h.4, h.5⟩⟩

/-- The name of the union that is written behind the name of a mere component, if the language writes one there. -/
def Target.ownerName? (target : Target) (s : TypeSystem) (d : Definition) : Option String :=
  match target with
  | .typeScript => none
  | .java => owner? s d
  | .kotlin | .cSharp => if d.base?.isSome then none else owner? s d

theorem Definition.OneLine.base {d : Definition} (h : d.OneLine) : ∀ parent ∈ d.base?, Text.OneLine parent := by
  intro parent hparent
  have hparents := h.parent
  unfold base? at hparent
  unfold parent? at hparents
  cases hbody : d.body with
  | record r =>
    simp only [hbody] at hparent hparents
    obtain ⟨text, htext, hname⟩ := Option.bind_eq_some_iff.1 hparent
    have htrim : parent = Text.trim text := by
      simp only [Option.ite_none_left_eq_some, Option.some.injEq] at hname
      exact hname.2.symm
    rw [htrim]
    exact Text.oneLine_trim (hparents text htext)
  | enumeration values => simp [hbody] at hparent
  | union components => simp [hbody] at hparent

theorem Definition.OneLine.of_mem {d : Definition} (h : d.OneLine) {r : Record} (hd : d.body = .record r) :
    ∀ p ∈ r.properties, p.OneLine := by
  have hproperties : d.properties = r.properties := by rw [properties, hd]
  rw [← hproperties]
  exact h.property

/-- The text behind the name of a record, which says what the record extends: its parent, or else its union. -/
theorem Definition.OneLine.behindName {d : Definition} (h : d.OneLine) {s : TypeSystem}
    (howner : ∀ name ∈ (if d.base?.isSome then none else owner? s d), Text.OneLine name) (text : Option String → String)
    (hnone : Text.OneLine (text none)) (hsome : ∀ name, Text.OneLine name → Text.OneLine (text (some name))) :
    Text.OneLine (text (d.base?.or (owner? s d))) := by
  cases hparent : d.base? with
  | some parent => exact hsome parent (h.base parent hparent)
  | none =>
    rw [hparent] at howner
    cases hunion : owner? s d with
    | some union => exact hsome union (howner union hunion)
    | none => exact hnone

namespace TypeScript

variable {d : Definition}

theorem oneLine_key {name : String} (h : OneLine name) : OneLine (key name) := by
  unfold key
  split
  · exact h
  · exact not_feed_singleQuoted h

theorem oneLines_propertyLines {p : Property} (h : p.OneLine) : OneLines (propertyLines p) := by
  have hkey := oneLine_key h.name
  have htype : OneLine (language.typeText p.shape) := Target.not_feed_typeText .typeScript h.leaf
  cases hrequired : p.required <;> simp +decide [propertyLines, hrequired, hkey, htype]

theorem oneLines_declaration (s : TypeSystem) (h : d.OneLine) : OneLines (declaration s d).lines := by
  have hname := h.name
  cases hbody : d.body with
  | record r =>
    have hproperties : OneLines (r.properties.flatMap propertyLines) :=
      oneLines_flatMap fun p hp => oneLines_propertyLines (h.of_mem hbody p hp)
    have hbase := h.base
    rw [lines_record s hbody, recordLines, fieldLines_fieldNames]
    cases hparent : d.base? with
    | none => simp +decide [hname, hproperties]
    | some parent => simp +decide [hname, hproperties, hbase parent hparent]
  | enumeration values =>
    have hvalue := h.value
    rw [Definition.values, hbody] at hvalue
    have hmembers : OneLines (values.map fun value =>
        ⟨1, key value ++ " = " ++ Literal.singleQuoted value ++ ","⟩) := by
      refine List.forall_mem_map.2 fun value hmem => ?_
      have hquoted : OneLine (Literal.singleQuoted value) := not_feed_singleQuoted (hvalue value hmem)
      simp +decide [oneLine_key (hvalue value hmem), hquoted]
    simp +decide [declaration, bodyLines, hbody, hname, hmembers]
  | union components =>
    have hcomponent := h.component
    rw [Definition.components, hbody] at hcomponent
    have hjoined : OneLine (Text.joinWith " | " components) := Text.oneLine_joinWith (by decide) hcomponent
    cases hempty : components.isEmpty with
    | true => simp +decide [declaration, bodyLines, hbody, hname, hempty, language]
    | false => simp +decide [declaration, bodyLines, hbody, hname, hempty, hjoined]

end TypeScript

namespace Kotlin

variable {d : Definition}

theorem oneLine_fieldName {name : String} (h : OneLine name) : OneLine (fieldName name) := by
  unfold fieldName
  split
  · exact h
  · simp +decide [h]

theorem oneLines_propertyLines {p : Property} (h : p.OneLine) : OneLines (propertyLines p) := by
  have hname := oneLine_fieldName h.name
  have htype : OneLine (language.typeText p.shape) := Target.not_feed_typeText .kotlin h.leaf
  cases hrequired : p.required <;> simp +decide [propertyLines, hrequired, hname, htype]

theorem oneLines_declaration (s : TypeSystem) (h : d.OneLine)
    (howner : ∀ name ∈ Target.kotlin.ownerName? s d, OneLine name) : OneLines (declaration s d).lines := by
  have hname := h.name
  cases hbody : d.body with
  | record r =>
    have hproperties : OneLines (r.properties.flatMap propertyLines) :=
      oneLines_flatMap fun p hp => oneLines_propertyLines (h.of_mem hbody p hp)
    have hextension : OneLine (extension s d) :=
      h.behindName howner (fun name? => name?.elim "" fun name => " : " ++ name ++ "()") (by decide)
        fun name hname => by simp +decide [hname]
    rw [lines_record s hbody, recordLines, fieldLines_fieldNames]
    split <;> simp +decide [hname, hproperties, hextension]
  | enumeration values =>
    have htag : ∀ value, OneLine ("@SerialName(" ++ Literal.doubleQuoted value ++ ")") :=
      fun value => by simp +decide [Text.oneLine_doubleQuoted]
    have hnames : ∀ name ∈ enumNames values, Text.isIdentifier name = true :=
      fun name hmem => Text.isIdentifier_of_isWord (legal_of_mem_enumNames values name hmem).1
    have hvalues := oneLines_valueLines htag values hnames
    rw [lines_enumeration s hbody, enumLines]
    simp +decide [hname, hvalues]
  | union components => simp +decide [declaration, bodyLines, hbody, hname]

end Kotlin

namespace Java

variable {d : Definition}

theorem oneLines_propertyLines {p : Property} (h : p.OneLine) (last : Bool) : OneLines (propertyLines last p) := by
  have hname := Text.oneLine_of_isIdentifier (isPlainName_iff.1 (isPlainName_componentName p.name)).1
  have htype : OneLine (language.typeText p.shape) := Target.not_feed_typeText .java h.leaf
  cases hrequired : p.required <;> cases last <;>
    simp +decide [propertyLines, hrequired, hname, htype, Text.oneLine_doubleQuoted]

theorem oneLines_componentLines {properties : List Property} (h : ∀ p ∈ properties, p.OneLine) :
    OneLines (componentLines properties) := by
  fun_induction componentLines properties with
  | case1 => exact oneLines_nil
  | case2 p => exact oneLines_propertyLines (h p List.mem_cons_self) true
  | case3 p rest _ ih =>
    obtain ⟨hp, hrest⟩ := List.forall_mem_cons.1 h
    exact oneLines_append_iff.2 ⟨oneLines_propertyLines hp false, ih hrest⟩

theorem oneLine_recordTail (s : TypeSystem) (howner : ∀ name ∈ Target.java.ownerName? s d, OneLine name) :
    OneLine (recordTail s d) := by
  unfold recordTail
  split
  · rename_i union hsome
    simp +decide [howner union hsome]
  · decide

theorem oneLines_noteLines (h : d.OneLine) : OneLines (noteLines d) := by
  have hbase := h.base
  unfold noteLines
  cases hparent : d.base? with
  | none => exact oneLines_nil
  | some parent => simp +decide [hbase parent hparent]

theorem oneLines_declaration (s : TypeSystem) (h : d.OneLine)
    (howner : ∀ name ∈ Target.java.ownerName? s d, OneLine name) : OneLines (declaration s d).lines := by
  have hname := h.name
  cases hbody : d.body with
  | record r =>
    have hcomponents := oneLines_componentLines (h.of_mem hbody)
    have htail := oneLine_recordTail s howner
    have hhead : OneLines (headLines d r (recordTail s d)) := by
      unfold headLines
      split <;> simp +decide [hname, hcomponents, htail]
    simp +decide [declaration, bodyLines_record s hbody, hhead, oneLines_noteLines h]
  | enumeration values =>
    have htag : ∀ value, OneLine ("@JsonProperty(" ++ Literal.doubleQuoted value ++ ")") :=
      fun value => by simp +decide [Text.oneLine_doubleQuoted]
    have hnames : ∀ name ∈ enumNames values, Text.isIdentifier name = true :=
      fun name hmem => isIdentifier_of_plain_or_underscore (plain_or_underscore values name hmem)
    have hvalues := oneLines_valueLines htag values hnames
    rw [lines_enumeration s hbody, enumLines]
    simp +decide [hname, hvalues]
  | union components =>
    have hcomponent := h.component
    rw [Definition.components, hbody] at hcomponent
    have hjoined : OneLine (Text.joinWith ", " components) := Text.oneLine_joinWith (by decide) hcomponent
    cases hempty : components.isEmpty <;>
      simp +decide [declaration, bodyLines, hbody, hname, hempty, hjoined]

end Java

namespace CSharp

variable {d : Definition}

theorem oneLines_propertyLines {p : Property} (h : p.OneLine) : OneLines (propertyLines p) := by
  have hname := Text.oneLine_of_isIdentifier (Text.isIdentifier_of_isWord (isWord_propertyName p.name))
  have htype : OneLine (language.typeText p.shape) := Target.not_feed_typeText .cSharp h.leaf
  cases hrequired : p.required <;> cases hvalue : isValueType p.shape <;>
    simp +decide [propertyLines, hrequired, hvalue, hname, htype, Text.oneLine_doubleQuoted]

theorem oneLines_memberLines {properties : List Property} (h : ∀ p ∈ properties, p.OneLine) :
    OneLines (memberLines properties) := by
  fun_induction memberLines properties with
  | case1 => exact oneLines_nil
  | case2 p => exact oneLines_propertyLines (h p List.mem_cons_self)
  | case3 p rest _ ih =>
    obtain ⟨hp, hrest⟩ := List.forall_mem_cons.1 h
    have hblank : OneLine Line.blank.text := by decide
    exact oneLines_append_iff.2 ⟨oneLines_propertyLines hp, oneLines_cons_iff.2 ⟨hblank, ih hrest⟩⟩

theorem oneLines_declaration (s : TypeSystem) (h : d.OneLine)
    (howner : ∀ name ∈ Target.cSharp.ownerName? s d, OneLine name) : OneLines (declaration s d).lines := by
  have hname := h.name
  cases hbody : d.body with
  | record r =>
    have hmembers := oneLines_memberLines (h.of_mem hbody)
    have hextension : OneLine (extension s d) :=
      h.behindName howner (fun name? => name?.elim "" fun name => " : " ++ name) (by decide)
        fun name hname => by simp +decide [hname]
    simp +decide [declaration, bodyLines, hbody, hname, hmembers, hextension]
  | enumeration values =>
    have htag : ∀ value, OneLine ("[JsonStringEnumMemberName(" ++ Literal.doubleQuoted value ++ ")]") :=
      fun value => by simp +decide [Text.oneLine_doubleQuoted]
    have hnames : ∀ name ∈ enumNames values, Text.isIdentifier name = true :=
      fun name hmem => Text.isIdentifier_of_isWord (legal_of_mem_enumNames values name hmem).1
    have hvalues := oneLines_valueLines htag values hnames
    rw [lines_enumeration s hbody, enumLines]
    simp +decide [hname, hvalues]
  | union components => simp +decide [declaration, bodyLines, hbody, hname]

end CSharp

/-! ## Emitting deeper -/

/-- No line of a declaration has a line feed in it, whatever the descriptions are. -/
theorem Target.oneLines_declaration (target : Target) (s : TypeSystem) {d : Definition} (h : d.OneLine)
    (howner : ∀ name ∈ target.ownerName? s d, OneLine name) : OneLines (target.declaration s d).lines := by
  cases target with
  | typeScript => exact TypeScript.oneLines_declaration s h
  | kotlin => exact Kotlin.oneLines_declaration s h howner
  | java => exact Java.oneLines_declaration s h howner
  | cSharp => exact CSharp.oneLines_declaration s h howner

/-- **Emitting deeper is indenting.** At every level and in every style, whatever imports are noted, an emitter writes
what it writes at the outermost level with the indentation of the level before every line that is not empty, provided
that no name in the definition has a line feed in it and neither has the name of the union that is written behind it. -/
theorem emitted_deeper (target : Target) (s : TypeSystem) (d : Definition) (h : d.OneLine)
    (howner : ∀ name ∈ target.ownerName? s d, OneLine name) (style : IndentStyle) (level : Nat)
    (noted noted' : List String) :
    ((target.emitter.definition s d).run ⟨style, level, noted⟩).1 =
      Text.indentLines (style.indent level) ((target.emitter.definition s d).run ⟨style, 0, noted'⟩).1 := by
  rw [target.run_definition, target.run_definition]
  exact (target.oneLines_declaration s h howner).renderLines_eq style level

/-- A record with the given properties, and a union that it is a mere component of. -/
def shelter (union : String) (properties : List Property) : TypeSystem :=
  .ofDefinitions none [.record "Dog" properties, .union union ["Dog"]]

/-- The record in a shelter. -/
def shelter.dog (properties : List Property) : Definition :=
  ⟨"Dog", .record ⟨properties, none, true⟩, none⟩

/-- Descriptions may have line feeds in them. -/
theorem emitted_deeper_dog :
    let properties : List Property := [⟨"age", .primitive "integer", true, some "In\nyears"⟩]
    let s := shelter "Pet" properties
    let d := shelter.dog properties
    d ∈ s.definitions ∧ d.OneLine ∧ Target.kotlin.ownerName? s d = some "Pet" ∧
    ((Target.kotlin.emitter.definition s d).run ⟨.tabs, 1, []⟩).1 =
      "\t@Serializable\n\tdata class Dog(\n" ++
        "\t\t/**\n\t\t * In\n\t\t * years\n\t\t */\n\t\tval age: Int,\n\t) : Pet()\n" ∧
    ((Target.kotlin.emitter.definition s d).run ⟨.tabs, 1, []⟩).1 =
      Text.indentLines "\t" ((Target.kotlin.emitter.definition s d).run ⟨.tabs, 0, []⟩).1 := by
  intro properties s d
  have hd : d.OneLine := by decide
  have howner : Target.kotlin.ownerName? s d = some "Pet" := by decide
  have honeLine : ∀ name ∈ Target.kotlin.ownerName? s d, OneLine name := by
    rw [howner]
    decide
  exact ⟨by decide, hd, howner, by cbv, emitted_deeper .kotlin s d hd honeLine .tabs 1 [] []⟩

/-- **A line feed in the name of a union is not indented.** No name in the component has a line feed in it, but the name
of its union is written behind its own, and goes on at the beginning of the next line. -/
theorem owner_with_line_feed :
    let s := shelter "Pet\nKind" []
    let d := shelter.dog []
    d ∈ s.definitions ∧ d.OneLine ∧
    ((Target.kotlin.emitter.definition s d).run ⟨.spaces 4, 1, []⟩).1 =
      "    @Serializable\n    class Dog : Pet\nKind()\n" ∧
    ((Target.kotlin.emitter.definition s d).run ⟨.spaces 4, 1, []⟩).1 ≠
      Text.indentLines ((IndentStyle.spaces 4).indent 1)
        ((Target.kotlin.emitter.definition s d).run ⟨.spaces 4, 0, []⟩).1 := by
  intro s d
  have hdeeper : ((Target.kotlin.emitter.definition s d).run ⟨.spaces 4, 1, []⟩).1 =
      "    @Serializable\n    class Dog : Pet\nKind()\n" := by cbv
  have houter : ((Target.kotlin.emitter.definition s d).run ⟨.spaces 4, 0, []⟩).1 =
      Text.concat (["@Serializable", "class Dog : Pet", "Kind()"].map (· ++ "\n")) := by cbv
  refine ⟨by decide, by decide, hdeeper, ?_⟩
  rw [hdeeper, houter, Text.indentLines_concat _ (by decide)]
  decide

end TypeBindings
