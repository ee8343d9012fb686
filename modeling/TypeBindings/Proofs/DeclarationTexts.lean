import TypeBindings.Proofs.Appending
import TypeBindings.Proofs.BlockComments
import TypeBindings.Proofs.RecordLines
import TypeBindings.Proofs.StrictLiterals
import TypeBindings.Proofs.TypeTexts

/-!
# What the text of a TypeScript declaration says

The lines of code in a text are those that are neither empty nor part of a comment, without their indentation
(`codeLines`). A declaration has the same lines of code wherever it stands (`codes_declaration`): one with its kind,
name and parent or components, one for each property and one for each value. Where all names are identifiers a name ends
at the first character that can be no part of it (`Text.eq_of_name_append`), so every line is read in one way only.
Hence

* the first line says the kind, the name, the parent and the components (`eq_of_headText_eq`, `eq_of_headTail_eq`);
* the others say the properties and the values (`said_eq_of_fieldText_eq`, `eq_of_memberText_eq`);
* declarations with the same text declare the same (`declarations_lose_nothing`).
-/

namespace TypeBindings

/-! ## Lines of code -/

/-- The code in a line of a source text: what follows the indentation, unless the line is empty or part of a comment. -/
def code? (line : List Char) : Option String :=
  let text := line.dropWhile Text.isBlank
  if text.head? ∈ [none, some '/', some '*'] then none else some (String.ofList text)

/-- The lines of code in a source text, without their indentation. -/
def codeLines (text : String) : List String :=
  (Text.pieces (· == '\n') text.toList).filterMap code?

theorem code?_indent {indent : List Char} (h : ∀ c ∈ indent, Text.isBlank c = true) (line : List Char) :
    code? (indent ++ line) = code? line := by
  unfold code?
  rw [List.dropWhile_append_of_pos h]

/-- Code begins with a character that is no blank and begins no comment. -/
theorem code?_eq_some {text : String} {c : Char} (hhead : text.toList.head? = some c) (hblank : Text.isBlank c = false)
    (hslash : c ≠ '/') (hstar : c ≠ '*') : code? text.toList = some text := by
  obtain ⟨rest, hchars⟩ := List.head?_eq_some_iff.1 hhead
  have hdrop : text.toList.dropWhile Text.isBlank = text.toList := by
    rw [hchars, List.dropWhile_cons_of_neg (by simp [hblank])]
  simp [code?, hdrop, hhead, hslash, hstar]

/-- The texts are the code in the lines, and no line has a line feed in it. -/
structure Codes (lines : List Line) (texts : List String) : Prop where
  not_feed : ∀ line ∈ lines, '\n' ∉ line.text.toList
  codes : lines.filterMap (fun line => code? line.text.toList) = texts

theorem codes_nil : Codes [] [] :=
  ⟨List.forall_mem_nil _, rfl⟩

theorem Codes.append {lines more : List Line} {texts others : List String} (h : Codes lines texts)
    (h' : Codes more others) : Codes (lines ++ more) (texts ++ others) :=
  ⟨List.forall_mem_append.2 ⟨h.not_feed, h'.not_feed⟩, by rw [List.filterMap_append, h.codes, h'.codes]⟩

theorem codes_line {depth : Nat} {text : String} {c : Char} (hfeed : '\n' ∉ text.toList)
    (hhead : text.toList.head? = some c) (hblank : Text.isBlank c = false) (hslash : c ≠ '/') (hstar : c ≠ '*') :
    Codes [⟨depth, text⟩] [text] :=
  ⟨List.forall_mem_singleton.2 hfeed, by simp [code?_eq_some hhead hblank hslash hstar]⟩

theorem codes_flatMap {α : Type} {lines : α → List Line} {text : α → String} {items : List α}
    (h : ∀ item ∈ items, Codes (lines item) [text item]) : Codes (items.flatMap lines) (items.map text) := by
  induction items with
  | nil => exact codes_nil
  | cons item items ih =>
    obtain ⟨hitem, hrest⟩ := List.forall_mem_cons.1 h
    exact hitem.append (ih hrest)

theorem code?_of_mem_block {description line : String} (h : line ∈ Comment.block description) :
    code? line.toList = none := by
  have hstarred : ∀ text, code? (Comment.starred text).toList = none := by
    intro text
    unfold Comment.starred
    split
    · rfl
    · rw [String.toList_append]
      rfl
  rcases Comment.eq_of_mem_block h with rfl | rfl | rfl | ⟨text, -, rfl | rfl⟩
  · rfl
  · rfl
  · rfl
  · rw [String.append_assoc, String.toList_append]
    rfl
  · exact hstarred text

/-- There is no code in comments. -/
theorem codes_documented (depth : Nat) (description : Option String) :
    Codes (documented Comment.block depth description) [] := by
  cases description with
  | none => exact codes_nil
  | some text =>
    constructor
    · intro line hline
      obtain ⟨text', htext', rfl⟩ := List.mem_map.1 hline
      exact Comment.not_mem_of_mem_block htext'
    · rw [List.filterMap_eq_nil_iff]
      intro line hline
      obtain ⟨text', htext', rfl⟩ := List.mem_map.1 hline
      exact code?_of_mem_block htext'

/-- The text of a line that begins at a level, without its end. -/
def Line.shown (style : IndentStyle) (level : Nat) (line : Line) : String :=
  if line.text.isEmpty then "" else style.indent (level + line.depth) ++ line.text

theorem Line.render_eq (style : IndentStyle) (level : Nat) (line : Line) :
    line.render style level = line.shown style level ++ "\n" := by
  unfold render shown
  split
  · rfl
  · rfl

theorem Line.code?_shown (style : IndentStyle) (level : Nat) (line : Line) :
    code? (line.shown style level).toList = code? line.text.toList := by
  unfold shown
  split
  · rename_i hempty
    rw [String.isEmpty_iff.1 hempty]
  · rw [String.toList_append, code?_indent (style.isBlank_of_mem_indent _)]

theorem Line.not_feed_shown (style : IndentStyle) (level : Nat) {line : Line} (h : '\n' ∉ line.text.toList) :
    '\n' ∉ (line.shown style level).toList := by
  unfold shown
  split
  · exact List.not_mem_nil
  · rw [String.toList_append, List.mem_append, not_or]
    refine ⟨fun hmem => ?_, h⟩
    rcases IndentStyle.eq_of_mem_indent hmem with h | h <;> exact absurd h (by decide)

/-- **The code of lines is in their text**, wherever and however indented it stands. -/
theorem Codes.codeLines_renderLines {lines : List Line} {texts : List String} (h : Codes lines texts)
    (style : IndentStyle) (level : Nat) : codeLines (renderLines style level lines) = texts := by
  have hrender : lines.map (Line.render style level) = (lines.map (Line.shown style level)).map (· ++ "\n") := by
    rw [List.map_map]
    exact List.map_congr_left fun line _ => line.render_eq style level
  have hfeed : ∀ text ∈ lines.map (Line.shown style level), '\n' ∉ text.toList :=
    List.forall_mem_map.2 fun line hline => line.not_feed_shown style level (h.not_feed line hline)
  have hend : code? [] = none := rfl
  rw [codeLines, renderLines, hrender, Text.pieces_concat_lines hfeed, List.filterMap_append, List.map_map,
    List.filterMap_map, ← h.codes]
  simp [Function.comp_def, Line.code?_shown, hend]

/-! ## Names in code -/

namespace Text

theorem not_mem_of_isIdentifier {text : String} (h : isIdentifier text = true) {c : Char}
    (hc : (inWord c || c == '$') = false) : c ∉ text.toList := fun hmem =>
  Bool.false_ne_true (hc.symm.trans (word_or_dollar_of_mem h hmem))

/-- What a name ends at: characters of which the first can be no part of it. -/
def EndsName (rest : String) : Prop :=
  ∃ c, rest.toList.head? = some c ∧ (inWord c || c == '$') = false

/-- **A name is read up to where it ends.** -/
theorem eq_of_name_append {a b rest rest' : String} (ha : isIdentifier a = true) (hb : isIdentifier b = true)
    (hrest : EndsName rest) (hrest' : EndsName rest') (h : a ++ rest = b ++ rest') : a = b ∧ rest = rest' := by
  have htake : ∀ {name rest : String}, isIdentifier name = true → EndsName rest →
      (name ++ rest).toList.takeWhile (fun c => inWord c || c == '$') = name.toList := by
    intro name rest hname hends
    obtain ⟨c, hhead, hc⟩ := hends
    obtain ⟨more, hchars⟩ := List.head?_eq_some_iff.1 hhead
    rw [String.toList_append, List.takeWhile_append_of_pos fun c hc => word_or_dollar_of_mem hname hc, hchars,
      List.takeWhile_cons_of_neg (by simp [hc]), List.append_nil]
  have hname : a = b := by
    apply String.toList_injective
    rw [← htake ha hrest, h, htake hb hrest']
  subst hname
  exact ⟨rfl, (String.append_right_inj a).1 h⟩

theorem isBlank_of_word_or_dollar {c : Char} (h : (inWord c || c == '$') = true) : isBlank c = false := by
  have hrange : c = '_' ∨ c = '$' ∨ 48 ≤ c.toNat ∧ c.toNat ≤ 122 := by
    have hnat : c.toNat = c.val.toNat := rfl
    simp only [inWord, Char.isAlphanum, Char.isAlpha, Char.isUpper, Char.isLower, Char.isDigit, Bool.or_eq_true,
      Bool.and_eq_true, decide_eq_true_eq, beq_iff_eq, UInt32.le_iff_toNat_le, ge_iff_le] at h
    rcases h with (((h | h) | h) | rfl) | rfl
    · exact .inr (.inr ⟨(by decide : 48 ≤ 65).trans h.1, h.2.trans (by decide)⟩)
    · exact .inr (.inr ⟨(by decide : 48 ≤ 97).trans h.1, h.2⟩)
    · exact .inr (.inr ⟨h.1, h.2.trans (by decide)⟩)
    · exact .inl rfl
    · exact .inr (.inl rfl)
  rcases hrange with rfl | rfl | hrange
  · rfl
  · rfl
  · simp only [isBlank, Bool.or_eq_false_iff, Bool.and_eq_false_iff, decide_eq_false_iff_not, beq_eq_false_iff_ne]
    omega

/-- The first character of a name begins no comment and is no blank. -/
theorem exists_head_of_isIdentifier {text : String} (h : isIdentifier text = true) :
    ∃ c, text.toList.head? = some c ∧ isBlank c = false ∧ c ≠ '/' ∧ c ≠ '*' := by
  obtain ⟨c, rest, htext, -, -⟩ := isIdentifier_iff_spelled.1 h
  have hc := word_or_dollar_of_mem h (c := c) (by rw [htext]; exact List.mem_cons_self)
  refine ⟨c, by rw [htext]; rfl, isBlank_of_word_or_dollar hc, ?_, ?_⟩
  · rintro rfl
    exact absurd hc (by decide)
  · rintro rfl
    exact absurd hc (by decide)

end Text

/-! ## Declarations -/

/-- The type of a shape is built around its leaf without line feeds. -/
theorem Target.not_feed_typeText (target : Target) {shape : Shape}
    (h : ∀ name ∈ shape.leafName?, '\n' ∉ name.toList) : '\n' ∉ (target.language.typeText shape).toList := by
  have hleaf : '\n' ∉ (target.language.leafText shape).toList :=
    Language.forall_leafText (P := fun text => '\n' ∉ text.toList)
      (fun p => Text.not_mem_of_isIdentifier (target.isIdentifier_primitive p) (by decide))
      (Text.not_mem_of_isIdentifier target.isIdentifier_dynamic (by decide)) h
  induction shape with
  | array element ih =>
    have hlist : ∀ text : String, '\n' ∉ text.toList → '\n' ∉ (target.language.list text).toList := by
      intro text htext
      cases target with
      | typeScript =>
        simp only [language, TypeScript.language, TypeScript.listType]
        split <;> simpa using htext
      | kotlin => simpa [language, Kotlin.language] using htext
      | java => simpa [language, Java.language] using htext
      | cSharp => simpa [language, CSharp.language] using htext
    exact hlist _ (ih h hleaf)
  | map value ih =>
    have hmap : ∀ text : String, '\n' ∉ text.toList → '\n' ∉ (target.language.map text).toList := by
      intro text htext
      cases target with
      | typeScript => simpa [language, TypeScript.language] using htext
      | kotlin => simpa [language, Kotlin.language] using htext
      | java => simpa [language, Java.language] using htext
      | cSharp => simpa [language, CSharp.language] using htext
    exact hmap _ (ih h hleaf)
  | primitive name => exact hleaf
  | reference name => exact hleaf
  | unknown => exact hleaf

/-- All names in a definition are identifiers, and a union has components. -/
structure Definition.IsPlain (d : Definition) : Prop where
  name : Text.isIdentifier d.name = true
  base : ∀ parent ∈ d.base?, Text.isIdentifier parent = true
  property : ∀ p ∈ d.properties, Text.isIdentifier p.name = true
  leaf : ∀ p ∈ d.properties, ∀ name ∈ p.shape.leafName?, Text.isIdentifier name = true
  value : ∀ value ∈ d.values, Text.isIdentifier value = true
  component : ∀ component ∈ d.components, Text.isIdentifier component = true
  components_ne_nil : d.isUnion = true → d.components ≠ []

theorem isComponentName_of_isIdentifier {name : String} (h : Text.isIdentifier name = true) :
    isComponentName name = true := by
  have hblank : ∀ c ∈ name.toList, Text.isBlank c = false := fun c hc =>
    Text.isBlank_of_word_or_dollar (Text.word_or_dollar_of_mem h hc)
  have hbar : '|' ∉ name.toList := Text.not_mem_of_isIdentifier h (by decide)
  have hne : name ≠ "" := by
    rintro rfl
    cases h
  simp [isComponentName, Text.trim_of_not_blank hblank, hbar, hne]

/-- The components of a union come back from their text. -/
theorem Definition.IsPlain.componentNames_joinWith {d : Definition} (h : d.IsPlain) (hunion : d.isUnion = true) :
    componentNames (Text.joinWith " | " d.components) = d.components :=
  TypeBindings.componentNames_joinWith (h.components_ne_nil hunion) fun name hname =>
    isComponentName_of_isIdentifier (h.component name hname)

namespace TypeScript

/-- The line of a property. -/
def fieldText (p : Property) : String :=
  key p.name ++ (if p.required then "" else "?") ++ ": " ++ language.typeText p.shape ++ ";"

/-- The line of a value of an enumeration. -/
def memberText (value : String) : String :=
  key value ++ " = " ++ Literal.singleQuoted value ++ ","

/-- The word that says what is declared. -/
def kindWord : Body → String
  | .record _ => "interface"
  | .enumeration _ => "enum"
  | .union _ => "type"

/-- What follows the name in the first line of a declaration. -/
def headTail (d : Definition) : String :=
  d.base?.elim "" (" extends " ++ ·) ++
    if d.isUnion then " = " ++ Text.joinWith " | " d.components ++ ";" else " \x7b"

/-- The first line of a declaration. -/
def headText (d : Definition) : String :=
  "export " ++ (kindWord d.body ++ (" " ++ (d.name ++ headTail d)))

/-- The lines of code in a declaration. -/
def codeTexts (d : Definition) : List String :=
  headText d :: d.properties.map fieldText ++ d.values.map memberText ++ if d.isUnion then [] else ["\x7d"]

theorem key_of_isIdentifier {name : String} (h : Text.isIdentifier name = true) : key name = name :=
  if_pos h

theorem not_feed_singleQuoted {value : String} (h : '\n' ∉ value.toList) :
    '\n' ∉ (Literal.singleQuoted value).toList := by
  have hbody : '\n' ∉ value.toList.flatMap Literal.escapeSingle := by
    rwa [mem_flatMap_escapeSingle (by decide)]
  rw [Literal.singleQuoted_eq, String.toList_ofList]
  simpa using hbody

/-- A line that begins with a name is a line of code. -/
theorem codes_named {name rest : String} {depth : Nat} (hname : Text.isIdentifier name = true)
    (hrest : '\n' ∉ rest.toList) : Codes [⟨depth, name ++ rest⟩] [name ++ rest] := by
  obtain ⟨c, hhead, hblank, hslash, hstar⟩ := Text.exists_head_of_isIdentifier hname
  refine codes_line (c := c) ?_ ?_ hblank hslash hstar
  · rw [String.toList_append, List.mem_append, not_or]
    exact ⟨Text.not_mem_of_isIdentifier hname (by decide), hrest⟩
  · rw [String.toList_append, List.head?_append, hhead, Option.some_or]

theorem codes_propertyLines {p : Property} (hname : Text.isIdentifier p.name = true)
    (hleaf : ∀ name ∈ p.shape.leafName?, Text.isIdentifier name = true) : Codes (propertyLines p) [fieldText p] := by
  refine (codes_documented 1 p.description).append ?_
  have htext : fieldText p =
      p.name ++ ((if p.required then "" else "?") ++ ": " ++ language.typeText p.shape ++ ";") := by
    rw [fieldText, key_of_isIdentifier hname]
    simp only [String.append_assoc]
  have hline : Codes [⟨1, fieldText p⟩] [fieldText p] := by
    rw [htext]
    refine codes_named hname ?_
    have htype : '\n' ∉ (language.typeText p.shape).toList :=
      Target.not_feed_typeText .typeScript fun name hname => Text.not_mem_of_isIdentifier (hleaf name hname) (by decide)
    split <;> simpa using htype
  exact hline

theorem codes_member {value : String} (h : Text.isIdentifier value = true) :
    Codes [⟨1, memberText value⟩] [memberText value] := by
  have htext : memberText value = value ++ (" = " ++ Literal.singleQuoted value ++ ",") := by
    rw [memberText, key_of_isIdentifier h]
    simp only [String.append_assoc]
  have hquoted := not_feed_singleQuoted (Text.not_mem_of_isIdentifier h (by decide))
  rw [htext]
  exact codes_named h (by simpa using hquoted)

theorem not_feed_headTail {d : Definition} (h : d.IsPlain) : '\n' ∉ (headTail d).toList := by
  have hbase : '\n' ∉ (d.base?.elim "" (" extends " ++ ·)).toList := by
    cases hparent : d.base? with
    | none => exact List.not_mem_nil
    | some parent =>
      have hmem := Text.not_mem_of_isIdentifier (h.base parent hparent) (c := '\n') (by decide)
      simpa using hmem
  have hjoined : '\n' ∉ (Text.joinWith " | " d.components).toList := by
    intro hmem
    rcases Text.mem_of_mem_joinWith hmem with hsep | ⟨component, hcomponent, hmem⟩
    · exact absurd hsep (by decide)
    · exact Text.not_mem_of_isIdentifier (h.component component hcomponent) (by decide) hmem
  rw [headTail, String.toList_append, List.mem_append, not_or]
  refine ⟨hbase, ?_⟩
  split
  · simpa using hjoined
  · decide

theorem isIdentifier_kindWord (body : Body) : Text.isIdentifier (kindWord body) = true := by
  cases body with
  | record r => exact (by decide : Text.isIdentifier "interface" = true)
  | enumeration values => exact (by decide : Text.isIdentifier "enum" = true)
  | union components => exact (by decide : Text.isIdentifier "type" = true)

theorem codes_headText {d : Definition} (h : d.IsPlain) : Codes [⟨0, headText d⟩] [headText d] := by
  have hword : '\n' ∉ (kindWord d.body).toList :=
    Text.not_mem_of_isIdentifier (isIdentifier_kindWord d.body) (by decide)
  have hname : '\n' ∉ d.name.toList := Text.not_mem_of_isIdentifier h.name (by decide)
  refine codes_line (c := 'e') ?_ ?_ rfl (by decide) (by decide)
  · simp [headText, hword, hname, not_feed_headTail h]
  · rw [headText, String.toList_append]
    rfl

theorem codes_brace : Codes [⟨0, "\x7d"⟩] ["\x7d"] :=
  codes_line (c := '\x7d') (by decide) rfl rfl (by decide) (by decide)

/-- The lines of an interface. -/
theorem bodyLines_record (s : TypeSystem) {d : Definition} {r : Record} (hd : d.body = .record r) :
    (declaration s d).lines = documented Comment.block 0 d.description ++
      ([⟨0, headText d⟩] ++ r.properties.flatMap propertyLines ++ [⟨0, "\x7d"⟩]) := by
  have hwords : "export interface " = "export " ++ ("interface" ++ " ") := rfl
  have hhead : headText d = "export interface " ++ d.name ++ d.base?.elim "" (" extends " ++ ·) ++ " \x7b" := by
    rw [headText, headTail, Definition.isUnion, hd, hwords]
    simp only [kindWord, String.append_assoc, Bool.false_eq_true, if_false]
  rw [lines_record s hd, recordLines, fieldLines_fieldNames, hhead]
  rfl

/-- The lines of an enumeration. -/
theorem bodyLines_enumeration (s : TypeSystem) {d : Definition} {values : List String}
    (hd : d.body = .enumeration values) :
    (declaration s d).lines = documented Comment.block 0 d.description ++
      ([⟨0, headText d⟩] ++ values.flatMap (fun value => [⟨1, memberText value⟩]) ++ [⟨0, "\x7d"⟩]) := by
  have hwords : "export enum " = "export " ++ ("enum" ++ " ") := rfl
  have hhead : headText d = "export enum " ++ d.name ++ " \x7b" := by
    rw [headText, headTail, Definition.isUnion, Definition.base?, hd, hwords]
    simp only [kindWord, Option.elim_none, String.empty_append, String.append_assoc, Bool.false_eq_true, if_false]
  have hmembers : values.map (fun value => (⟨1, memberText value⟩ : Line)) =
      values.flatMap fun value => [⟨1, memberText value⟩] := List.map_eq_flatMap
  unfold declaration bodyLines
  rw [hhead, ← hmembers, hd]
  rfl

/-- The line of a union. -/
theorem bodyLines_union (s : TypeSystem) {d : Definition} {components : List String} (hd : d.body = .union components)
    (hne : components ≠ []) :
    (declaration s d).lines = documented Comment.block 0 d.description ++ [⟨0, headText d⟩] := by
  have hwords : "export type " = "export " ++ ("type" ++ " ") := rfl
  have hhead : headText d = "export type " ++ d.name ++ " = " ++ Text.joinWith " | " components ++ ";" := by
    rw [headText, headTail, Definition.isUnion, Definition.base?, Definition.components, hd, hwords]
    simp only [kindWord, Option.elim_none, String.empty_append, String.append_assoc, if_true]
  unfold declaration bodyLines
  rw [hhead, hd]
  simp [hne]

/-- **The lines of code in a declaration.** -/
theorem codes_declaration (s : TypeSystem) {d : Definition} (h : d.IsPlain) :
    Codes (declaration s d).lines (codeTexts d) := by
  have hhead := codes_headText h
  have hcomment := codes_documented 0 d.description
  cases hbody : d.body with
  | record r =>
    have hproperties : d.properties = r.properties := by rw [Definition.properties, hbody]
    have hcode : codeTexts d = [headText d] ++ r.properties.map fieldText ++ ["\x7d"] := by
      simp [codeTexts, Definition.properties, Definition.values, Definition.isUnion, hbody]
    rw [bodyLines_record s hbody, hcode]
    refine hcomment.append ((hhead.append (codes_flatMap fun p hp => ?_)).append codes_brace)
    rw [← hproperties] at hp
    exact codes_propertyLines (h.property p hp) (h.leaf p hp)
  | enumeration values =>
    have hvalues : d.values = values := by rw [Definition.values, hbody]
    have hcode : codeTexts d = [headText d] ++ values.map memberText ++ ["\x7d"] := by
      simp [codeTexts, Definition.properties, Definition.values, Definition.isUnion, hbody]
    rw [bodyLines_enumeration s hbody, hcode]
    refine hcomment.append ((hhead.append (codes_flatMap fun value hvalue => ?_)).append codes_brace)
    rw [← hvalues] at hvalue
    exact codes_member (h.value value hvalue)
  | union components =>
    have hne : components ≠ [] := by
      have hcomponents := h.components_ne_nil (by rw [Definition.isUnion, hbody])
      rwa [Definition.components, hbody] at hcomponents
    have hcode : codeTexts d = [headText d] := by
      simp [codeTexts, Definition.properties, Definition.values, Definition.isUnion, hbody]
    rw [bodyLines_union s hbody hne, hcode]
    exact hcomment.append hhead

/-! ## What the lines of code say -/

/-- What is read off every text is read off a list of texts. -/
theorem map_eq_map_of_reads {α β γ : Type} {f : α → β} {g : α → γ} : ∀ {xs ys : List α},
    (∀ x ∈ xs, ∀ y ∈ ys, f x = f y → g x = g y) → xs.map f = ys.map f → xs.map g = ys.map g
  | [], [], _, _ => rfl
  | [], _ :: _, _, h => absurd h (by simp)
  | _ :: _, [], _, h => absurd h (by simp)
  | x :: xs, y :: ys, hread, h => by
    obtain ⟨hhead, htail⟩ := List.cons.inj h
    have hrest := map_eq_map_of_reads
      (fun x hx y hy => hread x (List.mem_cons_of_mem _ hx) y (List.mem_cons_of_mem _ hy)) htail
    rw [List.map_cons, List.map_cons, hread x List.mem_cons_self y List.mem_cons_self hhead, hrest]

/-- The first line says what is declared and the name. -/
theorem eq_of_headText_eq {d e : Definition} (hd : d.IsPlain) (he : e.IsPlain) (h : headText d = headText e) :
    kindWord d.body = kindWord e.body ∧ d.name = e.name ∧ headTail d = headTail e := by
  have hspace : ∀ rest, Text.EndsName (" " ++ rest) := by
    intro rest
    refine ⟨' ', ?_, by decide⟩
    rw [String.toList_append]
    rfl
  have htail : ∀ d, Text.EndsName (headTail d) := by
    intro d
    refine ⟨' ', ?_, by decide⟩
    unfold headTail
    cases d.base? <;> split <;> simp
  have hwords := (String.append_right_inj _).1 h
  obtain ⟨hkind, hnames⟩ := Text.eq_of_name_append (isIdentifier_kindWord _) (isIdentifier_kindWord _) (hspace _)
    (hspace _) hwords
  exact ⟨hkind, Text.eq_of_name_append hd.name he.name (htail d) (htail e) ((String.append_right_inj _).1 hnames)⟩

theorem isEnumeration_iff (d : Definition) : d.isEnumeration = true ↔ kindWord d.body = "enum" := by
  unfold Definition.isEnumeration
  cases d.body <;> simp [kindWord]

theorem isUnion_iff (d : Definition) : d.isUnion = true ↔ kindWord d.body = "type" := by
  unfold Definition.isUnion
  cases d.body <;> simp [kindWord]

theorem same_kind {d e : Definition} (h : kindWord d.body = kindWord e.body) :
    d.isEnumeration = e.isEnumeration ∧ d.isUnion = e.isUnion := by
  constructor
  · rw [Bool.eq_iff_iff, isEnumeration_iff, isEnumeration_iff, h]
  · rw [Bool.eq_iff_iff, isUnion_iff, isUnion_iff, h]

theorem extension_injective :
    Function.Injective fun base : Option String => base.elim "" (" extends " ++ ·) := by
  intro a b h
  have hne : ∀ parent, "" ≠ " extends " ++ parent := fun parent h => by
    have hchars := congrArg String.toList h
    simp at hchars
  cases a with
  | none =>
    cases b with
    | none => rfl
    | some parent => exact absurd h (hne parent)
  | some parent =>
    cases b with
    | none => exact absurd h.symm (hne parent)
    | some other => exact congrArg some ((String.append_right_inj _).1 h)

/-- What follows the name says the parent of a record and the components of a union. -/
theorem eq_of_headTail_eq {d e : Definition} (hd : d.IsPlain) (he : e.IsPlain) (hunion : d.isUnion = e.isUnion)
    (h : headTail d = headTail e) : d.base? = e.base? ∧ d.components = e.components := by
  unfold headTail at h
  cases hd' : d.isUnion with
  | true =>
    have he' : e.isUnion = true := hunion ▸ hd'
    rw [hd', he', Definition.base?_of_isUnion hd', Definition.base?_of_isUnion he'] at h
    simp only [Option.elim_none, String.empty_append, if_true] at h
    have hjoined := (String.append_right_inj _).1 ((String.append_left_inj _).1 h)
    refine ⟨(Definition.base?_of_isUnion hd').trans (Definition.base?_of_isUnion he').symm, ?_⟩
    rw [← hd.componentNames_joinWith hd', hjoined, he.componentNames_joinWith he']
  | false =>
    have he' : e.isUnion = false := hunion ▸ hd'
    rw [hd', he', if_neg Bool.false_ne_true, if_neg Bool.false_ne_true] at h
    refine ⟨extension_injective ((String.append_left_inj _).1 h), ?_⟩
    rw [Definition.components_of_not_isUnion hd', Definition.components_of_not_isUnion he']

/-- What the line of a property says: its name, whether it is required, and its type. -/
def said (p : Property) : String × Bool × String :=
  (p.name, p.required, language.typeText p.shape)

/-- The mark before the colon says whether a property is required. -/
theorem eq_of_mark_append {required required' : Bool} {text text' : String}
    (h : (if required then "" else "?") ++ (": " ++ text) = (if required' then "" else "?") ++ (": " ++ text')) :
    required = required' ∧ text = text' := by
  have hne : ∀ text text' : String, ": " ++ text ≠ "?" ++ (": " ++ text') := fun text text' h => by
    have hchars := congrArg String.toList h
    simp at hchars
  cases required <;> cases required'
  · exact ⟨rfl, (String.append_right_inj _).1 ((String.append_right_inj _).1 h)⟩
  · exact absurd h.symm (hne _ _)
  · exact absurd h (hne _ _)
  · exact ⟨rfl, (String.append_right_inj _).1 ((String.append_right_inj _).1 h)⟩

theorem said_eq_of_fieldText_eq {p q : Property} (hp : Text.isIdentifier p.name = true)
    (hq : Text.isIdentifier q.name = true) (h : fieldText p = fieldText q) : said p = said q := by
  have hends : ∀ (required : Bool) (rest : String),
      Text.EndsName ((if required then "" else "?") ++ (": " ++ rest)) := by
    intro required rest
    cases required
    · exact ⟨'?', by simp, by decide⟩
    · exact ⟨':', by simp, by decide⟩
  simp only [fieldText, key_of_isIdentifier hp, key_of_isIdentifier hq, String.append_assoc] at h
  obtain ⟨hname, hrest⟩ := Text.eq_of_name_append hp hq (hends _ _) (hends _ _) h
  obtain ⟨hrequired, htype⟩ := eq_of_mark_append hrest
  rw [said, hname, hrequired, (String.append_left_inj _).1 htype, said]

theorem eq_of_memberText_eq {value other : String} (hvalue : Text.isIdentifier value = true)
    (hother : Text.isIdentifier other = true) (h : memberText value = memberText other) : value = other := by
  have hends : ∀ rest, Text.EndsName (" = " ++ rest) := fun rest => ⟨' ', by simp, by decide⟩
  simp only [memberText, key_of_isIdentifier hvalue, key_of_isIdentifier hother, String.append_assoc] at h
  exact (Text.eq_of_name_append hvalue hother (hends _) (hends _) h).1

/-- **The lines of code say the definition.** -/
theorem eq_of_codeTexts_eq {d e : Definition} (hd : d.IsPlain) (he : e.IsPlain) (h : codeTexts d = codeTexts e) :
    (d.isEnumeration = e.isEnumeration ∧ d.isUnion = e.isUnion) ∧ d.name = e.name ∧
      (d.base? = e.base? ∧ d.components = e.components) ∧ d.properties.map said = e.properties.map said ∧
      d.values = e.values := by
  simp only [codeTexts, List.cons_append, List.cons.injEq] at h
  obtain ⟨hhead, hrest⟩ := h
  obtain ⟨hkind, hname, htail⟩ := eq_of_headText_eq hd he hhead
  obtain ⟨henum, hunion⟩ := same_kind hkind
  -- the kinds are the same, so both declarations end with a bracket or none does
  rw [hunion, List.append_left_inj] at hrest
  refine ⟨⟨henum, hunion⟩, hname, eq_of_headTail_eq hd he hunion htail, ?_⟩
  cases hd' : d.isEnumeration with
  | true =>
    have he' : e.isEnumeration = true := henum ▸ hd'
    rw [Definition.properties_of_isEnumeration hd', Definition.properties_of_isEnumeration he'] at hrest ⊢
    have hvalues := map_eq_map_of_reads (g := id) (fun value hvalue other hother =>
      eq_of_memberText_eq (hd.value value hvalue) (he.value other hother)) hrest
    exact ⟨rfl, by simpa using hvalues⟩
  | false =>
    have he' : e.isEnumeration = false := henum ▸ hd'
    rw [Definition.values_of_not_isEnumeration hd', Definition.values_of_not_isEnumeration he'] at hrest ⊢
    simp only [List.map_nil, List.append_nil] at hrest
    have hproperties := map_eq_map_of_reads (fun p hp q hq =>
      said_eq_of_fieldText_eq (hd.property p hp) (he.property q hq)) hrest
    exact ⟨hproperties, rfl⟩

/-- **Declarations lose nothing.** Wherever two declarations with plain names stand and however they are indented and
documented, the same text declares the same kind of type with the same name, parent, properties, values and
components. -/
theorem declarations_lose_nothing (s s' : TypeSystem) (ctx ctx' : Context) (d e : Definition) (hd : d.IsPlain)
    (he : e.IsPlain) (h : (ctx.emit (declaration s d)).1 = (ctx'.emit (declaration s' e)).1) :
    (d.isEnumeration = e.isEnumeration ∧ d.isUnion = e.isUnion) ∧ d.name = e.name ∧
      (d.base? = e.base? ∧ d.components = e.components) ∧ d.properties.map said = e.properties.map said ∧
      d.values = e.values := by
  apply eq_of_codeTexts_eq hd he
  rw [← (codes_declaration s hd).codeLines_renderLines ctx.style ctx.level,
    ← (codes_declaration s' he).codeLines_renderLines ctx'.style ctx'.level]
  exact congrArg codeLines h

/-- A record of scores, which are lists of maps of lists of one shape. -/
def scores (leaf : Shape) (parent : String) : Definition :=
  (Definition.record "Scores" [⟨"game", .reference "Game", true, some "What was\nplayed"⟩,
    ⟨"rounds", listsOf leaf, false, none⟩]).extending parent

/-- Different definitions with the same text have what the text says in common. -/
theorem declarations_lose_nothing_scores :
    scores (.primitive "Integer") " Board" ≠ scores (.reference "number") "Board" ∧
    (scores (.primitive "Integer") " Board").IsPlain ∧ (scores (.reference "number") "Board").IsPlain ∧
    (scores (.primitive "Integer") " Board").base? = (scores (.reference "number") "Board").base? ∧
    (scores (.primitive "Integer") " Board").properties.map said =
      [("game", true, "Game"), ("rounds", false, "Record<string, number[]>[]")] := by
  have hd : (scores (.primitive "Integer") " Board").IsPlain :=
    ⟨by decide, by decide, by decide, by decide, by decide, by decide, by decide⟩
  have he : (scores (.reference "number") "Board").IsPlain :=
    ⟨by decide, by decide, by decide, by decide, by decide, by decide, by decide⟩
  obtain ⟨-, -, ⟨hbase, -⟩, hproperties, -⟩ := declarations_lose_nothing ⟨none, []⟩ ⟨none, []⟩ ⟨.spaces 2, 1, []⟩
    ⟨.spaces 2, 1, []⟩ _ _ hd he (by decide +kernel)
  exact ⟨by decide, hd, he, hbase, hproperties.trans (by decide +kernel)⟩

end TypeScript

end TypeBindings
