import TypeBindings.Proofs.FieldNames
import TypeBindings.Proofs.RecordLines
import TypeBindings.Proofs.Validation

/-!
# Fields that share a name

Fields are named one by one, and not as the members of an enumeration are: no number is put behind a name that is taken.
`Java.Meet` and `CSharp.Meet` say when two different texts have the same name (`Java.componentName_eq_iff`,
`CSharp.propertyName_eq_iff`). The fields of a record have different names if and only if no two of its properties meet
(`record_fields_apart_iff`), and they do not in a record of three words of which nothing is reported
(`defaults_share_fields`).
-/

namespace TypeBindings

open Naming (letters pascalName)

/-- A function that makes the same of two items exactly if they meet keeps a list apart if no two of its items do. -/
theorem nodup_map_iff {α β : Type} {f : α → β} {meet : α → α → Prop} (h : ∀ a b, a ≠ b → (f a = f b ↔ meet a b))
    {items : List α} (hitems : items.Nodup) : (items.map f).Nodup ↔ items.Pairwise fun a b => ¬meet a b := by
  rw [List.Nodup, List.pairwise_map]
  constructor
  · intro hapart
    exact hapart.imp₂ (fun a b hf hne hmeet => hf ((h a b hne).2 hmeet)) hitems
  · intro hapart
    exact hapart.imp₂ (fun a b hmeet hne hf => hmeet ((h a b hne).1 hf)) hitems

/-! ## Java -/

namespace Java

/-- A text is renamed to an identifier: it is no identifier and its words make this one, or it is a keyword, or its
words make one, and this is the keyword with an underscore. -/
def RenamedTo (text identifier : String) : Prop :=
  Text.isIdentifier identifier = true ∧
    (Text.isIdentifier text = false ∧ stem text = identifier ∨ stem text ∈ keywords ∧ identifier = stem text ++ "_")

/-- Two texts have the same name: neither is an identifier and their letters are the same, or one is renamed to the
other. -/
def Meet (a b : String) : Prop :=
  (Text.isIdentifier a = false ∧ Text.isIdentifier b = false ∧ letters a = letters b) ∨ RenamedTo a b ∨ RenamedTo b a

/-- A small first letter does not make names of words alike. -/
theorem smallInitial_pascalName_eq_iff {a b : String} :
    smallInitial (pascalName a) = smallInitial (pascalName b) ↔ letters a = letters b := by
  rw [← Naming.pascalName_eq_iff]
  constructor
  · intro h
    obtain ⟨c, rest, hc, hopens, -⟩ := Naming.spelled_pascalName a
    obtain ⟨d, rest', hd, hopens', -⟩ := Naming.spelled_pascalName b
    have hlist := congrArg String.toList h
    rw [toList_smallInitial hc, toList_smallInitial hd] at hlist
    obtain ⟨hlower, rfl⟩ := List.cons.inj hlist
    -- both begin with no small letter, so the letters can be made large again
    have hsame : c = d := by
      rw [← Naming.toUpper_of_opensName hopens, ← Naming.toUpper_of_opensName hopens',
        ← Char.toUpper_toLower_eq_toUpper c, hlower, Char.toUpper_toLower_eq_toUpper]
    apply String.toList_injective
    rw [hc, hd, hsame]
  · intro h
    rw [h]

theorem stem_eq_iff {a b : String} (hne : a ≠ b) : stem a = stem b ↔
    (Text.isIdentifier a = false ∧ Text.isIdentifier b = false ∧ letters a = letters b) ∨
      (Text.isIdentifier b = true ∧ Text.isIdentifier a = false ∧ stem a = b) ∨
      (Text.isIdentifier a = true ∧ Text.isIdentifier b = false ∧ stem b = a) := by
  cases ha : Text.isIdentifier a with
  | true =>
    cases hb : Text.isIdentifier b with
    | true => simp [stem_of_isIdentifier ha, stem_of_isIdentifier hb, hne]
    | false => simp [stem_of_isIdentifier ha, eq_comm]
  | false =>
    cases hb : Text.isIdentifier b with
    | true => simp [stem_of_isIdentifier hb]
    | false =>
      rw [stem_of_not_isIdentifier ha, stem_of_not_isIdentifier hb, smallInitial_pascalName_eq_iff]
      simp

/-- Words make no identifier that is a keyword with an underscore: the underscore stands in front, if anywhere. -/
theorem isIdentifier_of_stem_eq_append {word text : String} (hword : word ∈ keywords) (h : stem text = word ++ "_") :
    Text.isIdentifier text = true := by
  by_contra hnot
  rw [stem_of_not_isIdentifier (Bool.eq_false_iff.2 hnot)] at h
  obtain ⟨c, rest, hname, -, hrest⟩ := Naming.spelled_pascalName_isAlphanum text
  have hlist := congrArg String.toList h
  rw [toList_smallInitial hname, String.toList_append] at hlist
  cases hchars : word.toList with
  | nil =>
    have hempty : "" ∉ keywords := by decide
    rw [String.toList_eq_nil_iff.1 hchars] at hword
    exact hempty hword
  | cons d ds =>
    rw [hchars, List.cons_append] at hlist
    obtain ⟨-, rfl⟩ := List.cons.inj hlist
    exact absurd (hrest '_' (List.mem_append_right _ (List.mem_singleton_self _))) (by decide)

/-- An underscore behind keywords makes two identifiers alike if one is a keyword and the other has the underscore. -/
theorem componentName_eq_iff_stem {a b : String} : componentName a = componentName b ↔
    stem a = stem b ∨ (stem a ∈ keywords ∧ stem b = stem a ++ "_") ∨ (stem b ∈ keywords ∧ stem a = stem b ++ "_") := by
  have hplain : ∀ text, stem text ++ "_" ∉ keywords :=
    fun text => (isPlainName_iff.1 (isPlainName_append_underscore (isIdentifier_stem text))).2
  rw [componentName_eq, componentName_eq]
  by_cases ha : stem a ∈ keywords
  · by_cases hb : stem b ∈ keywords
    · have hnot : stem b ≠ stem a ++ "_" := fun h => hplain a (h ▸ hb)
      have hnot' : stem a ≠ stem b ++ "_" := fun h => hplain b (h ▸ ha)
      simp [ha, hb, hnot, hnot', String.append_left_inj]
    · have hne : stem a ≠ stem b := fun h => hb (h ▸ ha)
      simp [ha, hb, hne, eq_comm]
  · by_cases hb : stem b ∈ keywords
    · have hne : stem a ≠ stem b := fun h => ha (h ▸ hb)
      simp [ha, hb, hne]
    · simp [ha, hb]

/-- What has the underscore behind the keyword is an identifier from the beginning. -/
theorem stem_eq_append_iff {a b : String} : (stem a ∈ keywords ∧ stem b = stem a ++ "_") ↔
    Text.isIdentifier b = true ∧ stem a ∈ keywords ∧ b = stem a ++ "_" := by
  constructor
  · rintro ⟨hword, h⟩
    have hb := isIdentifier_of_stem_eq_append hword h
    exact ⟨hb, hword, (stem_of_isIdentifier hb).symm.trans h⟩
  · rintro ⟨hb, hword, h⟩
    exact ⟨hword, (stem_of_isIdentifier hb).trans h⟩

/-- **Two texts have one component name if they meet.** -/
theorem componentName_eq_iff {a b : String} (hne : a ≠ b) : componentName a = componentName b ↔ Meet a b := by
  rw [componentName_eq_iff_stem, stem_eq_iff hne, stem_eq_append_iff, stem_eq_append_iff, or_assoc, or_or_or_comm,
    ← and_or_left, ← and_or_left]
  rfl

end Java

/-! ## C# -/

namespace CSharp

/-- Two texts are the same but for the case of their first letters. -/
def SameButInitial (a b : String) : Prop :=
  ∃ c d rest, a.toList = c :: rest ∧ b.toList = d :: rest ∧ c.toUpper = d.toUpper

/-- A text that is no word is renamed to what a word is written as with a capital letter. -/
def RenamedTo (text word : String) : Prop :=
  Text.isWord text = false ∧ Text.isWord word = true ∧ pascalName text = Text.capitalized word

/-- Two texts have the same name: both are words and differ in the case of their first letters, neither is a word and
their letters are the same, or one is renamed to the other. -/
def Meet (a b : String) : Prop :=
  (Text.isWord a = true ∧ Text.isWord b = true ∧ SameButInitial a b) ∨
    (Text.isWord a = false ∧ Text.isWord b = false ∧ letters a = letters b) ∨ RenamedTo a b ∨ RenamedTo b a

theorem capitalized_eq_iff {a b : String} (ha : Text.isWord a = true) (hb : Text.isWord b = true) :
    Text.capitalized a = Text.capitalized b ↔ SameButInitial a b := by
  obtain ⟨c, rest, hc, -, -⟩ := Text.isWord_iff_spelled.1 ha
  obtain ⟨d, rest', hd, -, -⟩ := Text.isWord_iff_spelled.1 hb
  rw [← String.toList_inj, Text.toList_capitalized hc, Text.toList_capitalized hd, List.cons.injEq]
  unfold SameButInitial
  rw [hc, hd]
  constructor
  · rintro ⟨hupper, rfl⟩
    exact ⟨c, d, rest, rfl, rfl, hupper⟩
  · rintro ⟨_, _, _, hleft, hright, hupper⟩
    cases hleft
    cases hright
    exact ⟨hupper, rfl⟩

/-- **Two texts have one property name if they meet.** -/
theorem propertyName_eq_iff (a b : String) : propertyName a = propertyName b ↔ Meet a b := by
  unfold Meet RenamedTo
  cases ha : Text.isWord a with
  | true =>
    cases hb : Text.isWord b with
    | true => simp [propertyName_of_isWord ha, propertyName_of_isWord hb, capitalized_eq_iff ha hb]
    | false => simp [propertyName_of_isWord ha, propertyName_of_not_isWord hb, eq_comm]
  | false =>
    cases hb : Text.isWord b with
    | true => simp [propertyName_of_not_isWord ha, propertyName_of_isWord hb]
    | false => simp [propertyName_of_not_isWord ha, propertyName_of_not_isWord hb, Naming.pascalName_eq_iff]

end CSharp

/-! ## Records -/

/-- **The fields of a record are apart if no two properties meet.** The declaration of a record with distinct property
names has one field for each property, under the name that is made of the property's name alone. These names are
distinct in Java, and in C#, if and only if no two properties meet there. -/
theorem record_fields_apart_iff (s : TypeSystem) (d : Definition) (r : Record) (hd : d.body = .record r)
    (hnames : (r.properties.map (·.name)).Nodup) :
    ((Java.declaration s d).lines = documented Comment.block 0 d.description ++
        Java.recordLines s d r.properties (Java.fieldNames r.properties) ∧
      (Java.fieldNames r.properties).length = r.properties.length ∧
      ((Java.fieldNames r.properties).Nodup ↔ (r.properties.map (·.name)).Pairwise fun a b => ¬Java.Meet a b)) ∧
    ((CSharp.declaration s d).lines = documented Comment.summary 0 d.description ++
        CSharp.recordLines s d r.properties (CSharp.fieldNames r.properties) ∧
      (CSharp.fieldNames r.properties).length = r.properties.length ∧
      ((CSharp.fieldNames r.properties).Nodup ↔
        (r.properties.map (·.name)).Pairwise fun a b => ¬CSharp.Meet a b)) := by
  refine ⟨⟨Java.lines_record s hd, List.length_map _, ?_⟩, ⟨CSharp.lines_record s hd, List.length_map _, ?_⟩⟩
  · rw [Java.fieldNames, ← map_map_name]
    exact nodup_map_iff (fun a b hne => Java.componentName_eq_iff hne) hnames
  · rw [CSharp.fieldNames, ← map_map_name]
    exact nodup_map_iff (fun a b _ => CSharp.propertyName_eq_iff a b) hnames

/-- A record with a keyword, the keyword with an underscore, and the keyword with a capital letter. -/
def defaults : Definition :=
  .record "Defaults" [⟨"default", .primitive "string", true, none⟩, ⟨"default_", .primitive "string", true, none⟩,
    ⟨"Default", .primitive "string", true, none⟩]

theorem record_fields_apart_iff_defaults :
    defaults.body = .record ⟨defaults.properties, none, false⟩ ∧ (defaults.properties.map (·.name)).Nodup ∧
      Java.Meet "default" "default_" ∧ ¬(Java.fieldNames defaults.properties).Nodup ∧
      CSharp.Meet "default" "Default" ∧ ¬(CSharp.fieldNames defaults.properties).Nodup := by
  have hnames : (defaults.properties.map (·.name)).Nodup := by decide
  obtain ⟨⟨-, -, hjava⟩, ⟨-, -, hcsharp⟩⟩ :=
    record_fields_apart_iff ⟨none, [defaults]⟩ defaults ⟨defaults.properties, none, false⟩ rfl hnames
  have hmeet : Java.Meet "default" "default_" :=
    .inr (.inl ⟨by decide, .inr ⟨by decide, by decide⟩⟩)
  have hmeet' : CSharp.Meet "default" "Default" :=
    .inl ⟨by decide, by decide, 'd', 'D', "efault".toList, rfl, rfl, rfl⟩
  refine ⟨rfl, hnames, hmeet, fun h => ?_, hmeet', fun h => ?_⟩
  · have hapart := hjava.1 h
    simp only [defaults, Definition.record, Definition.properties, List.map_cons, List.pairwise_cons] at hapart
    exact hapart.1 "default_" (by simp) hmeet
  · have hapart := hcsharp.1 h
    simp only [defaults, Definition.record, Definition.properties, List.map_cons, List.pairwise_cons] at hapart
    exact hapart.1 "Default" (by simp) hmeet'

/-- **Three words share two names.** Nothing is reported of the record, its properties have distinct names, and in both
languages two of its fields are declared under one name. -/
theorem defaults_share_fields :
    let s := TypeSystem.ofDefinitions none [defaults]
    (s.validate "").entries = [] ∧ (defaults.properties.map (·.name)).Nodup ∧
      (Java.fieldNames defaults.properties = ["default_", "default_", "Default"] ∧
        ¬(Java.fieldNames defaults.properties).Nodup ∧
        ⟨1, "@JsonProperty(\"default\") String default_,"⟩ ∈ (Java.declaration s defaults).lines ∧
        ⟨1, "@JsonProperty(\"default_\") String default_,"⟩ ∈ (Java.declaration s defaults).lines) ∧
      (CSharp.fieldNames defaults.properties = ["Default", "Default_", "Default"] ∧
        ¬(CSharp.fieldNames defaults.properties).Nodup ∧
        (CSharp.declaration s defaults).lines.count ⟨1, "public required string Default \x7b get; set; \x7d"⟩ = 2) := by
  intro s
  have hjava : Java.fieldNames defaults.properties = ["default_", "default_", "Default"] := by decide
  have hcsharp : CSharp.fieldNames defaults.properties = ["Default", "Default_", "Default"] := by decide
  refine ⟨by decide, by decide, ⟨hjava, ?_, by decide, by decide⟩, hcsharp, ?_,
    by decide⟩
  · rw [hjava]
    decide
  · rw [hcsharp]
    decide

end TypeBindings
