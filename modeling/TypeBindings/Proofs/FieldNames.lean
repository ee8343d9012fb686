import TypeBindings.Proofs.EnumMembers

/-!
# Names of fields

A field has a name that is made of one text alone. In Java a text that is an identifier stays, any other text becomes
one that begins with a small letter, and an underscore is put behind a keyword (`Java.componentName_eq`). In C# the name
begins with a capital letter or an underscore, and no keyword does (`CSharp.spelled_propertyName`). So the names of
fields are legal, whatever the text (`field_names_legal`).
-/

namespace TypeBindings

open Text (Spelled startsWord inWord)

namespace Naming

/-! ## Large and small first letters -/

theorem opensName_toUpper {c : Char} (h : startsWord c = true) : opensName c.toUpper = true := by
  rw [startsWord, Bool.or_eq_true, beq_iff_eq] at h
  rcases h with hletter | rfl
  · rw [opensName, Char.isUpper_toUpper_eq_isAlpha, hletter, Bool.true_or]
  · rfl

theorem toUpper_of_opensName {c : Char} (h : opensName c = true) : c.toUpper = c :=
  Char.toUpper_eq_of_not_isLower (Bool.eq_false_iff.1 (isLower_of_inConstant (inConstant_of_opensName h)))

theorem startsWord_toLower {c : Char} (h : opensName c = true) : startsWord c.toLower = true := by
  rw [opensName, Bool.or_eq_true, beq_iff_eq] at h
  rcases h with hupper | rfl
  · rw [startsWord, Char.isAlpha_toLower_eq_isAlpha, Char.isAlpha, hupper, Bool.true_or, Bool.true_or]
  · rfl

end Naming

theorem Text.toList_capitalized {text : String} {c : Char} {rest : List Char} (h : text.toList = c :: rest) :
    (Text.capitalized text).toList = c.toUpper :: rest := by
  rw [Text.capitalized, h]
  exact String.toList_ofList

theorem Java.toList_smallInitial {text : String} {c : Char} {rest : List Char} (h : text.toList = c :: rest) :
    (Java.smallInitial text).toList = c.toLower :: rest := by
  rw [Java.smallInitial, h]
  exact String.toList_ofList

/-! ## Java -/

namespace Java

/-- The identifier that a text has if keywords are not looked at. -/
def stem (name : String) : String :=
  if Text.isIdentifier name then name else smallInitial (Naming.pascalName name)

theorem stem_of_isIdentifier {name : String} (h : Text.isIdentifier name = true) : stem name = name :=
  if_pos h

theorem stem_of_not_isIdentifier {name : String} (h : Text.isIdentifier name = false) :
    stem name = smallInitial (Naming.pascalName name) :=
  if_neg (Bool.eq_false_iff.1 h)

theorem isIdentifier_stem (name : String) : Text.isIdentifier (stem name) = true := by
  by_cases h : Text.isIdentifier name = true
  · rw [stem_of_isIdentifier h, h]
  · rw [stem_of_not_isIdentifier (Bool.eq_false_iff.2 h)]
    obtain ⟨c, rest, hname, hc, hrest⟩ := Naming.spelled_pascalName name
    have hword : Spelled startsWord inWord (smallInitial (Naming.pascalName name)) :=
      ⟨c.toLower, rest, toList_smallInitial hname, Naming.startsWord_toLower hc, hrest⟩
    exact Text.isIdentifier_of_isWord (Text.isWord_iff_spelled.2 hword)

theorem componentName_eq (name : String) :
    componentName name = if stem name ∈ keywords then stem name ++ "_" else stem name := by
  unfold componentName
  simp only [List.contains_iff_mem]
  rfl

theorem isPlainName_append_underscore {base : String} (h : Text.isIdentifier base = true) :
    isPlainName (base ++ "_") = true := by
  refine isPlainName_append h (fun c hc => ?_) (List.mem_singleton_self _)
  cases List.mem_singleton.1 hc
  rfl

/-- **Components have plain names.** -/
theorem isPlainName_componentName (name : String) : isPlainName (componentName name) = true := by
  rw [componentName_eq]
  split
  · exact isPlainName_append_underscore (isIdentifier_stem name)
  · rename_i hnot
    exact isPlainName_iff.2 ⟨isIdentifier_stem name, hnot⟩

/-- The texts that stay are the plain names. -/
theorem componentName_eq_self_iff {name : String} : componentName name = name ↔ isPlainName name = true := by
  constructor
  · intro h
    rw [← h]
    exact isPlainName_componentName name
  · intro h
    obtain ⟨hidentifier, hnot⟩ := isPlainName_iff.1 h
    rw [componentName_eq, stem_of_isIdentifier hidentifier, if_neg hnot]

end Java

/-! ## C# -/

namespace CSharp

theorem propertyName_of_isWord {name : String} (h : Text.isWord name = true) :
    propertyName name = Text.capitalized name :=
  if_pos h

theorem propertyName_of_not_isWord {name : String} (h : Text.isWord name = false) :
    propertyName name = Naming.pascalName name :=
  if_neg (Bool.eq_false_iff.1 h)

/-- **Properties have names** that begin with no small letter. -/
theorem spelled_propertyName (name : String) : Spelled Naming.opensName inWord (propertyName name) := by
  by_cases h : Text.isWord name = true
  · rw [propertyName_of_isWord h]
    obtain ⟨c, rest, hname, hc, hrest⟩ := Text.isWord_iff_spelled.1 h
    exact ⟨c.toUpper, rest, Text.toList_capitalized hname, Naming.opensName_toUpper hc, hrest⟩
  · rw [propertyName_of_not_isWord (Bool.eq_false_iff.2 h)]
    exact Naming.spelled_pascalName name

theorem isWord_propertyName (name : String) : Text.isWord (propertyName name) = true :=
  Text.isWord_iff_spelled.2 ((spelled_propertyName name).mono (fun _ => Naming.startsWord_of_opensName) fun _ h => h)

theorem propertyName_not_mem_keywords (name : String) : propertyName name ∉ keywords :=
  Naming.not_mem_keywords_of_spelled allLower_keywords (spelled_propertyName name)

/-- The texts that stay are the words that begin with no small letter. -/
theorem propertyName_eq_self_iff {name : String} : propertyName name = name ↔ Spelled Naming.opensName inWord name := by
  constructor
  · intro h
    rw [← h]
    exact spelled_propertyName name
  · intro h
    have hword : Text.isWord name = true :=
      Text.isWord_iff_spelled.2 (h.mono (fun _ => Naming.startsWord_of_opensName) fun _ h => h)
    obtain ⟨c, rest, hname, hc, -⟩ := h
    apply String.toList_injective
    rw [propertyName_of_isWord hword, Text.toList_capitalized hname, Naming.toUpper_of_opensName hc, hname]

end CSharp

/-- A word has no dollar sign in it. -/
theorem Text.not_mem_of_isWord {text : String} (h : Text.isWord text = true) : '$' ∉ text.toList := by
  obtain ⟨c, rest, htext, hc, hrest⟩ := Text.isWord_iff_spelled.1 h
  rw [htext]
  intro hmem
  rcases List.mem_cons.1 hmem with rfl | hmem
  · exact absurd hc (by decide)
  · exact absurd (hrest '$' hmem) (by decide)

/-- **Fields have legal names in Java and C#.** The name of a component is an identifier and no keyword, and those texts
stay as they are that are such names already. The name of a property is an identifier without dollar signs and no
keyword, and those words stay that begin with no small letter. -/
theorem field_names_legal (name : String) :
    (Java.isPlainName (Java.componentName name) = true ∧ Text.isIdentifier (Java.componentName name) = true ∧
      Java.componentName name ∉ Java.keywords ∧ (Java.componentName name = name ↔ Java.isPlainName name = true)) ∧
    (CSharp.isPlainName (CSharp.propertyName name) = true ∧ Text.IsWord (CSharp.propertyName name) ∧
      '$' ∉ (CSharp.propertyName name).toList ∧ CSharp.propertyName name ∉ CSharp.keywords ∧
      (CSharp.propertyName name = name ↔ Spelled Naming.opensName inWord name)) := by
  have hjava := Java.isPlainName_componentName name
  have hword := CSharp.isWord_propertyName name
  have hkeyword := CSharp.propertyName_not_mem_keywords name
  exact ⟨⟨hjava, (Java.isPlainName_iff.1 hjava).1, (Java.isPlainName_iff.1 hjava).2, Java.componentName_eq_self_iff⟩,
    CSharp.isPlainName_iff.2 ⟨hword, hkeyword⟩, (Text.isWord_iff _).1 hword, Text.not_mem_of_isWord hword, hkeyword,
    CSharp.propertyName_eq_self_iff⟩

/-- Keywords, texts that become keywords, and texts without letters. -/
example :
    (["tabId", "content-type", "default", "new-", "--", "2x", "a$b", "_"].map Java.componentName =
      ["tabId", "contentType", "default_", "new_", "__", "_2x", "a$b", "__"]) ∧
    (["tabId", "content-type", "default", "new-", "--", "2x", "a$b", "_"].map CSharp.propertyName =
      ["TabId", "ContentType", "Default", "New", "_", "_2x", "AB", "_"]) := by
  decide

end TypeBindings
