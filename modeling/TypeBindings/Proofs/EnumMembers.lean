import TypeBindings.Backend
import TypeBindings.Proofs.Breaches
import TypeBindings.Proofs.Identifiers
import TypeBindings.Proofs.MemberNames

/-!
# Members of enumerations

Keywords are written in small letters. What a value is renamed to begins with none, and a number stands behind an
underscore, so in Kotlin and C# every member of an enumeration has a name that is no keyword
(`enum_members_legal`). In Java a single underscore is a keyword too, and it is what a value without letters and digits
is renamed to: the first such value has no legal name, and all others have one (`Java.enum_constants_legal_iff`).
-/

namespace TypeBindings

/-- The lines of the members of an enumeration: a tag with the value, and the name below it. -/
def valueLines (tag : String → String) (values names : List String) : List Line :=
  (values.zip names).flatMap fun member => [⟨1, tag member.1⟩, ⟨1, member.2 ++ ","⟩]

/-! ## Names that are no keywords -/

/-- The words are written in small letters. -/
def allLower (words : List String) : Bool :=
  words.all fun word => word.toList.all Char.isLower

theorem plain_iff {good : Bool} {keywords : List String} {name : String} :
    (good && !keywords.contains name) = true ↔ good = true ∧ name ∉ keywords := by
  simp

namespace Naming

open Text (Spelled startsWord inWord isWord)

section Keywords

variable {keywords : List String} (hkeywords : allLower keywords = true)

include hkeywords

theorem not_mem_keywords {name : String} {c : Char} (hc : c ∈ name.toList) (hlower : c.isLower = false) :
    name ∉ keywords := by
  intro hname
  have hword := List.all_eq_true.1 (List.all_eq_true.1 hkeywords name hname) c hc
  rw [hword] at hlower
  cases hlower

theorem not_mem_keywords_of_spelled {later : Char → Bool} {name : String} (h : Spelled opensName later name) :
    name ∉ keywords := by
  obtain ⟨c, rest, hname, hc, -⟩ := h
  refine not_mem_keywords hkeywords (c := c) ?_ (isLower_of_inConstant (inConstant_of_opensName hc))
  rw [hname]
  exact List.mem_cons_self

theorem not_mem_keywords_suffix (base : String) (n : Nat) : base ++ "_" ++ toString n ∉ keywords :=
  not_mem_keywords hkeywords (c := '_') (by simp) rfl

/-- **Members have legal names** if words that are no keywords are kept, and other values are renamed to words that
begin with no small letter. -/
theorem legal_memberNames {keep : String → Bool} {rename : String → String}
    (hkeep : ∀ value, keep value = true ↔ isWord value = true ∧ value ∉ keywords)
    (hrename : ∀ value, Spelled opensName inWord (rename value)) (values : List String) :
    ∀ name ∈ memberNames keep rename values, isWord name = true ∧ name ∉ keywords := by
  refine forall_mem_memberNames (fun value hvalue => (hkeep value).1 hvalue) (fun value => ?_) fun base n hbase => ?_
  · have hword := (hrename value).mono (fun c => startsWord_of_opensName) fun c h => h
    exact ⟨Text.isWord_iff_spelled.2 hword, not_mem_keywords_of_spelled hkeywords (hrename value)⟩
  · have hword := (Text.isWord_iff_spelled.1 hbase.1).suffix (fun c h => h) n
    exact ⟨Text.isWord_iff_spelled.2 hword, not_mem_keywords_suffix hkeywords base n⟩

end Keywords

end Naming

/-! ## Kotlin and C# -/

namespace Kotlin

/-- The names of the members of an enumeration. -/
def enumNames (values : List String) : List String :=
  Naming.memberNames isPlainName Naming.constantName values

/-- The lines of an enumeration whose members have the given names. -/
def enumLines (name : String) (values names : List String) : List Line :=
  ⟨0, "@Serializable"⟩ :: ⟨0, "enum class " ++ name ++ " \x7b"⟩ ::
    valueLines (fun value => "@SerialName(" ++ Literal.doubleQuoted value ++ ")") values names ++ [⟨0, "\x7d"⟩]

theorem lines_enumeration (s : TypeSystem) {d : Definition} {values : List String} (hd : d.body = .enumeration values) :
    (declaration s d).lines =
      documented Comment.block 0 d.description ++ enumLines d.name values (enumNames values) := by
  unfold declaration bodyLines
  rw [hd]
  rfl

theorem isPlainName_iff {name : String} : isPlainName name = true ↔ Text.isWord name = true ∧ name ∉ keywords :=
  plain_iff

theorem allLower_keywords : allLower keywords = true := by
  simp [allLower, keywords, Char.isLower]

theorem legal_of_mem_enumNames (values : List String) :
    ∀ name ∈ enumNames values, Text.isWord name = true ∧ name ∉ keywords :=
  Naming.legal_memberNames allLower_keywords (fun _ => isPlainName_iff)
    (fun value => (Naming.spelled_constantName value).mono (fun _ h => h) fun _ => Naming.inWord_of_inConstant) values

end Kotlin

namespace CSharp

/-- The names of the members of an enumeration. -/
def enumNames (values : List String) : List String :=
  Naming.memberNames isPlainName Naming.pascalName values

/-- The lines of an enumeration whose members have the given names. -/
def enumLines (name : String) (values names : List String) : List Line :=
  ⟨0, "[JsonConverter(typeof(JsonStringEnumConverter))]"⟩ :: ⟨0, "public enum " ++ name⟩ :: ⟨0, "\x7b"⟩ ::
    valueLines (fun value => "[JsonStringEnumMemberName(" ++ Literal.doubleQuoted value ++ ")]") values names ++
      [⟨0, "\x7d"⟩]

theorem lines_enumeration (s : TypeSystem) {d : Definition} {values : List String} (hd : d.body = .enumeration values) :
    (declaration s d).lines =
      documented Comment.summary 0 d.description ++ enumLines d.name values (enumNames values) := by
  unfold declaration bodyLines
  rw [hd]
  rfl

theorem isPlainName_iff {name : String} : isPlainName name = true ↔ Text.isWord name = true ∧ name ∉ keywords :=
  plain_iff

theorem allLower_keywords : allLower keywords = true := by
  simp [allLower, keywords, Char.isLower]

theorem legal_of_mem_enumNames (values : List String) :
    ∀ name ∈ enumNames values, Text.isWord name = true ∧ name ∉ keywords :=
  Naming.legal_memberNames allLower_keywords (fun _ => isPlainName_iff) Naming.spelled_pascalName values

end CSharp

/-- **Members have legal names in Kotlin and C#.** The declaration of an enumeration has one member for each value, and
the name of each is an identifier without dollar signs and no keyword. -/
theorem enum_members_legal (s : TypeSystem) (d : Definition) (values : List String) (hd : d.body = .enumeration values) :
    ((Kotlin.declaration s d).lines = documented Comment.block 0 d.description ++
        Kotlin.enumLines d.name values (Kotlin.enumNames values) ∧
      (Kotlin.enumNames values).length = values.length ∧
      ∀ name ∈ Kotlin.enumNames values, Kotlin.isPlainName name = true ∧ Text.IsWord name ∧ name ∉ Kotlin.keywords) ∧
    ((CSharp.declaration s d).lines = documented Comment.summary 0 d.description ++
        CSharp.enumLines d.name values (CSharp.enumNames values) ∧
      (CSharp.enumNames values).length = values.length ∧
      ∀ name ∈ CSharp.enumNames values, CSharp.isPlainName name = true ∧ Text.IsWord name ∧ name ∉ CSharp.keywords) := by
  refine ⟨⟨Kotlin.lines_enumeration s hd, (Naming.named_memberNames _ _ _).length, fun name hname => ?_⟩,
    ⟨CSharp.lines_enumeration s hd, (Naming.named_memberNames _ _ _).length, fun name hname => ?_⟩⟩
  · have hlegal := Kotlin.legal_of_mem_enumNames values name hname
    exact ⟨Kotlin.isPlainName_iff.2 hlegal, (Text.isWord_iff name).1 hlegal.1, hlegal.2⟩
  · have hlegal := CSharp.legal_of_mem_enumNames values name hname
    exact ⟨CSharp.isPlainName_iff.2 hlegal, (Text.isWord_iff name).1 hlegal.1, hlegal.2⟩

/-- Values that are keywords, come twice, begin with a digit or have no letters. -/
def awkward : Definition :=
  .enumeration "Awkward" ["true", "in", "in", "2fa", "--", "_", "TRUE", "$"]

theorem enum_members_legal_awkward :
    awkward.body = .enumeration awkward.values ∧
      (Kotlin.enumNames awkward.values = ["TRUE_2", "IN", "IN_2", "_2FA", "__2", "_", "TRUE", "__3"] ∧
        Kotlin.isPlainName "TRUE_2" = true ∧ "TRUE_2" ∉ Kotlin.keywords) ∧
      (CSharp.enumNames awkward.values = ["True", "In", "In_2", "_2fa", "__2", "_", "TRUE", "__3"] ∧
        CSharp.isPlainName "In_2" = true ∧ "In_2" ∉ CSharp.keywords) := by
  obtain ⟨⟨-, -, hkotlin⟩, ⟨-, -, hcsharp⟩⟩ := enum_members_legal ⟨none, [awkward]⟩ awkward awkward.values rfl
  have hkotlinNames : Kotlin.enumNames awkward.values =
      ["TRUE_2", "IN", "IN_2", "_2FA", "__2", "_", "TRUE", "__3"] := by decide
  have hcsharpNames : CSharp.enumNames awkward.values =
      ["True", "In", "In_2", "_2fa", "__2", "_", "TRUE", "__3"] := by decide
  rw [hkotlinNames] at hkotlin
  rw [hcsharpNames] at hcsharp
  have hfirst := hkotlin "TRUE_2" (by decide)
  have hthird := hcsharp "In_2" (by decide)
  exact ⟨rfl, ⟨hkotlinNames, hfirst.1, hfirst.2.2⟩, ⟨hcsharpNames, hthird.1, hthird.2.2⟩⟩

/-! ## Java -/

namespace Java

open Text (Spelled inWord)

/-- The names of the members of an enumeration. -/
def enumNames (values : List String) : List String :=
  Naming.memberNames isPlainName Naming.constantName values

/-- The lines of an enumeration whose members have the given names. -/
def enumLines (name : String) (values names : List String) : List Line :=
  ⟨0, "public enum " ++ name ++ " \x7b"⟩ ::
    valueLines (fun value => "@JsonProperty(" ++ Literal.doubleQuoted value ++ ")") values names ++ [⟨0, "\x7d"⟩]

theorem lines_enumeration (s : TypeSystem) {d : Definition} {values : List String} (hd : d.body = .enumeration values) :
    (declaration s d).lines =
      documented Comment.block 0 d.description ++ enumLines d.name values (enumNames values) := by
  unfold declaration bodyLines
  rw [hd]
  rfl

theorem isPlainName_iff {name : String} : isPlainName name = true ↔ Text.isIdentifier name = true ∧ name ∉ keywords :=
  plain_iff

/-- All keywords but the first, which is a single underscore, are written in small letters. -/
theorem allLower_keywords : allLower keywords.tail = true := by
  simp [allLower, keywords, Char.isLower]

theorem mem_keywords_iff {name : String} : name ∈ keywords ↔ name = "_" ∨ name ∈ keywords.tail :=
  List.mem_cons

theorem not_isPlainName_underscore : isPlainName "_" = false := by decide

theorem isIdentifier_of_plain_or_underscore {name : String} (h : isPlainName name = true ∨ name = "_") :
    Text.isIdentifier name = true := by
  rcases h with h | rfl
  · exact (isPlainName_iff.1 h).1
  · decide

/-- Word characters with an underscore among them, behind an identifier, make it a plain name. -/
theorem isPlainName_append {base tail : String} (h : Text.isIdentifier base = true)
    (htail : ∀ c ∈ tail.toList, inWord c = true) (hbar : '_' ∈ tail.toList) : isPlainName (base ++ tail) = true := by
  have hspelled := (Text.isIdentifier_iff_spelled.1 h).append fun c hc => by rw [htail c hc, Bool.true_or]
  refine isPlainName_iff.2 ⟨Text.isIdentifier_iff_spelled.2 hspelled, fun hmem => ?_⟩
  rcases mem_keywords_iff.1 hmem with hname | hname
  · -- the underscore cannot be the only character
    have hlength := congrArg String.length hname
    rw [String.length_append] at hlength
    have hone : "_".length = 1 := rfl
    have hbase : base.length ≠ 0 := by
      intro hzero
      rw [String.length_eq_zero_iff.1 hzero] at h
      cases h
    have hpositive : tail.length ≠ 0 := by
      intro hzero
      rw [String.length_eq_zero_iff.1 hzero] at hbar
      cases hbar
    omega
  · refine Naming.not_mem_keywords allLower_keywords (c := '_') ?_ rfl hname
    rw [String.toList_append]
    exact List.mem_append_right _ hbar

/-- A number behind an identifier makes it a plain name. -/
theorem isPlainName_suffix {base : String} (h : Text.isIdentifier base = true) (n : Nat) :
    isPlainName (base ++ "_" ++ toString n) = true := by
  rw [String.append_assoc]
  refine isPlainName_append h (fun c hc => ?_) ?_
  · rw [String.toList_append] at hc
    rcases List.mem_append.1 hc with hc | hc
    · cases List.mem_singleton.1 hc
      rfl
    · exact Text.inWord_of_isDigit (Naming.isDigit_of_mem_toString hc)
  · rw [String.toList_append]
    exact List.mem_append_left _ (List.mem_singleton_self _)

theorem isPlainName_constantName {value : String} (h : Naming.constantName value ≠ "_") :
    isPlainName (Naming.constantName value) = true := by
  have hspelled := Naming.spelled_constantName value
  have hword : Text.isWord (Naming.constantName value) = true :=
    Text.isWord_iff_spelled.2
      (hspelled.mono (fun _ => Naming.startsWord_of_opensName) fun _ => Naming.inWord_of_inConstant)
  refine isPlainName_iff.2 ⟨Text.isIdentifier_of_isWord hword, fun hmem => ?_⟩
  rcases mem_keywords_iff.1 hmem with hname | hname
  · exact h hname
  · exact Naming.not_mem_keywords_of_spelled allLower_keywords hspelled hname

theorem plain_or_underscore_constantName (value : String) :
    isPlainName (Naming.constantName value) = true ∨ Naming.constantName value = "_" := by
  by_cases hname : Naming.constantName value = "_"
  · exact .inr hname
  · exact .inl (isPlainName_constantName hname)

/-- A member has a plain name or a single underscore. -/
theorem plain_or_underscore (values : List String) :
    ∀ name ∈ enumNames values, isPlainName name = true ∨ name = "_" :=
  Naming.forall_mem_memberNames (fun _ h => .inl h) plain_or_underscore_constantName fun _ n hbase =>
    .inl (isPlainName_suffix (isIdentifier_of_plain_or_underscore hbase) n)

/-! ### Values without a name -/

/-- A value that is no plain name and has no letter or digit to make one of. -/
def Nameless (value : String) : Prop :=
  isPlainName value = false ∧ ∀ c ∈ value.toList, c.isAlphanum = false

instance (value : String) : Decidable (Nameless value) :=
  decidable_of_iff (isPlainName value = false ∧ value.toList.all (!Char.isAlphanum ·) = true) (by simp [Nameless])

section Nameless

variable {values before names : List String} {value name : String}

/-- Only a value without a name of its own is named by an underscore. -/
theorem nameless_of_underscore (h : Naming.IsMemberName isPlainName Naming.constantName values before names value "_")
    (hvalue : value ∈ values) : Nameless value := by
  rcases h.kept_renamed_or_numbered hvalue with ⟨hkeep, rfl⟩ | ⟨hkeep, hname⟩ | ⟨n, hname⟩
  · rw [not_isPlainName_underscore] at hkeep
    cases hkeep
  · exact ⟨hkeep, Naming.constantName_eq_underscore_iff.1 hname.symm⟩
  · have hbase := Naming.preferred_spec (P := fun name => isPlainName name = true ∨ name = "_") (fun _ h => .inl h)
      plain_or_underscore_constantName value
    have hplain := isPlainName_suffix (isIdentifier_of_plain_or_underscore hbase) n
    rw [← hname, not_isPlainName_underscore] at hplain
    cases hplain

/-- A value without a name of its own is named by an underscore, unless one before it is. -/
theorem Nameless.underscore_or_taken (hvalue : Nameless value)
    (h : Naming.IsMemberName isPlainName Naming.constantName values before names value name) :
    name = "_" ∨ "_" ∈ names := by
  have hpreferred : Naming.preferred isPlainName Naming.constantName value = "_" := by
    rw [Naming.preferred, hvalue.1, if_neg Bool.false_ne_true]
    exact Naming.constantName_eq_underscore_iff.2 hvalue.2
  by_cases hmem : "_" ∈ names
  · exact .inr hmem
  · have hfree : Naming.Free isPlainName values names "_" :=
      ⟨fun hkept => absurd hkept.2 (by rw [not_isPlainName_underscore]; exact Bool.false_ne_true), hmem⟩
    have hnot : ¬(isPlainName value = true ∧ value ∉ before) := by
      rw [hvalue.1]
      exact fun hfirst => Bool.false_ne_true hfirst.1
    rw [Naming.IsMemberName, if_neg hnot, hpreferred, if_pos hfree] at h
    exact .inl h

end Nameless

/-- **The first value without a name is named by an underscore, and no other value is.** -/
theorem enumNames_eq_underscore_iff {values : List String} {k : Nat} {value name : String}
    (hvalue : values[k]? = some value) (hname : (enumNames values)[k]? = some name) :
    name = "_" ↔ Nameless value ∧ ∀ earlier ∈ values.take k, ¬Nameless earlier := by
  have hnamed : Naming.Named isPlainName Naming.constantName values values (enumNames values) :=
    Naming.named_memberNames isPlainName Naming.constantName values
  constructor
  · rintro rfl
    refine ⟨nameless_of_underscore (hnamed.isMemberName hvalue hname) (List.mem_of_getElem? hvalue), ?_⟩
    -- an earlier value of that kind would have the underscore, or one before it would
    intro earlier hearlier hnameless
    obtain ⟨j, hj, hvalue'⟩ := Naming.mem_take_iff.1 hearlier
    obtain ⟨other, hother, his⟩ := hnamed.name j earlier hvalue'
    have htaken : "_" ∈ (enumNames values).take k := by
      rcases hnameless.underscore_or_taken his with rfl | htaken
      · exact Naming.mem_take_iff.2 ⟨j, hj, hother⟩
      · exact List.take_subset_take_left _ (Nat.le_of_lt hj) htaken
    obtain ⟨i, hi, hname'⟩ := Naming.mem_take_iff.1 htaken
    have hne := List.nodup_iff_getElem?_ne_getElem?.1 hnamed.nodup i k hi (List.getElem?_eq_some_iff.1 hname).1
    exact hne (hname'.trans hname.symm)
  · rintro ⟨hnameless, hfirst⟩
    rcases hnameless.underscore_or_taken (hnamed.isMemberName hvalue hname) with h | htaken
    · exact h
    · obtain ⟨j, hj, hname'⟩ := Naming.mem_take_iff.1 htaken
      have hlt : j < values.length := hnamed.length ▸ (List.getElem?_eq_some_iff.1 hname').1
      have hvalue' : values[j]? = some values[j] := List.getElem?_eq_getElem hlt
      refine absurd (nameless_of_underscore (hnamed.isMemberName hvalue' hname') (List.getElem_mem hlt)) ?_
      exact hfirst _ (Naming.mem_take_iff.2 ⟨j, hj, hvalue'⟩)

/-- **Members have legal names in Java, all but one.** The declaration of an enumeration has one member for each value.
The name of each is an identifier and no keyword, but for the first value that is no such name itself and has no letter
or digit: its name is a single underscore. -/
theorem enum_constants_legal_iff (s : TypeSystem) (d : Definition) (values : List String)
    (hd : d.body = .enumeration values) :
    (declaration s d).lines =
        documented Comment.block 0 d.description ++ enumLines d.name values (enumNames values) ∧
      (enumNames values).length = values.length ∧
      ∀ k value, values[k]? = some value → ∃ name, (enumNames values)[k]? = some name ∧
        (isPlainName name = true ∧ Text.isIdentifier name = true ∧ name ∉ keywords ∨ name = "_" ∧ "_" ∈ keywords) ∧
        (isPlainName name = true ↔ ¬(Nameless value ∧ ∀ earlier ∈ values.take k, ¬Nameless earlier)) := by
  have hnamed := Naming.named_memberNames isPlainName Naming.constantName values
  refine ⟨lines_enumeration s hd, hnamed.length, fun k value hvalue => ?_⟩
  obtain ⟨name, hname, -⟩ := hnamed.name k value hvalue
  refine ⟨name, hname, ?_⟩
  rw [← enumNames_eq_underscore_iff hvalue hname]
  rcases plain_or_underscore values name (List.mem_of_getElem? hname) with hplain | hunderscore
  · have hne : name ≠ "_" := by
      rintro rfl
      rw [not_isPlainName_underscore] at hplain
      cases hplain
    exact ⟨.inl ⟨hplain, isPlainName_iff.1 hplain⟩, iff_of_true hplain hne⟩
  · refine ⟨.inr ⟨hunderscore, List.mem_cons_self⟩, iff_of_false ?_ (not_not.2 hunderscore)⟩
    rw [hunderscore, not_isPlainName_underscore]
    exact Bool.false_ne_true

/-- An enumeration with two values of punctuation marks. -/
def strokes : Definition :=
  .enumeration "Stroke" ["low", "--", "..", "class"]

theorem enum_constants_legal_iff_strokes :
    strokes.body = .enumeration strokes.values ∧ enumNames strokes.values = ["low", "_", "__2", "CLASS"] ∧
      (strokes.values[2]? = some ".." ∧ Nameless ".." ∧ Nameless "--" ∧ isPlainName "__2" = true) ∧
      strokes.values[1]? = some "--" ∧ ¬isPlainName "_" = true := by
  obtain ⟨-, -, hnames⟩ := enum_constants_legal_iff ⟨none, [strokes]⟩ strokes strokes.values rfl
  have hall : enumNames strokes.values = ["low", "_", "__2", "CLASS"] := by decide
  have hdots : Nameless ".." := by decide
  have hdashes : Nameless "--" := by decide
  obtain ⟨second, hsecond, -, hplain⟩ := hnames 2 ".." rfl
  obtain ⟨first, hfirst, -, hnot⟩ := hnames 1 "--" rfl
  rw [hall] at hsecond hfirst
  cases hsecond
  cases hfirst
  refine ⟨rfl, hall, ⟨rfl, hdots, hdashes, hplain.2 fun h => ?_⟩, rfl, fun h => hnot.1 h ⟨hdashes, ?_⟩⟩
  · exact h.2 "--" (by decide) hdashes
  · have hlow : ¬Nameless "low" := by decide
    exact List.forall_mem_singleton.2 hlow

/-- **Dashes have no legal name.** Their member is a single underscore, which is a keyword, and that is what is written
in the declaration. -/
theorem dashes_not_legal :
    enumNames ["--"] = ["_"] ∧ isPlainName "_" = false ∧ "_" ∈ keywords ∧
      ⟨1, "_,"⟩ ∈ (declaration ⟨none, []⟩ (.enumeration "Stroke" ["--"])).lines := by
  have hnames : enumNames ["--"] = ["_"] := by decide
  refine ⟨hnames, not_isPlainName_underscore, List.mem_cons_self, ?_⟩
  rw [lines_enumeration (d := .enumeration "Stroke" ["--"]) _ rfl, hnames]
  decide

end Java

end TypeBindings
