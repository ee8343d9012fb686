import TypeBindings.Proofs.EnumMembers
import TypeBindings.Proofs.Literals
import TypeBindings.Proofs.SealedUnions

/-!
# Names on the wire

In Java and C# an annotation keeps the name that a property or a value has on the wire, whatever the field or the member
is called. `annotations` looks for the lines that begin with the tag of such an annotation and reads the literal between
its brackets. In a declaration it finds one annotation for each property or value, in order, and reads from it exactly
the name (`wire_names_read_back`): no other line begins as an annotation does, and the literal ends where it should.
-/

namespace TypeBindings

/-- The names that a definition has on the wire: those of the properties of a record, and the values of an
enumeration. -/
def Definition.wireNames (d : Definition) : List String :=
  match d.body with
  | .record r => r.properties.map (·.name)
  | .enumeration values => values
  | .union _ => []

/-! ## Annotations -/

/-- The characters of a line behind the first of the tags that it begins with. -/
def behindTag? (tags : List String) (line : Line) : Option (List Char) :=
  tags.findSome? fun tag => tag.toList.isPrefixOf? line.text.toList

/-- The value of a literal with a closing bracket behind it. -/
def readArgument (cs : List Char) : Option String :=
  (Literal.readDouble cs).bind fun literal => if literal.2.head? = some ')' then some literal.1 else none

/-- What stands behind the given tags, in the order of the lines that have one. -/
def arguments (tags : List String) (lines : List Line) : List (List Char) :=
  lines.filterMap (behindTag? tags)

/-- What the annotations with the given tags say, in the order of their lines; `none` stands for an annotation that
cannot be read. -/
def annotations (tags : List String) (lines : List Line) : List (Option String) :=
  (arguments tags lines).map readArgument

section Annotations

variable {tags : List String}

theorem arguments_append (lines more : List Line) :
    arguments tags (lines ++ more) = arguments tags lines ++ arguments tags more :=
  List.filterMap_append

theorem arguments_cons (line : Line) (lines : List Line) :
    arguments tags (line :: lines) = arguments tags [line] ++ arguments tags lines :=
  arguments_append [line] lines

theorem annotations_append (lines more : List Line) :
    annotations tags (lines ++ more) = annotations tags lines ++ annotations tags more := by
  rw [annotations, arguments_append, List.map_append, annotations, annotations]

theorem annotations_cons (line : Line) (lines : List Line) :
    annotations tags (line :: lines) = annotations tags [line] ++ annotations tags lines :=
  annotations_append [line] lines

theorem readArgument_doubleQuoted (value : String) (after : List Char) :
    readArgument ((Literal.doubleQuoted value).toList ++ ')' :: after) = some value := by
  rw [readArgument, Literal.readDouble_doubleQuoted, Option.bind_some]
  exact if_pos rfl

/-- Of a line with a tag the rest is left, if the line begins with no tag before this. -/
theorem arguments_tagged (before more : List String) (tag : String) {rest : List Char} {line : Line}
    (hline : line.text.toList = tag.toList ++ rest)
    (hbefore : ∀ other ∈ before, other.toList.isPrefixOf? line.text.toList = none) :
    arguments (before ++ tag :: more) [line] = [rest] := by
  have htag : behindTag? (before ++ tag :: more) line = some rest :=
    List.findSome?_eq_some_iff.2
      ⟨before, tag, more, rfl, List.isPrefixOf?_eq_some_iff_append_eq.2 hline.symm, hbefore⟩
  rw [arguments, List.filterMap_cons_some htag, List.filterMap_nil]

/-- A line with a tag and a literal says what the literal was made of, if the line begins with no tag before this. -/
theorem annotations_tagged (before more : List String) (tag value : String) (after : List Char) {line : Line}
    (hline : line.text.toList = tag.toList ++ ((Literal.doubleQuoted value).toList ++ ')' :: after))
    (hbefore : ∀ other ∈ before, other.toList.isPrefixOf? line.text.toList = none) :
    annotations (before ++ tag :: more) [line] = [some value] := by
  rw [annotations, arguments_tagged before more tag hline hbefore, List.map_singleton, readArgument_doubleQuoted]

section Opening

variable {opening : Char} (htags : ∀ tag ∈ tags, tag.toList.head? = some opening)

include htags

/-- Lines that do not begin as the tags do have none. -/
theorem arguments_eq_nil {lines : List Line} (hlines : ∀ line ∈ lines, line.text.toList.head? ≠ some opening) :
    arguments tags lines = [] := by
  rw [arguments, List.filterMap_eq_nil_iff]
  intro line hline
  refine List.findSome?_eq_none_iff.2 fun tag htag => ?_
  rw [Option.eq_none_iff_forall_ne_some]
  intro rest hrest
  -- the line would begin with the first character of the tag
  have happend := List.isPrefixOf?_eq_some_iff_append_eq.1 hrest
  apply hlines line hline
  rw [← happend, List.head?_append, htags tag htag, Option.some_or]

theorem annotations_eq_nil {lines : List Line} (hlines : ∀ line ∈ lines, line.text.toList.head? ≠ some opening) :
    annotations tags lines = [] := by
  rw [annotations, arguments_eq_nil htags hlines, List.map_nil]

/-- Comments have no tags. -/
theorem arguments_documented_eq_nil {comment : String → List String}
    (hcomment : ∀ description, ∀ line ∈ comment description, line.toList.head? ≠ some opening) (depth : Nat)
    (description : Option String) : arguments tags (documented comment depth description) = [] := by
  refine arguments_eq_nil htags fun line hline => ?_
  unfold documented at hline
  split at hline
  · cases hline
  · obtain ⟨text, htext, rfl⟩ := List.mem_map.1 hline
    exact hcomment _ text htext

/-- Block comments have no tags that begin with anything else than a slash or a blank. -/
theorem arguments_documented_block (hslash : opening ≠ '/') (hblank : opening ≠ ' ') (depth : Nat)
    (description : Option String) : arguments tags (documented Comment.block depth description) = [] := by
  refine arguments_documented_eq_nil htags (fun _ line hline => ?_) depth description
  rcases Comment.head?_of_mem_block hline with hhead | hhead
  · rw [hhead]
    exact fun h => hslash (Option.some.inj h).symm
  · rw [hhead]
    exact fun h => hblank (Option.some.inj h).symm

/-- The members of an enumeration have one tag for each value: no identifier begins as the tags do. -/
theorem arguments_valueLines (hopening : (Text.startsWord opening || opening == '$') = false) {tag : String → String}
    {argument : String → List Char} (htag : ∀ value, arguments tags [⟨1, tag value⟩] = [argument value]) :
    ∀ {values names : List String}, names.length = values.length →
      (∀ name ∈ names, Text.isIdentifier name = true) →
        arguments tags (valueLines tag values names) = values.map argument
  | [], _, _, _ => rfl
  | value :: values, [], hlength, _ => by cases hlength
  | value :: values, name :: names, hlength, hnames => by
    obtain ⟨hname, hrest⟩ := List.forall_mem_cons.1 hnames
    have hmember : arguments tags [⟨1, name ++ ","⟩] = [] := by
      refine arguments_eq_nil htags (List.forall_mem_singleton.2 fun hhead => ?_)
      obtain ⟨c, rest, hchars, hc, -⟩ := Text.isIdentifier_iff_spelled.1 hname
      rw [String.toList_append, hchars] at hhead
      cases hhead
      exact Bool.false_ne_true (hopening.symm.trans hc)
    have hvalues := arguments_valueLines hopening htag (Nat.succ.inj hlength) hrest
    have hlines : valueLines tag (value :: values) (name :: names) =
        ⟨1, tag value⟩ :: ⟨1, name ++ ","⟩ :: valueLines tag values names := rfl
    rw [hlines, arguments_cons, htag, arguments_cons, hmember, hvalues]
    rfl

/-- The members of an enumeration say their values. -/
theorem annotations_valueLines (hopening : (Text.startsWord opening || opening == '$') = false) {tag : String → String}
    {after : List Char}
    (htag : ∀ value, arguments tags [⟨1, tag value⟩] = [(Literal.doubleQuoted value).toList ++ ')' :: after])
    {values names : List String} (hlength : names.length = values.length)
    (hnames : ∀ name ∈ names, Text.isIdentifier name = true) :
    annotations tags (valueLines tag values names) = values.map some := by
  rw [annotations, arguments_valueLines htags hopening htag hlength hnames, List.map_map]
  refine List.map_congr_left fun value _ => ?_
  rw [Function.comp_apply, readArgument_doubleQuoted]

end Opening

end Annotations

/-! ## Java -/

namespace Java

/-- The tags of the annotations with names on the wire. -/
def tags : List String := ["@JsonProperty("]

theorem head?_of_mem_tags : ∀ tag ∈ tags, tag.toList.head? = some '@' := by
  simp [tags]

theorem annotations_line (line : Line) (h : line.text.toList.head? ≠ some '@') : annotations tags [line] = [] :=
  annotations_eq_nil head?_of_mem_tags (List.forall_mem_singleton.2 h)

theorem annotations_documented (depth : Nat) (description : Option String) :
    annotations tags (documented Comment.block depth description) = [] := by
  rw [annotations, arguments_documented_block head?_of_mem_tags (by decide) (by decide), List.map_nil]

theorem annotations_propertyLines (last : Bool) (p : Property) :
    annotations tags (propertyLines last p) = [some p.name] := by
  rw [propertyLines, annotations_append, annotations_documented, List.nil_append]
  refine annotations_tagged [] [] "@JsonProperty(" p.name
    (' ' :: ((if p.required then "" else "@Nullable ") ++ language.typeText p.shape ++ " " ++ componentName p.name ++
      (if last then "" else ",")).toList) ?_ (List.forall_mem_nil _)
  simp only [String.toList_append, List.append_assoc]
  rfl

/-- **The components of a record say the names of the properties.** -/
theorem annotations_componentLines : ∀ properties,
    annotations tags (componentLines properties) = (properties.map (·.name)).map some
  | [] => rfl
  | [p] => annotations_propertyLines true p
  | p :: next :: rest => by
    have hstep : componentLines (p :: next :: rest) = propertyLines false p ++ componentLines (next :: rest) := rfl
    rw [hstep, annotations_append, annotations_propertyLines, annotations_componentLines (next :: rest)]
    rfl

theorem annotations_enumLines (name : String) (values : List String) :
    annotations tags (enumLines name values (enumNames values)) = values.map some := by
  have hlength : (enumNames values).length = values.length := (Naming.named_memberNames _ _ _).length
  have hnames : ∀ name ∈ enumNames values, Text.isIdentifier name = true := fun name hname =>
    isIdentifier_of_plain_or_underscore (plain_or_underscore values name hname)
  have htag : ∀ value, arguments tags [⟨1, "@JsonProperty(" ++ Literal.doubleQuoted value ++ ")"⟩] =
      [(Literal.doubleQuoted value).toList ++ [')']] := by
    intro value
    refine arguments_tagged [] [] "@JsonProperty(" ?_ (List.forall_mem_nil _)
    simp only [String.toList_append, List.append_assoc]
    rfl
  rw [enumLines, annotations_append, annotations_cons, annotations_line _ (by simp),
    annotations_valueLines head?_of_mem_tags (by decide) htag hlength hnames, annotations_line _ (by decide),
    List.nil_append, List.append_nil]

/-- **The declaration of a definition says its names on the wire.** -/
theorem annotations_declaration (s : TypeSystem) (d : Definition) :
    annotations tags (declaration s d).lines = d.wireNames.map some := by
  cases hbody : d.body with
  | record r =>
    rw [Definition.wireNames, hbody]
    unfold declaration bodyLines
    simp only [hbody]
    rw [annotations_append, annotations_documented, annotations_append, annotations_append,
      annotations_line ⟨0, "\x7d"⟩ (by decide), List.nil_append, List.append_nil]
    -- the components say the names, and the comment on the parent says nothing
    refine (congrArg₂ (· ++ ·) ?_ ?_).trans (List.append_nil _)
    · split
      · rename_i hempty
        rw [annotations_line _ (by simp), List.isEmpty_iff.1 hempty]
        rfl
      · rw [annotations_append, annotations_cons, annotations_line _ (by simp), annotations_componentLines,
          annotations_line _ (by simp), List.nil_append, List.append_nil]
    · split
      · exact annotations_line _ (by simp)
      · rfl
  | enumeration values =>
    rw [lines_enumeration s hbody, annotations_append, annotations_documented, annotations_enumLines,
      Definition.wireNames, hbody, List.nil_append]
  | union components =>
    rw [Definition.wireNames, hbody]
    unfold declaration bodyLines
    simp only [hbody]
    rw [annotations_append, annotations_documented, List.nil_append, annotations_cons,
      annotations_line ⟨0, "\x7d"⟩ (by decide), List.append_nil]
    refine annotations_line _ ?_
    dsimp only
    split
    · simp
    · simp

end Java

/-! ## C# -/

namespace CSharp

/-- The tags of the annotations with names on the wire, that of properties and that of members. -/
def tags : List String := ["[JsonPropertyName(", "[JsonStringEnumMemberName("]

theorem head?_of_mem_tags : ∀ tag ∈ tags, tag.toList.head? = some '[' := by
  simp [tags]

theorem annotations_line (line : Line) (h : line.text.toList.head? ≠ some '[') : annotations tags [line] = [] :=
  annotations_eq_nil head?_of_mem_tags (List.forall_mem_singleton.2 h)

theorem head?_of_mem_summary {description line : String} (h : line ∈ Comment.summary description) :
    line.toList.head? = some '/' := by
  unfold Comment.summary at h
  simp only [List.mem_cons, List.mem_append, List.mem_map, List.not_mem_nil, or_false] at h
  rcases h with (rfl | ⟨text, -, rfl⟩) | rfl
  · rfl
  · simp
  · rfl

theorem annotations_documented (depth : Nat) (description : Option String) :
    annotations tags (documented Comment.summary depth description) = [] := by
  have hnone : arguments tags (documented Comment.summary depth description) = [] := by
    refine arguments_documented_eq_nil head?_of_mem_tags (fun _ line hline => ?_) depth description
    rw [head?_of_mem_summary hline]
    decide
  rw [annotations, hnone, List.map_nil]

theorem annotations_propertyLines (p : Property) : annotations tags (propertyLines p) = [some p.name] := by
  have htag : annotations tags [⟨1, "[JsonPropertyName(" ++ Literal.doubleQuoted p.name ++ ")]"⟩] = [some p.name] := by
    refine annotations_tagged [] ["[JsonStringEnumMemberName("] "[JsonPropertyName(" p.name [']'] ?_
      (List.forall_mem_nil _)
    simp only [String.toList_append, List.append_assoc]
    rfl
  rw [propertyLines, annotations_append, annotations_documented, List.nil_append, annotations_cons, htag,
    annotations_line, List.append_nil]
  dsimp only
  split
  · simp
  · split
    · simp
    · simp

/-- **The properties of a class say the names of the properties.** -/
theorem annotations_memberLines : ∀ properties,
    annotations tags (memberLines properties) = (properties.map (·.name)).map some
  | [] => rfl
  | [p] => annotations_propertyLines p
  | p :: next :: rest => by
    have hstep : memberLines (p :: next :: rest) = propertyLines p ++ Line.blank :: memberLines (next :: rest) := rfl
    rw [hstep, annotations_append, annotations_propertyLines, annotations_cons,
      annotations_line Line.blank (by decide), annotations_memberLines (next :: rest)]
    rfl

theorem annotations_enumLines (name : String) (values : List String) :
    annotations tags (enumLines name values (enumNames values)) = values.map some := by
  have hlength : (enumNames values).length = values.length := (Naming.named_memberNames _ _ _).length
  have hnames : ∀ name ∈ enumNames values, Text.isIdentifier name = true := fun name hname =>
    Text.isIdentifier_of_isWord (legal_of_mem_enumNames values name hname).1
  have htag : ∀ value, arguments tags [⟨1, "[JsonStringEnumMemberName(" ++ Literal.doubleQuoted value ++ ")]"⟩] =
      [(Literal.doubleQuoted value).toList ++ [')', ']']] := by
    intro value
    refine arguments_tagged ["[JsonPropertyName("] [] "[JsonStringEnumMemberName(" ?_
      (List.forall_mem_singleton.2 ?_)
    · simp only [String.toList_append, List.append_assoc]
      rfl
    · simp [List.isPrefixOf?]
  have hconverter : annotations tags [⟨0, "[JsonConverter(typeof(JsonStringEnumConverter))]"⟩] = [] := by rfl
  rw [enumLines, annotations_append, annotations_cons, hconverter, annotations_cons, annotations_line _ (by simp),
    annotations_cons, annotations_line _ (by decide),
    annotations_valueLines head?_of_mem_tags (by decide) htag hlength hnames, annotations_line _ (by decide),
    List.nil_append, List.nil_append, List.nil_append, List.append_nil]

/-- **The declaration of a definition says its names on the wire.** -/
theorem annotations_declaration (s : TypeSystem) (d : Definition) :
    annotations tags (declaration s d).lines = d.wireNames.map some := by
  cases hbody : d.body with
  | record r =>
    rw [Definition.wireNames, hbody]
    unfold declaration bodyLines
    simp only [hbody]
    rw [annotations_append, annotations_documented, annotations_append, annotations_cons, annotations_line _ (by simp),
      annotations_cons, annotations_line _ (by decide), annotations_memberLines, annotations_line _ (by decide),
      List.nil_append, List.nil_append, List.nil_append, List.append_nil]
  | enumeration values =>
    rw [lines_enumeration s hbody, annotations_append, annotations_documented, annotations_enumLines,
      Definition.wireNames, hbody, List.nil_append]
  | union components =>
    rw [Definition.wireNames, hbody]
    unfold declaration bodyLines
    simp only [hbody]
    rw [annotations_append, annotations_documented, annotations_cons, annotations_line _ (by simp), annotations_cons,
      annotations_line _ (by decide), annotations_line _ (by decide)]
    rfl

end CSharp

/-- **Names on the wire are read back from their literals.** A double-quoted literal stands on one line: between its
first and its last character there is no bare quote, no line end and no tab, and reading it gives the text that it was
made of. So the annotations in the declaration of a definition in Java, and in C#, are read, one after the other, as the
names of its properties or as its values. -/
theorem wire_names_read_back :
    (∀ value : String, ∃ body : List Char, (Literal.doubleQuoted value).toList = '"' :: body ++ ['"'] ∧
      ¬Literal.HasBareQuote '"' body ∧ '\n' ∉ body ∧ '\r' ∉ body ∧ '\t' ∉ body ∧
      Literal.readDouble (Literal.doubleQuoted value).toList = some (value, [])) ∧
    ∀ (s : TypeSystem) (d : Definition),
      annotations Java.tags (Java.declaration s d).lines = d.wireNames.map some ∧
      annotations CSharp.tags (CSharp.declaration s d).lines = d.wireNames.map some := by
  refine ⟨fun value => ?_, fun s d => ⟨Java.annotations_declaration s d, CSharp.annotations_declaration s d⟩⟩
  have hraw : ∀ c ∈ ['\n', '\r', '\t'], c ∉ value.toList.flatMap Literal.escapeDouble := by
    intro c hc hmem
    obtain ⟨d, -, hd⟩ := List.mem_flatMap.1 hmem
    exact Literal.not_mem_escapeDouble hc d hd
  have hread := Literal.readDouble_doubleQuoted value []
  rw [List.append_nil] at hread
  exact ⟨_, String.toList_ofList, Literal.not_hasBareQuote (by decide) Literal.writes_escapeDouble _,
    hraw '\n' (by decide), hraw '\r' (by decide), hraw '\t' (by decide), hread⟩

end TypeBindings
