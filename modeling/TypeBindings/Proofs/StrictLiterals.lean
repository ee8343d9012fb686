import TypeBindings.Proofs.WireNames

/-!
# Literals of TypeScript and Kotlin

Not every character may stand for itself in a literal: a line end ends the line before the quote does, and in Kotlin a
dollar sign before a name or a brace makes the literal a template. `readStrict` reads a literal and gives up at such a
character. Written characters are read back one by one (`Writes.readStrictBody_append`), so a literal can be read
exactly if no character that is written as itself stands in a wrong place:

* single quotes let line ends through, and a literal of TypeScript is read exactly if its value has none
  (`TypeScript.literal_reads_back_iff`);
* double quotes let dollar signs through, and a serial name of Kotlin is read exactly if no dollar sign in the value
  opens a template (`Kotlin.serial_names_constant_iff`).
-/

namespace TypeBindings

namespace Literal

/-- Reads up to the quote that ends a literal, as `readBody` does, but gives up at a character that does not stand for
itself: `bare` says of a character and the characters behind it whether it does. -/
def readStrictBody (quote : Char) (unescape : Char → Option Char) (bare : Char → List Char → Bool) :
    (escaped : Bool) → List Char → Option (List Char × List Char)
  | _, [] => none
  | true, c :: rest =>
    (unescape c).bind fun d => (readStrictBody quote unescape bare false rest).map (Prod.map (d :: ·) id)
  | false, c :: rest =>
    if c = quote then some ([], rest)
    else if c = '\\' then readStrictBody quote unescape bare true rest
    else if bare c rest then (readStrictBody quote unescape bare false rest).map (Prod.map (c :: ·) id)
    else none

/-- Reads a literal that the characters begin with: its value, and the characters after it. -/
def readStrict (quote : Char) (unescape : Char → Option Char) (bare : Char → List Char → Bool) :
    List Char → Option (String × List Char)
  | [] => none
  | c :: rest =>
    if c = quote then (readStrictBody quote unescape bare false rest).map (Prod.map String.ofList id) else none

/-- A line feed or a carriage return. -/
def isLineEnd (c : Char) : Bool :=
  c == '\n' || c == '\r'

section Strict

variable {quote : Char} {unescape : Char → Option Char} {bare : Char → List Char → Bool}

theorem readStrictBody_quote (after : List Char) :
    readStrictBody quote unescape bare false (quote :: after) = some ([], after) := by
  rw [readStrictBody, if_pos rfl]

/-- Reading takes one written character at a time, and gives up if the character is written as itself and may not
stand there. -/
theorem Writes.readStrictBody_append {c : Char} {text : List Char} (h : Writes quote unescape c text)
    (hquote : quote ≠ '\\') (rest : List Char) :
    readStrictBody quote unescape bare false (text ++ rest) =
      if text = [c] ∧ bare c rest = false then none
      else (readStrictBody quote unescape bare false rest).map (Prod.map (c :: ·) id) := by
  rcases h with ⟨rfl, hne, hback⟩ | ⟨e, rfl, he⟩
  · conv_lhs => rw [List.singleton_append, readStrictBody, if_neg hne, if_neg hback]
    cases bare c rest <;> simp
  · have hopens : readStrictBody quote unescape bare false (['\\', e] ++ rest) =
        readStrictBody quote unescape bare true (e :: rest) := by
      conv_lhs => rw [List.cons_append, readStrictBody, if_neg hquote.symm, if_pos rfl]
      rfl
    rw [hopens, readStrictBody, he, Option.bind_some, if_neg (by simp)]

theorem readStrict_quoted (quote : Char) (body after : List Char) :
    readStrict quote unescape bare ((String.ofList (quote :: body ++ [quote])).toList ++ after) =
      (readStrictBody quote unescape bare false (body ++ quote :: after)).map (Prod.map String.ofList id) := by
  rw [String.toList_ofList, List.cons_append, List.cons_append, List.append_assoc, List.singleton_append, readStrict,
    if_pos rfl]

end Strict

end Literal

/-! ## TypeScript -/

namespace TypeScript

open Literal (isLineEnd escapeSingle singleQuoted)

/-- What a character behind a backslash stands for in a literal of TypeScript: control characters have letters, and most
other characters stand for themselves. Escapes that go on behind this character (`x`, `u`, digits, line ends) are left
out. -/
def unescape (c : Char) : Option Char :=
  if c = 'n' then some '\n'
  else if c = 'r' then some '\r'
  else if c = 't' then some '\t'
  else if c = 'b' then some '\x08'
  else if c = 'f' then some '\x0c'
  else if c = 'v' then some '\x0b'
  else if c = 'x' || c = 'u' || c.isDigit || isLineEnd c then none
  else some c

/-- Reads a single-quoted literal of TypeScript, which ends on the line on which it begins. -/
def readLiteral : List Char → Option (String × List Char) :=
  Literal.readStrict '\'' unescape fun c _ => !isLineEnd c

theorem writes_escapeSingle (c : Char) : Literal.Writes '\'' unescape c (escapeSingle c) :=
  Literal.writes_escapeSingle (by decide) (by decide) c

/-- Backslashes apart, a literal has the characters of its value. -/
theorem mem_flatMap_escapeSingle {d : Char} (hd : d ≠ '\\') (value : List Char) :
    d ∈ value.flatMap escapeSingle ↔ d ∈ value := by
  have hchar : ∀ c, d ∈ escapeSingle c ↔ c = d := by
    intro c
    unfold escapeSingle
    split
    · rename_i hc
      simp [hc, hd, hd.symm]
    split
    · rename_i hc
      simp [hc, hd, eq_comm]
    · simp [eq_comm]
  rw [List.mem_flatMap]
  simp only [hchar, exists_eq_right]

theorem escapeSingle_of_isLineEnd {c : Char} (h : isLineEnd c = true) : escapeSingle c = [c] := by
  unfold escapeSingle
  rw [if_neg, if_neg]
  · rintro rfl
    exact absurd h (by decide)
  · rintro rfl
    exact absurd h (by decide)

/-- Reading goes through to the quote if there is no line end before it. -/
theorem readStrictBody_escapeSingle (value after : List Char) :
    Literal.readStrictBody '\'' unescape (fun c _ => !isLineEnd c) false
        (value.flatMap escapeSingle ++ '\'' :: after) =
      if value.any isLineEnd then none else some (value, after) := by
  induction value with
  | nil => exact Literal.readStrictBody_quote after
  | cons c value ih =>
    rw [List.flatMap_cons, List.append_assoc, (writes_escapeSingle c).readStrictBody_append (by decide), ih]
    by_cases hc : isLineEnd c = true
    · rw [if_pos ⟨escapeSingle_of_isLineEnd hc, by rw [hc]; rfl⟩]
      simp [hc]
    · rw [if_neg (by simp [hc])]
      by_cases hvalue : value.any isLineEnd = true
      · simp [hvalue]
      · simp [hc, hvalue]

theorem any_isLineEnd_iff (cs : List Char) : cs.any isLineEnd = true ↔ '\n' ∈ cs ∨ '\r' ∈ cs := by
  simp [isLineEnd, List.any_eq_true, and_or_left, exists_or]

/-- **Literals are read back unless there is a line end in them.** Between the first and the last character of a
single-quoted literal there is no bare quote, and line feeds and carriage returns stand there exactly if the text that
the literal was made of has some. The escapes alone would give back every text, but a literal ends on its line: reading
it gives the text, whatever comes after the literal, if there is no line end in it, and nothing otherwise. -/
theorem literal_reads_back_iff (value : String) :
    ∃ body : List Char, (singleQuoted value).toList = '\'' :: body ++ ['\''] ∧ ¬Literal.HasBareQuote '\'' body ∧
      ('\n' ∈ body ↔ '\n' ∈ value.toList) ∧ ('\r' ∈ body ↔ '\r' ∈ value.toList) ∧
      ∀ after, Literal.read '\'' unescape ((singleQuoted value).toList ++ after) = some (value, after) ∧
        readLiteral ((singleQuoted value).toList ++ after) =
          if '\n' ∈ value.toList ∨ '\r' ∈ value.toList then none else some (value, after) := by
  rw [Literal.singleQuoted_eq]
  refine ⟨_, String.toList_ofList, Literal.not_hasBareQuote (by decide) writes_escapeSingle _,
    mem_flatMap_escapeSingle (by decide) _, mem_flatMap_escapeSingle (by decide) _,
    fun after => ⟨Literal.read_quoted (by decide) writes_escapeSingle value after, ?_⟩⟩
  unfold readLiteral
  rw [Literal.readStrict_quoted, readStrictBody_escapeSingle]
  by_cases hends : value.toList.any isLineEnd = true
  · rw [if_pos hends, if_pos ((any_isLineEnd_iff _).1 hends), Option.map_none]
  · rw [if_neg hends, if_neg (mt (any_isLineEnd_iff _).2 hends), Option.map_some, Prod.map_apply, String.ofList_toList,
      id_eq]

/-- **A line feed breaks a literal.** It stands in the literal as it is, which the escapes would read, but the literal
is not closed on its line and cannot be read; and this is how the value stands in the declaration. -/
theorem line_feed_not_read :
    '\n' ∈ (singleQuoted "a\nb").toList ∧ readLiteral (singleQuoted "a\nb").toList = none ∧
      ⟨1, "'a\nb' = 'a\nb',"⟩ ∈ (declaration ⟨none, []⟩ (.enumeration "Break" ["a\nb"])).lines := by
  refine ⟨by decide +kernel, by decide +kernel, by decide +kernel⟩

end TypeScript

/-! ## Kotlin -/

/-- A class of letters. No character that literals have an escape for is a letter. -/
structure Letters where
  isLetter : Char → Bool
  not_isLetter : ∀ c ∈ ['"', '\\', '\n', '\r', '\t'], isLetter c = false

def Letters.ascii : Letters where
  isLetter := Char.isAlpha
  not_isLetter c h := by
    simp only [List.mem_cons, List.not_mem_nil, or_false] at h
    rcases h with rfl | rfl | rfl | rfl | rfl <;> rfl

namespace Kotlin

open Literal (isLineEnd escapeDouble doubleQuoted)

/-- The characters that make a template of a dollar sign before them: letters, the underscore, the back quote and the
opening brace. -/
def opensTemplate (letters : Letters) (c : Char) : Bool :=
  letters.isLetter c || c == '_' || c == '\x60' || c == '\x7b'

/-- There is a template in a text. -/
def HasTemplate (letters : Letters) (cs : List Char) : Prop :=
  ∃ before c after, cs = before ++ '$' :: c :: after ∧ opensTemplate letters c = true

/-- A dollar sign that opens a template with the characters behind it. -/
def isTemplate (letters : Letters) (c : Char) (rest : List Char) : Bool :=
  c == '$' && rest.head?.any (opensTemplate letters)

/-- What a character behind a backslash stands for in a literal of Kotlin. -/
def unescape (c : Char) : Option Char :=
  if c = '$' then some '$' else Literal.unescapeDouble c

/-- Reads a constant literal of Kotlin: it has no templates, and ends on the line on which it begins. -/
def readConstant (letters : Letters) : List Char → Option (String × List Char) :=
  Literal.readStrict '"' unescape fun c rest => !isLineEnd c && !isTemplate letters c rest

/-- The value of a constant with a closing bracket behind it. -/
def readSerialName (letters : Letters) (cs : List Char) : Option String :=
  (readConstant letters cs).bind fun literal => if literal.2.head? = some ')' then some literal.1 else none

/-- The tag of the annotations with names on the wire. -/
def tags : List String := ["@SerialName("]

/-- What the serial names in a declaration say, in the order of their lines; `none` stands for one that is no
constant. -/
def serialNames (letters : Letters) (lines : List Line) : List (Option String) :=
  (arguments tags lines).map (readSerialName letters)

section Templates

variable {letters : Letters}

theorem not_hasTemplate_nil : ¬HasTemplate letters [] := by
  rintro ⟨before, c, after, h, -⟩
  simp at h

theorem hasTemplate_cons_iff (c : Char) (cs : List Char) :
    HasTemplate letters (c :: cs) ↔ isTemplate letters c cs = true ∨ HasTemplate letters cs := by
  constructor
  · rintro ⟨before, e, after, hcs, he⟩
    cases before with
    | nil =>
      obtain ⟨rfl, rfl⟩ := List.cons.inj hcs
      exact .inl (by simp [isTemplate, he])
    | cons b before =>
      obtain ⟨rfl, rfl⟩ := List.cons.inj hcs
      exact .inr ⟨before, e, after, rfl, he⟩
  · rintro (h | ⟨before, e, after, rfl, he⟩)
    · obtain ⟨hc, hhead⟩ := Bool.and_eq_true_iff.1 h
      cases beq_iff_eq.1 hc
      cases cs with
      | nil => cases hhead
      | cons e after => exact ⟨[], e, after, rfl, hhead⟩
    · exact ⟨c :: before, e, after, rfl, he⟩

instance decidableHasTemplate (letters : Letters) : ∀ cs, Decidable (HasTemplate letters cs)
  | [] => isFalse not_hasTemplate_nil
  | c :: cs =>
    have := decidableHasTemplate letters cs
    decidable_of_iff _ (hasTemplate_cons_iff c cs).symm

/-- No character that has an escape opens a template. -/
theorem not_opensTemplate {c : Char} (h : c ∈ ['"', '\\', '\n', '\r', '\t']) : opensTemplate letters c = false := by
  have hletter := letters.not_isLetter c h
  unfold opensTemplate
  rw [hletter]
  simp only [List.mem_cons, List.not_mem_nil, or_false] at h
  rcases h with rfl | rfl | rfl | rfl | rfl <;> rfl

/-- A dollar sign opens a template in a value if and only if it does in the literal: what comes behind it is written as
it is, or begins with a backslash in place of a character that opens none. -/
theorem isTemplate_flatMap_escapeDouble (c : Char) (value after : List Char) :
    isTemplate letters c (value.flatMap escapeDouble ++ '"' :: after) = isTemplate letters c value := by
  unfold isTemplate
  cases value with
  | nil => simp [not_opensTemplate]
  | cons e value =>
    rcases Literal.escapeDouble_cases e with ⟨htext, -⟩ | ⟨d, -, htext, hd⟩
    · simp [htext]
    · have he : opensTemplate letters e = false := not_opensTemplate (Literal.mem_of_unescapeDouble hd)
      simp [htext, he, not_opensTemplate]

theorem writes_escapeDouble (c : Char) : Literal.Writes '"' unescape c (escapeDouble c) := by
  rcases Literal.writes_escapeDouble c with h | ⟨e, htext, he⟩
  · exact .inl h
  · have hdollar : e ≠ '$' := by
      rintro rfl
      cases he
    exact .inr ⟨e, htext, (if_neg hdollar).trans he⟩

theorem not_isLineEnd_of_escapeDouble {c : Char} (h : escapeDouble c = [c]) : isLineEnd c = false := by
  by_contra hend
  rcases Literal.escapeDouble_cases c with ⟨-, hc⟩ | ⟨e, -, htext, -⟩
  · simp only [List.mem_cons, List.not_mem_nil, or_false, not_or] at hc
    simp [isLineEnd, hc] at hend
  · simp [h] at htext

/-- Reading goes through to the quote if there is no template before it. -/
theorem readStrictBody_escapeDouble (value after : List Char) :
    Literal.readStrictBody '"' unescape (fun c rest => !isLineEnd c && !isTemplate letters c rest) false
        (value.flatMap escapeDouble ++ '"' :: after) =
      if HasTemplate letters value then none else some (value, after) := by
  induction value with
  | nil =>
    rw [if_neg not_hasTemplate_nil]
    exact Literal.readStrictBody_quote after
  | cons c value ih =>
    rw [List.flatMap_cons, List.append_assoc, (writes_escapeDouble c).readStrictBody_append (by decide), ih,
      isTemplate_flatMap_escapeDouble]
    by_cases hc : isTemplate letters c value = true
    · have hdollar : c = '$' := by simpa using (Bool.and_eq_true_iff.1 hc).1
      rw [if_pos ⟨by rw [hdollar]; rfl, by rw [hc]; simp⟩, if_pos ((hasTemplate_cons_iff c value).2 (.inl hc))]
    · have hkept : ¬(escapeDouble c = [c] ∧ (!isLineEnd c && !isTemplate letters c value) = false) := by
        rintro ⟨htext, hbare⟩
        simp [not_isLineEnd_of_escapeDouble htext, hc] at hbare
      rw [if_neg hkept]
      by_cases hvalue : HasTemplate letters value
      · simp [hasTemplate_cons_iff, hvalue]
      · simp [hasTemplate_cons_iff, hc, hvalue]

theorem readSerialName_doubleQuoted (letters : Letters) (value : String) (after : List Char) :
    readSerialName letters ((doubleQuoted value).toList ++ ')' :: after) =
      if HasTemplate letters value.toList then none else some value := by
  unfold readSerialName readConstant doubleQuoted
  rw [Literal.readStrict_quoted, readStrictBody_escapeDouble]
  split
  · rfl
  · simp

end Templates

theorem head?_of_mem_tags : ∀ tag ∈ tags, tag.toList.head? = some '@' := by
  simp [tags]

theorem arguments_enumLines (name : String) (values : List String) :
    arguments tags (enumLines name values (enumNames values)) =
      values.map fun value => (doubleQuoted value).toList ++ [')'] := by
  have hlength : (enumNames values).length = values.length := (Naming.named_memberNames _ _ _).length
  have hnames : ∀ name ∈ enumNames values, Text.isIdentifier name = true := fun name hname =>
    Text.isIdentifier_of_isWord (legal_of_mem_enumNames values name hname).1
  have htag : ∀ value, arguments tags [⟨1, "@SerialName(" ++ doubleQuoted value ++ ")"⟩] =
      [(doubleQuoted value).toList ++ [')']] := by
    intro value
    refine arguments_tagged [] [] "@SerialName(" ?_ (List.forall_mem_nil _)
    simp only [String.toList_append, List.append_assoc]
    rfl
  -- the annotation above the class begins almost as the tag does
  have hclass : arguments tags [⟨0, "@Serializable"⟩] = [] := by rfl
  have hopening : arguments tags [⟨0, "enum class " ++ name ++ " \x7b"⟩] = [] :=
    arguments_eq_nil head?_of_mem_tags (List.forall_mem_singleton.2 (by simp))
  have hclosing : arguments tags [⟨0, "\x7d"⟩] = [] := by rfl
  rw [enumLines, List.cons_append, arguments_cons, hclass, List.cons_append, arguments_cons, hopening, arguments_append,
    arguments_valueLines head?_of_mem_tags (by decide) htag hlength hnames, hclosing]
  simp

/-- **Serial names are constants unless a value has a template in it.** The declaration of an enumeration has one serial
name for each value, in order, and reading it as a constant gives exactly the value, if no dollar sign in it stands
before a letter, an underscore, a back quote or an opening brace; otherwise the literal is a template, and no
constant. -/
theorem serial_names_constant_iff (letters : Letters) (s : TypeSystem) (d : Definition) (values : List String)
    (hd : d.body = .enumeration values) :
    serialNames letters (declaration s d).lines =
      values.map fun value => if HasTemplate letters value.toList then none else some value := by
  have hcomment : arguments tags (documented Comment.block 0 d.description) = [] :=
    arguments_documented_block head?_of_mem_tags (by decide) (by decide) 0 d.description
  rw [serialNames, lines_enumeration s hd, arguments_append, hcomment, List.nil_append, arguments_enumLines,
    List.map_map]
  refine List.map_congr_left fun value _ => ?_
  rw [Function.comp_apply, readSerialName_doubleQuoted]

/-- An enumeration of values with dollar signs: two of them open templates. -/
def prices : Definition :=
  .enumeration "Price" ["US$", "$5", "$ref", "a\"\\$\n", "\x24\x7bx\x7d"]

theorem serial_names_constant_iff_prices :
    prices.body = .enumeration prices.values ∧
      serialNames .ascii (declaration ⟨none, [prices]⟩ prices).lines =
        [some "US$", some "$5", none, some "a\"\\$\n", none] := by
  have hnames := serial_names_constant_iff .ascii ⟨none, [prices]⟩ prices prices.values rfl
  refine ⟨rfl, hnames.trans ?_⟩
  decide +kernel

/-- **A name behind a dollar sign is no constant.** The value is written into the declaration without an escape for the
dollar sign, and the literal is read as a template. -/
theorem dollar_name_not_constant :
    ⟨1, "@SerialName(\"$ref\")"⟩ ∈ (declaration ⟨none, []⟩ (.enumeration "Key" ["$ref"])).lines ∧
      readConstant .ascii "\"$ref\"".toList = none ∧
      serialNames .ascii (declaration ⟨none, []⟩ (.enumeration "Key" ["$ref"])).lines = [none] := by
  refine ⟨by decide +kernel, by decide +kernel, by decide +kernel⟩

end Kotlin

end TypeBindings
