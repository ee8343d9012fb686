import TypeBindings.Backend
import TypeBindings.Proofs.Identifiers

/-!
# Types in text

A type is written from the inside out: lists and maps are put around the text of what they hold. If lists and maps can
be told from each other and from names by their texts (`Language.TellsApart`), then the text of a type says which
containers it has, from the outside in, and what is inside of them (`TellsApart.eq_of_typeText_eq`). This is so in all
four languages as long as there are no brackets in the names. In TypeScript the names may be alternatives with bars
between them. Then the bars stand inside of brackets, wherever a list or a map is put around them (`exists_balanced`).
-/

namespace TypeBindings

namespace Text

/-! ## Names -/

/-- One or more identifiers with bars between them. -/
def IsAlternatives (text : String) : Prop :=
  ∃ names : List String, names ≠ [] ∧ (∀ name ∈ names, isIdentifier name = true) ∧ text = joinWith " | " names

/-- A text without brackets. -/
def Unbracketed (text : String) : Prop :=
  ∀ c ∈ text.toList, c ∉ ['(', ')', '<', '>', '[', ']']

theorem unbracketed_of_isIdentifier {text : String} (h : isIdentifier text = true) : Unbracketed text := by
  intro c hc hbracket
  have hword := word_or_dollar_of_mem h hc
  simp only [List.mem_cons, List.not_mem_nil, or_false] at hbracket
  rcases hbracket with rfl | rfl | rfl | rfl | rfl | rfl <;> exact absurd hword (by decide)

theorem unbracketed_of_isAlternatives {text : String} (h : IsAlternatives text) : Unbracketed text := by
  obtain ⟨names, -, hnames, rfl⟩ := h
  intro c hc
  rcases mem_of_mem_joinWith hc with hsep | ⟨name, hname, hmem⟩
  · have hchars : " | ".toList = [' ', '|', ' '] := rfl
    rw [hchars] at hsep
    simp only [List.mem_cons, List.not_mem_nil, or_false] at hsep
    rcases hsep with rfl | rfl | rfl <;> decide
  · exact unbracketed_of_isIdentifier (hnames name hname) c hmem

end Text

open Text (Unbracketed IsAlternatives)

/-! ## Containers and leaves -/

/-- What holds values of one shape. -/
inductive Container where
  | list
  | map
deriving DecidableEq, Repr

namespace Shape

/-- The containers of a shape from the outside in. -/
def containers : Shape → List Container
  | .array element => .list :: element.containers
  | .map value => .map :: value.containers
  | .primitive _ => []
  | .reference _ => []
  | .unknown => []

/-- The shape inside all containers. -/
def leaf : Shape → Shape
  | .array element => element.leaf
  | .map value => value.leaf
  | .primitive name => .primitive name
  | .reference name => .reference name
  | .unknown => .unknown

/-- The name at the leaf of a shape. -/
def leafName? : Shape → Option String
  | .array element => element.leafName?
  | .map value => value.leafName?
  | .primitive name => some name
  | .reference name => some name
  | .unknown => none

/-- A shape is a list, a map or its own leaf. -/
theorem cases_container (shape : Shape) : (∃ element, shape = .array element) ∨ (∃ value, shape = .map value) ∨
    (shape.containers = [] ∧ shape.leaf = shape) := by
  cases shape with
  | array element => exact .inl ⟨element, rfl⟩
  | map value => exact .inr (.inl ⟨value, rfl⟩)
  | primitive name => exact .inr (.inr ⟨rfl, rfl⟩)
  | reference name => exact .inr (.inr ⟨rfl, rfl⟩)
  | unknown => exact .inr (.inr ⟨rfl, rfl⟩)

end Shape

namespace Language

/-- The text of what is inside all containers of a shape. -/
def leafText (lang : Language) (shape : Shape) : String :=
  lang.typeText shape.leaf

/-- The text at the leaf is that of a primitive, the type that can be anything, or a name. -/
theorem forall_leafText {lang : Language} {P : String → Prop} (hprimitive : ∀ p, P (lang.primitive p))
    (hdynamic : P lang.dynamic) {shape : Shape} (h : ∀ name ∈ shape.leafName?, P name) : P (lang.leafText shape) := by
  induction shape with
  | array element ih => exact ih h
  | map value ih => exact ih h
  | primitive name =>
    have htext : lang.leafText (.primitive name) = ((Primitive.ofName? name).map lang.primitive).getD name := rfl
    rw [htext]
    cases Primitive.ofName? name with
    | none => exact h name rfl
    | some p => exact hprimitive p
  | reference name => exact h name rfl
  | unknown => exact hdynamic

/-- Lists, maps and leaves are told apart by their texts. `IsLeaf` holds of the texts of leaves, and `IsType` is what
the texts of all types have in common. -/
structure TellsApart (lang : Language) (IsLeaf IsType : String → Prop) : Prop where
  isType_leaf : ∀ {text}, IsLeaf text → IsType text
  isType_list : ∀ {text}, IsType text → IsType (lang.list text)
  isType_map : ∀ {text}, IsType text → IsType (lang.map text)
  list_inj : ∀ {a b}, IsType a → IsType b → lang.list a = lang.list b → a = b
  map_inj : ∀ {a b}, IsType a → IsType b → lang.map a = lang.map b → a = b
  list_ne_map : ∀ a b, lang.list a ≠ lang.map b
  not_isLeaf_list : ∀ text, ¬IsLeaf (lang.list text)
  not_isLeaf_map : ∀ text, ¬IsLeaf (lang.map text)

namespace TellsApart

variable {lang : Language} {IsLeaf IsType : String → Prop} (h : lang.TellsApart IsLeaf IsType)

include h

theorem isType_typeText (shape : Shape) (hleaf : IsLeaf (lang.leafText shape)) : IsType (lang.typeText shape) := by
  induction shape with
  | array element ih => exact h.isType_list (ih hleaf)
  | map value ih => exact h.isType_map (ih hleaf)
  | primitive name => exact h.isType_leaf hleaf
  | reference name => exact h.isType_leaf hleaf
  | unknown => exact h.isType_leaf hleaf

/-- Only a list is written as one. -/
theorem exists_array {shape : Shape} {text : String} (hleaf : IsLeaf (lang.leafText shape)) (htext : IsType text)
    (heq : lang.typeText shape = lang.list text) :
    ∃ element, shape = .array element ∧ lang.typeText element = text := by
  rcases shape.cases_container with ⟨element, rfl⟩ | ⟨value, rfl⟩ | ⟨-, hself⟩
  · exact ⟨element, rfl, h.list_inj (h.isType_typeText element hleaf) htext heq⟩
  · exact absurd heq.symm (h.list_ne_map _ _)
  · rw [leafText, hself, heq] at hleaf
    exact absurd hleaf (h.not_isLeaf_list _)

/-- Only a map is written as one. -/
theorem exists_map {shape : Shape} {text : String} (hleaf : IsLeaf (lang.leafText shape)) (htext : IsType text)
    (heq : lang.typeText shape = lang.map text) : ∃ value, shape = .map value ∧ lang.typeText value = text := by
  rcases shape.cases_container with ⟨element, rfl⟩ | ⟨value, rfl⟩ | ⟨-, hself⟩
  · exact absurd heq (h.list_ne_map _ _)
  · exact ⟨value, rfl, h.map_inj (h.isType_typeText value hleaf) htext heq⟩
  · rw [leafText, hself, heq] at hleaf
    exact absurd hleaf (h.not_isLeaf_map _)

/-- Only a leaf is written as one. -/
theorem eq_of_leaf {a b : Shape} (hnil : a.containers = []) (hself : a.leaf = a) (ha : IsLeaf (lang.leafText a))
    (heq : lang.typeText a = lang.typeText b) :
    a.containers = b.containers ∧ lang.leafText a = lang.leafText b := by
  rw [leafText, hself, heq] at ha
  rcases b.cases_container with ⟨element, rfl⟩ | ⟨value, rfl⟩ | ⟨hnil', hself'⟩
  · exact absurd ha (h.not_isLeaf_list _)
  · exact absurd ha (h.not_isLeaf_map _)
  · rw [hnil, hnil', leafText, leafText, hself, hself']
    exact ⟨rfl, heq⟩

/-- **Types with the same text have the same containers and the same leaf.** -/
theorem eq_of_typeText_eq {a b : Shape} (ha : IsLeaf (lang.leafText a)) (hb : IsLeaf (lang.leafText b))
    (heq : lang.typeText a = lang.typeText b) :
    a.containers = b.containers ∧ lang.leafText a = lang.leafText b := by
  induction a generalizing b with
  | array element ih =>
    obtain ⟨element', rfl, hsame⟩ := h.exists_array hb (h.isType_typeText element ha) heq.symm
    obtain ⟨hcontainers, hleaf⟩ := ih (b := element') ha hb hsame.symm
    exact ⟨congrArg (Container.list :: ·) hcontainers, hleaf⟩
  | map value ih =>
    obtain ⟨value', rfl, hsame⟩ := h.exists_map hb (h.isType_typeText value ha) heq.symm
    obtain ⟨hcontainers, hleaf⟩ := ih (b := value') ha hb hsame.symm
    exact ⟨congrArg (Container.map :: ·) hcontainers, hleaf⟩
  | primitive name => exact h.eq_of_leaf rfl rfl ha heq
  | reference name => exact h.eq_of_leaf rfl rfl ha heq
  | unknown => exact h.eq_of_leaf rfl rfl ha heq

end TellsApart

end Language

/-! ## The four languages -/

/-- Every language whose lists and maps are written in angle brackets behind different words tells them apart. -/
theorem tellsApart_of_angled {lang : Language} {word : String} (hlist : ∀ text, lang.list text = "List<" ++ text ++ ">")
    (hmap : ∀ text, lang.map text = word ++ text ++ ">") (hword : ∃ c, word.toList.head? = some c ∧ c ≠ 'L') :
    lang.TellsApart Unbracketed fun _ => True where
  isType_leaf _ := trivial
  isType_list _ := trivial
  isType_map _ := trivial
  list_inj _ _ heq := by
    rw [hlist, hlist] at heq
    exact (String.append_right_inj _).1 ((String.append_left_inj _).1 heq)
  map_inj _ _ heq := by
    rw [hmap, hmap] at heq
    exact (String.append_right_inj _).1 ((String.append_left_inj _).1 heq)
  list_ne_map a b heq := by
    obtain ⟨c, hc, hne⟩ := hword
    have hhead := congrArg (fun text => text.toList.head?) heq
    simp only [hlist, hmap, String.toList_append, List.head?_append, hc, Option.some_or] at hhead
    exact hne (Option.some.inj hhead).symm
  not_isLeaf_list text hleaf := by
    refine hleaf '>' ?_ (by decide)
    rw [hlist, String.toList_append]
    exact List.mem_append_right _ (List.mem_singleton_self _)
  not_isLeaf_map text hleaf := by
    refine hleaf '>' ?_ (by decide)
    rw [hmap, String.toList_append]
    exact List.mem_append_right _ (List.mem_singleton_self _)

namespace TypeScript

/-- What a list type is a list of: the text of the element, in brackets if there is a bar in it. -/
def operand (element : String) : String :=
  if element.toList.contains '|' then "(" ++ element ++ ")" else element

theorem listType_eq (element : String) : listType element = operand element ++ "[]" := by
  have hclosing : ")[]" = ")" ++ "[]" := rfl
  unfold listType operand
  split
  · rw [hclosing, ← String.append_assoc]
  · rfl

/-- A text that begins with a bracket has a bar in it. -/
def BracketsBar (text : String) : Prop :=
  text.toList.head? = some '(' → '|' ∈ text.toList

theorem head?_bracketed (text : String) : ("(" ++ text ++ ")").toList.head? = some '(' := by
  rw [String.append_assoc, String.toList_append]
  rfl

theorem operand_injective {a b : String} (ha : BracketsBar a) (hb : BracketsBar b) (h : operand a = operand b) :
    a = b := by
  unfold operand at h
  -- where only one of them is put in brackets, the other begins with a bracket and so has a bar, too
  split at h
  · split at h
    · exact (String.append_right_inj _).1 ((String.append_left_inj _).1 h)
    · rename_i hbar
      rw [← h] at hb hbar
      exact absurd (List.contains_iff_mem.2 (hb (head?_bracketed a))) hbar
  · split at h
    · rename_i hbar _
      rw [h] at ha hbar
      exact absurd (List.contains_iff_mem.2 (ha (head?_bracketed b))) hbar
    · exact h

theorem bracketsBar_listType {element : String} (h : BracketsBar element) : BracketsBar (listType element) := by
  unfold listType
  split
  · rename_i hbar
    intro _
    simpa using List.contains_iff_mem.1 hbar
  · intro hhead
    rw [String.toList_append, List.head?_append] at hhead
    rw [String.toList_append]
    rcases Option.or_eq_some_iff.1 hhead with hhead | ⟨-, hhead⟩
    · exact List.mem_append_left _ (h hhead)
    · exact absurd hhead (by decide)

theorem getLast?_listType (element : String) : (listType element).toList.getLast? = some ']' := by
  rw [listType_eq, String.toList_append, List.getLast?_append]
  rfl

theorem getLast?_map (value : String) : (language.map value).toList.getLast? = some '>' := by
  have hmap : language.map value = "Record<string, " ++ value ++ ">" := rfl
  rw [hmap, String.toList_append, List.getLast?_append]
  rfl

theorem tellsApart : language.TellsApart Unbracketed BracketsBar where
  isType_leaf hleaf hhead := absurd (by decide) (hleaf '(' (List.mem_of_head? hhead))
  isType_list := bracketsBar_listType
  isType_map {text} _ hhead := by
    have hmap : language.map text = "Record<string, " ++ (text ++ ">") := String.append_assoc
    rw [hmap, String.toList_append] at hhead
    exact absurd (Option.some.inj hhead) (by decide)
  list_inj {a b} ha hb heq := by
    have hoperands : operand a ++ "[]" = operand b ++ "[]" := by
      rw [← listType_eq, ← listType_eq]
      exact heq
    exact operand_injective ha hb ((String.append_left_inj _).1 hoperands)
  map_inj _ _ heq := (String.append_right_inj _).1 ((String.append_left_inj _).1 heq)
  list_ne_map a b heq := by
    have hlast := congrArg (fun text => text.toList.getLast?) heq
    rw [getLast?_map] at hlast
    exact absurd ((getLast?_listType a).symm.trans hlast) (by decide)
  not_isLeaf_list text hleaf := absurd (by decide) (hleaf ']' (List.mem_of_getLast? (getLast?_listType text)))
  not_isLeaf_map text hleaf := absurd (by decide) (hleaf '>' (List.mem_of_getLast? (getLast?_map text)))

end TypeScript

namespace Target

/-- The texts of all types of a target have this in common, if there are no brackets in the names. -/
theorem exists_tellsApart (target : Target) : ∃ IsType, target.language.TellsApart Unbracketed IsType := by
  cases target with
  | typeScript => exact ⟨_, TypeScript.tellsApart⟩
  | kotlin => exact ⟨_, tellsApart_of_angled (fun _ => rfl) (fun _ => rfl) ⟨'M', rfl, by decide⟩⟩
  | java => exact ⟨_, tellsApart_of_angled (fun _ => rfl) (fun _ => rfl) ⟨'M', rfl, by decide⟩⟩
  | cSharp => exact ⟨_, tellsApart_of_angled (fun _ => rfl) (fun _ => rfl) ⟨'D', rfl, by decide⟩⟩

theorem isIdentifier_primitive (target : Target) (p : Primitive) :
    Text.isIdentifier (target.language.primitive p) = true := by
  cases target <;> cases p <;> rfl

theorem isIdentifier_dynamic (target : Target) : Text.isIdentifier target.language.dynamic = true := by
  cases target <;> rfl

theorem unbracketed_leafText (target : Target) {shape : Shape} (h : ∀ name ∈ shape.leafName?, Unbracketed name) :
    Unbracketed (target.language.leafText shape) :=
  Language.forall_leafText (fun p => Text.unbracketed_of_isIdentifier (target.isIdentifier_primitive p))
    (Text.unbracketed_of_isIdentifier target.isIdentifier_dynamic) h

theorem eq_of_typeText_eq (target : Target) {a b : Shape} (ha : ∀ name ∈ a.leafName?, Unbracketed name)
    (hb : ∀ name ∈ b.leafName?, Unbracketed name)
    (heq : target.language.typeText a = target.language.typeText b) :
    a.containers = b.containers ∧ target.language.leafText a = target.language.leafText b := by
  obtain ⟨IsType, happart⟩ := target.exists_tellsApart
  exact happart.eq_of_typeText_eq (target.unbracketed_leafText ha) (target.unbracketed_leafText hb) heq

end Target

namespace TypeScript

/-! ## Bars -/

/-- The characters that stand outside all round and angle brackets, if the brackets match. `waiting` are the closing
brackets that are still to come, the next first. -/
def outside : (waiting : List Char) → List Char → Option (List Char)
  | waiting, [] => if waiting.isEmpty then some [] else none
  | waiting, c :: rest =>
    if c = '(' then outside (')' :: waiting) rest
    else if c = '<' then outside ('>' :: waiting) rest
    else if c = ')' ∨ c = '>' then if waiting.head? = some c then outside waiting.tail rest else none
    else if waiting.isEmpty then (outside [] rest).map (c :: ·)
    else outside waiting rest

/-- What is outside the brackets of a text is in the text. -/
theorem mem_of_outside {waiting text outer : List Char} (h : outside waiting text = some outer) {d : Char}
    (hd : d ∈ outer) : d ∈ text := by
  fun_induction outside waiting text generalizing outer with
  | case1 waiting hempty =>
    cases h
    exact hd
  | case2 waiting hempty => cases h
  | case3 waiting rest ih => exact List.mem_cons_of_mem _ (ih h hd)
  | case4 waiting rest hne ih => exact List.mem_cons_of_mem _ (ih h hd)
  | case5 waiting c rest hround hangle hclosing hnext ih => exact List.mem_cons_of_mem _ (ih h hd)
  | case6 waiting c rest hround hangle hclosing hnext => cases h
  | case7 waiting c rest hround hangle hclosing hempty ih =>
    obtain ⟨more, hmore, rfl⟩ := Option.map_eq_some_iff.1 h
    rcases List.mem_cons.1 hd with rfl | hd
    · exact List.mem_cons_self
    · exact List.mem_cons_of_mem _ (ih hmore hd)
  | case8 waiting c rest hround hangle hclosing hempty ih => exact List.mem_cons_of_mem _ (ih h hd)

/-- The brackets of a text match, and `outer` are the characters outside of them: reading the text adds these to what is
read, or nothing if a bracket is open, and leaves what is waiting as it was. -/
structure Balanced (text outer : List Char) : Prop where
  outside_append : ∀ rest, outside [] (text ++ rest) = (outside [] rest).map (outer ++ ·)
  inside_append : ∀ next waiting rest, outside (next :: waiting) (text ++ rest) = outside (next :: waiting) rest

theorem Balanced.outside_eq {text outer : List Char} (h : Balanced text outer) : outside [] text = some outer := by
  simpa [outside] using h.outside_append []

theorem balanced_nil : Balanced [] [] where
  outside_append rest := by simp
  inside_append next waiting rest := rfl

theorem balanced_singleton {c : Char} (hc : c ∉ ['(', ')', '<', '>']) : Balanced [c] [c] := by
  simp only [List.mem_cons, List.not_mem_nil, or_false, not_or] at hc
  constructor
  · intro rest
    simp [outside, hc]
  · intro next waiting rest
    simp [outside, hc]

theorem Balanced.append {a b outerA outerB : List Char} (ha : Balanced a outerA) (hb : Balanced b outerB) :
    Balanced (a ++ b) (outerA ++ outerB) where
  outside_append rest := by
    rw [List.append_assoc, ha.outside_append, hb.outside_append, Option.map_map]
    simp [Function.comp_def]
  inside_append next waiting rest := by
    rw [List.append_assoc, ha.inside_append, hb.inside_append]

/-- A text without brackets is outside as a whole. -/
theorem balanced_of_not_mem {text : List Char} (h : ∀ c ∈ text, c ∉ ['(', ')', '<', '>']) : Balanced text text := by
  induction text with
  | nil => exact balanced_nil
  | cons c text ih =>
    obtain ⟨hc, hrest⟩ := List.forall_mem_cons.1 h
    exact (balanced_singleton hc).append (ih hrest)

/-- Nothing in brackets is outside. -/
theorem Balanced.enclose {text outer : List Char} (h : Balanced text outer) {opening closing : Char}
    (hpair : opening = '(' ∧ closing = ')' ∨ opening = '<' ∧ closing = '>') :
    Balanced (opening :: text ++ [closing]) [] := by
  -- when the text begins, its closing bracket is waiting, so reading the text changes nothing
  have hinside := fun waiting rest => h.inside_append closing waiting (closing :: rest)
  rcases hpair with ⟨rfl, rfl⟩ | ⟨rfl, rfl⟩
  · exact ⟨fun rest => by simp [outside, hinside], fun next waiting rest => by simp [outside, hinside]⟩
  · exact ⟨fun rest => by simp [outside, hinside], fun next waiting rest => by simp [outside, hinside]⟩

/-- A text has no bar outside its brackets. -/
def BarsInside (text : String) : Prop :=
  ∃ outer, outside [] text.toList = some outer ∧ '|' ∉ outer

/-- What a list type is a list of has no bar outside its brackets. -/
theorem exists_balanced_operand {element : String} {outer : List Char} (h : Balanced element.toList outer) :
    ∃ outer', Balanced (operand element).toList outer' ∧ '|' ∉ outer' := by
  unfold operand
  split
  · refine ⟨[], ?_, List.not_mem_nil⟩
    simpa using h.enclose (.inl ⟨rfl, rfl⟩)
  · rename_i hbar
    exact ⟨outer, h, fun hmem => hbar (List.contains_iff_mem.2 (mem_of_outside h.outside_eq hmem))⟩

theorem balanced_map {value : String} {outer : List Char} (h : Balanced value.toList outer) :
    Balanced (language.map value).toList "Record".toList := by
  have hword : Balanced ['R', 'e', 'c', 'o', 'r', 'd'] ['R', 'e', 'c', 'o', 'r', 'd'] :=
    balanced_of_not_mem (by simp)
  have hkey : Balanced ['s', 't', 'r', 'i', 'n', 'g', ',', ' '] ['s', 't', 'r', 'i', 'n', 'g', ',', ' '] :=
    balanced_of_not_mem (by simp)
  have hall := hword.append ((hkey.append h).enclose (.inr ⟨rfl, rfl⟩))
  have hmap : language.map value = "Record<string, " ++ value ++ ">" := rfl
  rw [hmap]
  simpa using hall

theorem balanced_leaf {shape : Shape} (hself : shape.leaf = shape) (h : ∀ name ∈ shape.leafName?, Unbracketed name) :
    Balanced (language.typeText shape).toList (language.typeText shape).toList := by
  have htext := Target.unbracketed_leafText .typeScript h
  rw [Language.leafText, hself] at htext
  exact balanced_of_not_mem fun c hc hmem => htext c hc (List.mem_append_left ['[', ']'] hmem)

/-- **The brackets of every type match**, and a list or a map has no bar outside of them. -/
theorem exists_balanced {shape : Shape} (h : ∀ name ∈ shape.leafName?, Unbracketed name) :
    ∃ outer, Balanced (language.typeText shape).toList outer ∧ (shape.containers ≠ [] → '|' ∉ outer) := by
  induction shape with
  | array element ih =>
    obtain ⟨outer, helement, -⟩ := ih h
    obtain ⟨outer', hoperand, hbar⟩ := exists_balanced_operand helement
    have hlist : language.typeText (.array element) = operand (language.typeText element) ++ "[]" := listType_eq _
    have hbrackets : Balanced ['[', ']'] ['[', ']'] := balanced_of_not_mem (by simp)
    rw [hlist, String.toList_append]
    refine ⟨_, hoperand.append hbrackets, fun _ => ?_⟩
    simpa using hbar
  | map value ih =>
    obtain ⟨outer, hvalue, -⟩ := ih h
    exact ⟨_, balanced_map hvalue, fun _ => by decide⟩
  | primitive name => exact ⟨_, balanced_leaf rfl h, fun hne => absurd rfl hne⟩
  | reference name => exact ⟨_, balanced_leaf rfl h, fun hne => absurd rfl hne⟩
  | unknown => exact ⟨_, balanced_leaf rfl h, fun hne => absurd rfl hne⟩

end TypeScript

/-- **Types are unambiguous.** In each of the four languages, types with the same text have the same containers, from
the outside in, and the same text inside of them, if all names are identifiers. In TypeScript the names may be
identifiers with bars between them. Then the text of a list or a map has no bar outside its brackets, and a list type is
the text of its whole element, in brackets if need be, with the brackets of the list behind it. -/
theorem type_texts_unambiguous :
    (∀ (target : Target) (a b : Shape), (∀ name ∈ a.leafName?, Text.isIdentifier name = true) →
      (∀ name ∈ b.leafName?, Text.isIdentifier name = true) →
      target.language.typeText a = target.language.typeText b →
      a.containers = b.containers ∧ target.language.leafText a = target.language.leafText b) ∧
    (∀ a b : Shape, (∀ name ∈ a.leafName?, IsAlternatives name) → (∀ name ∈ b.leafName?, IsAlternatives name) →
      TypeScript.language.typeText a = TypeScript.language.typeText b →
      a.containers = b.containers ∧ TypeScript.language.leafText a = TypeScript.language.leafText b) ∧
    ∀ a : Shape, (∀ name ∈ a.leafName?, IsAlternatives name) →
      (a.containers ≠ [] → TypeScript.BarsInside (TypeScript.language.typeText a)) ∧
      ∃ operand, TypeScript.language.typeText (.array a) = operand ++ "[]" ∧ TypeScript.BarsInside operand ∧
        (operand = TypeScript.language.typeText a ∨ operand = "(" ++ TypeScript.language.typeText a ++ ")") := by
  refine ⟨fun target a b ha hb heq => ?_, fun a b ha hb heq => ?_, fun a ha => ?_⟩
  · exact target.eq_of_typeText_eq (fun name hname => Text.unbracketed_of_isIdentifier (ha name hname))
      (fun name hname => Text.unbracketed_of_isIdentifier (hb name hname)) heq
  · exact Target.eq_of_typeText_eq .typeScript (fun name hname => Text.unbracketed_of_isAlternatives (ha name hname))
      (fun name hname => Text.unbracketed_of_isAlternatives (hb name hname)) heq
  · obtain ⟨outer, hbalanced, hbar⟩ := TypeScript.exists_balanced
      fun name hname => Text.unbracketed_of_isAlternatives (ha name hname)
    obtain ⟨outer', hoperand, hbar'⟩ := TypeScript.exists_balanced_operand hbalanced
    refine ⟨fun hne => ⟨outer, hbalanced.outside_eq, hbar hne⟩, _, TypeScript.listType_eq _,
      ⟨outer', hoperand.outside_eq, hbar'⟩, ?_⟩
    unfold TypeScript.operand
    split
    · exact .inr rfl
    · exact .inl rfl

/-- Lists of maps of lists. -/
def listsOf (leaf : Shape) : Shape :=
  .array (.map (.array leaf))

/-- Different shapes with the same text, and bars that would stand outside without the brackets. -/
theorem type_texts_unambiguous_pets :
    (TypeScript.language.typeText (listsOf (.primitive "Integer")) = "Record<string, number[]>[]" ∧
      (∀ name ∈ (listsOf (.primitive "Integer")).leafName?, Text.isIdentifier name = true) ∧
      (∀ name ∈ (listsOf (.reference "number")).leafName?, Text.isIdentifier name = true) ∧
      TypeScript.language.leafText (listsOf (.primitive "Integer")) =
        TypeScript.language.leafText (listsOf (.reference "number"))) ∧
    IsAlternatives "Cat | Dog" ∧
    (listsOf (.reference "Cat | Dog")).containers = (listsOf (.primitive "Cat | Dog")).containers ∧
    TypeScript.BarsInside (TypeScript.language.typeText (listsOf (.reference "Cat | Dog"))) ∧
    TypeScript.language.typeText (listsOf (.reference "Cat | Dog")) = "(Record<string, (Cat | Dog)[]>)[]" ∧
    ¬TypeScript.BarsInside "Cat | Dog[]" := by
  have hinteger : ∀ name ∈ (listsOf (.primitive "Integer")).leafName?, Text.isIdentifier name = true := by decide
  have hnumber : ∀ name ∈ (listsOf (.reference "number")).leafName?, Text.isIdentifier name = true := by decide
  have hpets : IsAlternatives "Cat | Dog" := ⟨["Cat", "Dog"], List.cons_ne_nil _ _, by decide, rfl⟩
  have hreference : ∀ name ∈ (listsOf (.reference "Cat | Dog")).leafName?, IsAlternatives name :=
    fun name hname => Option.some.inj hname ▸ hpets
  have hprimitive : ∀ name ∈ (listsOf (.primitive "Cat | Dog")).leafName?, IsAlternatives name :=
    fun name hname => Option.some.inj hname ▸ hpets
  obtain ⟨hwords, halternatives, hbars⟩ := type_texts_unambiguous
  refine ⟨⟨by decide +kernel, hinteger, hnumber, ?_⟩, hpets, ?_, ?_, by decide +kernel, ?_⟩
  · exact (hwords .typeScript _ _ hinteger hnumber (by decide +kernel)).2
  · exact (halternatives _ _ hreference hprimitive (by decide +kernel)).1
  · exact (hbars _ hreference).1 (List.cons_ne_nil _ _)
  · rintro ⟨outer, houter, hbar⟩
    have hall : TypeScript.outside [] "Cat | Dog[]".toList = some "Cat | Dog[]".toList := by decide +kernel
    rw [← Option.some.inj (hall.symm.trans houter)] at hbar
    exact hbar (by decide)

end TypeBindings
