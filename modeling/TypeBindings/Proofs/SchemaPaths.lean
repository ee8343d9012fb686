import Mathlib.Data.List.Nodup
import TypeBindings.Document
import TypeBindings.Proofs.Components
import TypeBindings.Proofs.FreeNames
import TypeBindings.Proofs.Grammar
import TypeBindings.Proofs.Schema

/-!
# Where breaches of the schema are reported

A breach has the path of the value at fault. Whatever the schema is, the path leads to a value inside the one that is
checked (`leads_of_mem_violations`), and its text is a pointer to that value (`resolve?_concat`): keys are escaped and
indices are written in digits, so that the text can be cut at its slashes and read back.

The breaches of an array are those of its items, and those of an object are the keys that it lacks and the breaches of
its members. So nothing is passed over on the way down to a definition or a property: there is a breach at or below one
exactly if it does not follow the grammar (`breaches_are_located`).
-/

namespace TypeBindings

open Json (Schema)

namespace Json

open Schema (Step)

/-! ## Pointers -/

/-- The value that steps lead to. -/
def down? : List Step → Json → Option Json
  | [], value => some value
  | .index i :: rest, .arr items => items[i]?.bind (down? rest)
  | .key name :: rest, .obj members => (members.lookup name).bind (down? rest)
  | _ :: _, _ => none

namespace Pointer

/-- The item whose index is written as a token: in digits, without a zero before others. -/
def item? (items : List Json) (token : String) : Option Json :=
  (items.zipIdx.find? fun p => toString p.2 = token).map Prod.fst

/-- The value that the tokens of a pointer lead to. -/
def walk? : List String → Json → Option Json
  | [], value => some value
  | token :: rest, .arr items => (item? items token).bind (walk? rest)
  | token :: rest, .obj members => (members.lookup (String.ofList (unescape token.toList))).bind (walk? rest)
  | _ :: _, _ => none

/-- The value that a pointer leads to. The empty pointer leads to the whole value, and in any other one a slash stands
before each token. -/
def resolve? (pointer : String) (value : Json) : Option Json :=
  if pointer = "" ∨ pointer.toList.head? = some '/' then walk? (Text.splitAt '/' pointer).tail value else none

theorem item?_toString {items : List Json} {i : Nat} {item : Json} (h : items[i]? = some item) :
    item? items (toString i) = some item := by
  have hmem : (item, i) ∈ items.zipIdx := List.mem_zipIdx_iff_getElem?.2 h
  unfold item?
  cases hfind : items.zipIdx.find? fun p => toString p.2 = toString i with
  | none =>
    have hnot := List.find?_eq_none.1 hfind (item, i) hmem
    simp at hnot
  | some p =>
    -- digits tell numbers apart, so what is found has the same index
    have hindex : p.2 = i := Naming.toString_injective (by simpa using List.find?_some hfind)
    have hp : items[p.2]? = some p.1 := List.mem_zipIdx_iff_getElem?.1 (List.mem_of_find?_eq_some hfind)
    rw [hindex, h] at hp
    rw [Option.map_some, Option.some.inj hp]

/-- What a character of a key is written as. -/
def escapeChar (c : Char) : List Char :=
  if c = '~' then ['~', '0'] else if c = '/' then ['~', '1'] else [c]

theorem unescape_cons {c : Char} (hc : c ≠ '~') (cs : List Char) : unescape (c :: cs) = c :: unescape cs := by
  cases cs with
  | nil => rw [unescape, unescape]
  | cons d rest => rw [unescape, if_neg hc]

theorem unescape_flatMap_escapeChar (cs : List Char) : unescape (cs.flatMap escapeChar) = cs := by
  induction cs with
  | nil => rfl
  | cons c cs ih =>
    rw [List.flatMap_cons]
    by_cases htilde : c = '~'
    · subst htilde
      simp [escapeChar, unescape, ih]
    · by_cases hslash : c = '/'
      · subst hslash
        simp [escapeChar, unescape, ih]
      · have hc : escapeChar c = [c] := by simp [escapeChar, htilde, hslash]
        rw [hc, List.singleton_append, unescape_cons htilde, ih]

/-- The escapes in a key can be undone. -/
theorem unescape_escapeKey (name : String) : String.ofList (unescape (Step.escapeKey name).toList) = name := by
  have hkey : (Step.escapeKey name).toList = name.toList.flatMap escapeChar := by
    rw [Step.escapeKey, String.toList_ofList]
    rfl
  rw [hkey, unescape_flatMap_escapeChar, String.ofList_toList]

end Pointer

end Json

/-! ## The text of a path -/

namespace Json.Schema

/-- A step as it stands in a path, without the slash before it. -/
def Step.token : Step → String
  | .key name => escapeKey name
  | .index i => toString i

theorem Step.text_eq (step : Step) : step.text = "/" ++ step.token := by
  cases step with
  | key name => rfl
  | index i => rfl

theorem Step.slash_not_mem_token (step : Step) : '/' ∉ step.token.toList := by
  cases step with
  | key name =>
    rw [token, escapeKey, String.toList_ofList, List.mem_flatMap]
    rintro ⟨c, -, hc⟩
    by_cases htilde : c = '~'
    · simp [htilde] at hc
    · by_cases hslash : c = '/'
      · simp [hslash] at hc
      · simp [htilde, hslash] at hc
        exact hslash hc.symm
  | index i =>
    intro hmem
    exact absurd (Naming.isDigit_of_mem_toString hmem) (by decide)

theorem Step.key_of_token_eq {name other : String} (h : (Step.key name).token = (Step.key other).token) :
    name = other := by
  rw [← Pointer.unescape_escapeKey name, ← Pointer.unescape_escapeKey other]
  exact congrArg (fun token => String.ofList (Pointer.unescape (String.toList token))) h

/-- A path is cut at its slashes into its tokens. -/
theorem splitAt_append_concat (path : List Step) (front : String) :
    Text.splitAt '/' (front ++ Text.concat (path.map Step.text)) = Text.splitAt '/' front ++ path.map Step.token := by
  induction path generalizing front with
  | nil => simp [Text.concat]
  | cons step path ih =>
    have htoken : Text.splitAt '/' (front ++ "/" ++ step.token) = Text.splitAt '/' front ++ [step.token] := by
      rw [← Text.splitAt_of_not_mem step.slash_not_mem_token]
      exact Text.splitAt_append (by simp)
    rw [List.map_cons, Text.concat, Step.text_eq, ← String.append_assoc, ← String.append_assoc, ih, htoken]
    simp

theorem walk?_tokens {path : List Step} {value found : Json} (h : value.down? path = some found) :
    Pointer.walk? (path.map Step.token) value = some found := by
  induction path generalizing value with
  | nil => exact h
  | cons step path ih =>
    cases step with
    | key name =>
      cases value with
      | obj members =>
        rw [down?, Option.bind_eq_some_iff] at h
        obtain ⟨member, hmember, hrest⟩ := h
        rw [List.map_cons, Pointer.walk?, Step.token, Pointer.unescape_escapeKey, hmember]
        exact ih hrest
      | _ => simp [down?] at h
    | index i =>
      cases value with
      | arr items =>
        rw [down?, Option.bind_eq_some_iff] at h
        obtain ⟨item, hitem, hrest⟩ := h
        rw [List.map_cons, Pointer.walk?, Step.token, Pointer.item?_toString hitem]
        exact ih hrest
      | _ => simp [down?] at h

/-- **The text of a path is a pointer to the value that the path leads to.** -/
theorem resolve?_concat {path : List Step} {value found : Json} (h : value.down? path = some found) :
    Pointer.resolve? (Text.concat (path.map Step.text)) value = some found := by
  have hstart : Text.concat (path.map Step.text) = "" ∨
      (Text.concat (path.map Step.text)).toList.head? = some '/' := by
    cases path with
    | nil => exact .inl rfl
    | cons step path => exact .inr (by simp [Text.concat, Step.text_eq])
  have htokens : Text.splitAt '/' (Text.concat (path.map Step.text)) = "" :: path.map Step.token := by
    rw [← String.empty_append (s := Text.concat (path.map Step.text)), splitAt_append_concat]
    rfl
  rw [Pointer.resolve?, if_pos hstart, htokens, List.tail_cons, walk?_tokens h]

/-! ## Paths lead to values -/

/-- The path of a breach leads on from a path to something inside a value. -/
def Leads (path : List Step) (value : Json) (v : Violation) : Prop :=
  ∃ steps found, v.path = path ++ steps ∧ value.down? steps = some found

theorem Leads.here {path : List Step} {value : Json} {problem : Problem} : Leads path value ⟨path, problem⟩ :=
  ⟨[], value, (List.append_nil path).symm, rfl⟩

theorem Leads.item {path : List Step} {elements : List Json} {i : Nat} {element : Json} {v : Violation}
    (hi : elements[i]? = some element) (h : Leads (path ++ [Step.index i]) element v) :
    Leads path (.arr elements) v := by
  obtain ⟨steps, found, hpath, hdown⟩ := h
  refine ⟨.index i :: steps, found, ?_, ?_⟩
  · rw [hpath, List.append_assoc, List.singleton_append]
  · rw [down?, hi, Option.bind_some, hdown]

theorem Leads.member {path : List Step} {members : List (String × Json)} {key : String} {member : Json}
    {v : Violation} (hm : members.lookup key = some member) (h : Leads (path ++ [Step.key key]) member v) :
    Leads path (.obj members) v := by
  obtain ⟨steps, found, hpath, hdown⟩ := h
  refine ⟨.key key :: steps, found, ?_, ?_⟩
  · rw [hpath, List.append_assoc, List.singleton_append]
  · rw [down?, hm, Option.bind_some, hdown]

theorem leads_of_mem_typeViolations {path : List Step} {types : List Kind} {value : Json} {v : Violation}
    (h : v ∈ typeViolations path types value) : Leads path value v := by
  unfold typeViolations at h
  split at h
  · cases h
  · rw [List.mem_singleton.1 h]
    exact .here

/-- **The path of every breach leads to a value**, whatever the schema is. -/
theorem leads_of_mem_violations (definitions : List (String × Schema)) : ∀ (value : Json) {schema : Schema}
    {path : List Step} {v : Violation}, v ∈ violations definitions schema path value → Leads path value v
  | .arr elements, schema, path, v, h => by
    rw [violations, List.mem_flatMap] at h
    obtain ⟨part, -, h⟩ := h
    cases part with
    | everything => cases h
    | nothing =>
      rw [List.mem_singleton.1 h]
      exact .here
    | rules reference items properties required types =>
      rcases List.mem_append.1 h with h | h
      · cases items with
        | none => cases h
        | some item =>
          obtain ⟨i, element, hi, hv⟩ := mem_itemViolations_iff.1 h
          have helement := List.mem_of_getElem? hi
          rw [Nat.zero_add] at hv
          exact .item hi (leads_of_mem_violations definitions element hv)
      · exact leads_of_mem_typeViolations h
  | .obj members, schema, path, v, h => by
    rw [violations, List.mem_flatMap] at h
    obtain ⟨part, -, h⟩ := h
    cases part with
    | everything => cases h
    | nothing =>
      rw [List.mem_singleton.1 h]
      exact .here
    | rules reference items properties required types =>
      rcases List.mem_append.1 h with h | h
      · rcases List.mem_append.1 h with h | h
        · obtain ⟨p, -, h⟩ := List.mem_flatMap.1 h
          obtain ⟨member, hm, hv⟩ := mem_memberViolations_iff.1 h
          have hmember := mem_of_lookup_eq_some hm
          exact .member hm (leads_of_mem_violations definitions member hv)
        · obtain ⟨name, -, rfl⟩ := List.mem_map.1 h
          exact .here
      · exact leads_of_mem_typeViolations h
  | .null, schema, path, v, h | .bool _, schema, path, v, h | .num _, schema, path, v, h
  | .str _, schema, path, v, h => by
    simp only [violations, List.mem_flatMap] at h
    obtain ⟨part, -, h⟩ := h
    cases part with
    | everything => cases h
    | nothing =>
      rw [List.mem_singleton.1 h]
      exact .here
    | rules reference items properties required types => exact leads_of_mem_typeViolations h
termination_by value => sizeOf value
decreasing_by
  · have hsmaller := List.sizeOf_lt_of_mem helement
    rw [arr.sizeOf_spec]
    omega
  · have hsmaller := List.sizeOf_lt_of_mem hmember
    rw [Prod.mk.sizeOf_spec] at hsmaller
    rw [obj.sizeOf_spec]
    omega

/-! ## Breaches below a place -/

/-- Steps that are those of a path at the beginning, as far as their texts tell. -/
def Within (path steps : List Step) : Prop :=
  path.map Step.token <+: steps.map Step.token

theorem Leads.within {path : List Step} {value : Json} {v : Violation} (h : Leads path value v) :
    Within path v.path := by
  obtain ⟨steps, -, hpath, -⟩ := h
  rw [hpath, Within, List.map_append]
  exact List.prefix_append _ _

theorem Within.shorter {path more steps : List Step} (h : Within (path ++ more) steps) : Within path steps := by
  rw [Within, List.map_append] at h
  exact (List.prefix_append _ _).trans h

/-- Two steps from the same path are equal in their texts where something is below both. -/
theorem Within.token_eq {path steps : List Step} {a b : Step} (ha : Within (path ++ [a]) steps)
    (hb : Within (path ++ [b]) steps) : a.token = b.token := by
  have hprefix := List.prefix_of_prefix_length_le ha hb (by simp)
  simpa using hprefix

variable {definitions : List (String × Schema)} {path : List Step} {v : Violation}

/-- The breaches of an array that are below an item are those of the item. -/
theorem mem_item_iff {item : Schema} {elements : List Json} {i : Nat} {element : Json}
    (hi : elements[i]? = some element) :
    v ∈ violations definitions item (path ++ [Step.index i]) element ↔
      v ∈ violations definitions (arrayOf item) path (.arr elements) ∧ Within (path ++ [Step.index i]) v.path := by
  rw [mem_violations_arrayOf_iff]
  constructor
  · intro h
    exact ⟨⟨i, element, hi, h⟩, (leads_of_mem_violations definitions element h).within⟩
  · rintro ⟨⟨k, other, hk, h⟩, hwithin⟩
    have htoken := hwithin.token_eq (leads_of_mem_violations definitions other h).within
    cases Naming.toString_injective htoken
    cases Option.some.inj (hi.symm.trans hk)
    exact h

/-- The breaches of an object that are below a member are those of the member. -/
theorem mem_member_iff {properties : List (String × Schema)} {required : List String} {members : List (String × Json)}
    {key : String} {property : Schema} {member : Json} (hkeys : (properties.map Prod.fst).Nodup)
    (hp : (key, property) ∈ properties) (hm : members.lookup key = some member) :
    v ∈ violations definitions property (path ++ [Step.key key]) member ↔
      v ∈ violations definitions (objectOf properties required) path (.obj members) ∧
        Within (path ++ [Step.key key]) v.path := by
  rw [mem_violations_objectOf_iff]
  constructor
  · intro h
    exact ⟨.inl ⟨(key, property), hp, member, hm, h⟩, (leads_of_mem_violations definitions member h).within⟩
  · rintro ⟨⟨p, hmem, other, hother, h⟩ | ⟨name, -, -, rfl⟩, hwithin⟩
    · have htoken := hwithin.token_eq (leads_of_mem_violations definitions other h).within
      have hkey : key = p.1 := Step.key_of_token_eq htoken
      have hsame : (key, property) = p := List.inj_on_of_nodup_map hkeys hp hmem hkey
      subst hsame
      cases Option.some.inj (hm.symm.trans hother)
      exact h
    · -- a missing key is reported at the object, which is above its members
      have hlength := hwithin.length_le
      rw [List.length_map, List.length_map, List.length_append, List.length_singleton] at hlength
      exact absurd hlength (Nat.not_succ_le_self path.length)

/-- The breaches of an object that are below an item of one of its members are those of the item. -/
theorem mem_listed_iff {properties : List (String × Schema)} {required : List String} {members : List (String × Json)}
    {key : String} {item : Schema} {elements : List Json} {i : Nat} {element : Json}
    (hkeys : (properties.map Prod.fst).Nodup) (hp : (key, arrayOf item) ∈ properties)
    (hm : members.lookup key = some (.arr elements)) (hi : elements[i]? = some element) :
    v ∈ violations definitions item (path ++ [Step.key key, .index i]) element ↔
      v ∈ violations definitions (objectOf properties required) path (.obj members) ∧
        Within (path ++ [Step.key key, .index i]) v.path := by
  have hsplit : path ++ [Step.key key, .index i] = path ++ [Step.key key] ++ [Step.index i] := by simp
  rw [hsplit, mem_item_iff hi, mem_member_iff hkeys hp hm, and_assoc]
  exact and_congr_right fun _ => and_iff_right_of_imp Within.shorter

end Json.Schema

/-! ## Texts of places -/

open Json.Schema

/-- The path of a place, or one that goes on behind it with a slash. -/
def Below (place path : String) : Prop :=
  path = place ∨ ∃ rest, path = place ++ "/" ++ rest

theorem below_pathText_iff {path steps : List Step} :
    Below (pathText path) (pathText steps) ↔ Within path steps := by
  constructor
  · intro h
    have hcut : Text.splitAt '/' (pathText path) <+: Text.splitAt '/' (pathText steps) := by
      rcases h with h | ⟨rest, h⟩
      · exact h ▸ List.prefix_rfl
      · have hpieces : Text.splitAt '/' (pathText path ++ "/" ++ rest) =
            Text.splitAt '/' (pathText path) ++ Text.splitAt '/' rest := Text.splitAt_append (by simp)
        rw [h, hpieces]
        exact List.prefix_append _ _
    rw [pathText, pathText, splitAt_append_concat, splitAt_append_concat] at hcut
    exact (List.prefix_append_right_inj _).1 hcut
  · rintro ⟨tokens, h⟩
    have htext : ∀ steps : List Step, pathText steps = "$" ++ Text.concat ((steps.map Step.token).map ("/" ++ ·)) := by
      intro steps
      rw [pathText, List.map_map]
      congr 3
      funext step
      exact step.text_eq
    rw [htext path, htext steps, ← h, List.map_append, Text.concat_append, ← String.append_assoc]
    cases tokens with
    | nil => exact .inl (by simp [Text.concat])
    | cons token tokens =>
      refine .inr ⟨token ++ Text.concat (tokens.map ("/" ++ ·)), ?_⟩
      rw [List.map_cons, Text.concat]
      simp [String.append_assoc]

/-! ## Definitions and properties -/

namespace Wire

/-- The breaches below a definition are those of the definition. -/
theorem mem_definition_iff {document element : Json} {types : List Json} {i : Nat} {v : Violation}
    (htypes : document.member? "types" = some (.arr types)) (hi : types[i]? = some element) :
    v ∈ violations wireSchema.definitions (refer (referenceTo "TypeDefinition")) [.key "types", .index i] element ↔
      v ∈ wireSchema.violations document ∧ Within [.key "types", .index i] v.path := by
  cases document with
  | obj members =>
    have hroot : wireSchema.violations (.obj members) =
        violations wireSchema.definitions systemSchema [] (.obj members) := rfl
    rw [hroot, ← List.nil_append [Step.key "types", .index i], systemSchema]
    exact mem_listed_iff (by decide) (by simp) htypes hi
  | _ => cases htypes

/-- The breaches of a definition below one of its properties are those of the property. -/
theorem mem_property_iff {path : List Step} {definition property : Json} {properties : List Json} {j : Nat}
    {v : Violation} (hproperties : definition.member? "properties" = some (.arr properties))
    (hj : properties[j]? = some property) :
    v ∈ violations wireSchema.definitions (refer (referenceTo "PropertyDefinition"))
        (path ++ [Step.key "properties", .index j]) property ↔
      v ∈ violations wireSchema.definitions (refer (referenceTo "TypeDefinition")) path definition ∧
        Within (path ++ [Step.key "properties", .index j]) v.path := by
  cases definition with
  | obj members =>
    have htarget : violations wireSchema.definitions (refer (referenceTo "TypeDefinition")) path (.obj members) =
        violations wireSchema.definitions definitionSchema path (.obj members) :=
      violations_refer find?_typeDefinition path (.obj members)
    rw [htarget, definitionSchema]
    exact mem_listed_iff (by decide) (by simp) hproperties hj
  | _ => cases hproperties

/-- The breaches below a property of a definition are those of the property. -/
theorem mem_definition_property_iff {document definition property : Json} {types properties : List Json} {i j : Nat}
    {v : Violation} (htypes : document.member? "types" = some (.arr types)) (hi : types[i]? = some definition)
    (hproperties : definition.member? "properties" = some (.arr properties)) (hj : properties[j]? = some property) :
    v ∈ violations wireSchema.definitions (refer (referenceTo "PropertyDefinition"))
        ([Step.key "types", .index i] ++ [Step.key "properties", .index j]) property ↔
      v ∈ wireSchema.violations document ∧
        Within ([Step.key "types", .index i] ++ [Step.key "properties", .index j]) v.path := by
  rw [mem_property_iff hproperties hj, mem_definition_iff htypes hi, and_assoc]
  exact and_congr_right fun _ => and_iff_right_of_imp Within.shorter

theorem checkSchemaJson_publishedSchema (file : String) (document : Json) :
    checkSchemaJson publishedSchema file document = (wireSchema.violations document).map (.ofViolation file) := by
  rw [checkSchemaJson, ofJson_publishedSchema]
  rfl

theorem pathText_definition (i : Nat) :
    pathText [.key "types", .index i] = "$/types/" ++ toString i := by
  have hkey : Step.escapeKey "types" = "types" := by decide
  apply String.toList_injective
  simp [pathText, Text.concat, Step.text_eq, Step.token, hkey]

theorem pathText_property (i j : Nat) :
    pathText ([Step.key "types", .index i] ++ [Step.key "properties", .index j]) =
      "$/types/" ++ toString i ++ "/properties/" ++ toString j := by
  have hkey : Step.escapeKey "properties" = "properties" := by decide
  rw [← pathText_definition, pathText, pathText, List.map_append, Text.concat_append]
  apply String.toList_injective
  simp [Text.concat, Step.text_eq, Step.token, hkey]

/-- There is a diagnostic below a place exactly if the value there has a breach. -/
theorem exists_below_iff {file : String} {document value : Json} {schema : Schema} {place : List Step}
    (h : ∀ v, v ∈ violations wireSchema.definitions schema place value ↔
      v ∈ wireSchema.violations document ∧ Within place v.path) :
    (∃ entry ∈ checkSchemaJson publishedSchema file document, Below (pathText place) entry.path) ↔
      violations wireSchema.definitions schema place value ≠ [] := by
  rw [checkSchemaJson_publishedSchema]
  constructor
  · rintro ⟨_, hentry, hbelow⟩
    obtain ⟨v, hv, rfl⟩ := List.mem_map.1 hentry
    exact List.ne_nil_of_mem ((h v).2 ⟨hv, below_pathText_iff.1 hbelow⟩)
  · intro hne
    obtain ⟨v, hv⟩ := List.exists_mem_of_ne_nil _ hne
    obtain ⟨hmem, hwithin⟩ := (h v).1 hv
    exact ⟨.ofViolation file v, List.mem_map_of_mem hmem, below_pathText_iff.2 hwithin⟩

end Wire

open Wire in
/-- **The diagnostics of a document locate all its breaches.** Below a definition there is a diagnostic exactly if the
definition does not follow the grammar, and so it is for the properties of a definition, however many of them are
broken. Every diagnostic is an error of the schema in the given file, and its path points to a value of the document. -/
theorem breaches_are_located (file : String) (document : Json) :
    (∀ types, document.member? "types" = some (.arr types) → ∀ (i : Nat) definition, types[i]? = some definition →
      ((∃ entry ∈ checkSchemaJson publishedSchema file document, Below ("$/types/" ++ toString i) entry.path) ↔
        ¬IsObject (DefinitionNode TypeNode) definition) ∧
      ∀ properties, definition.member? "properties" = some (.arr properties) →
        ∀ (j : Nat) property, properties[j]? = some property →
          ((∃ entry ∈ checkSchemaJson publishedSchema file document,
              Below ("$/types/" ++ toString i ++ "/properties/" ++ toString j) entry.path) ↔
            ¬IsObject (PropertyNode TypeNode) property)) ∧
    ∀ entry ∈ checkSchemaJson publishedSchema file document,
      entry.code = "E_SCHEMA_VIOLATION" ∧ entry.severity = .error ∧ entry.file = file ∧
        ∃ pointer found, entry.path = "$" ++ pointer ∧ Json.Pointer.resolve? pointer document = some found := by
  constructor
  · intro types htypes i definition hi
    constructor
    · rw [← pathText_definition, exists_below_iff fun v => mem_definition_iff htypes hi]
      exact not_congr violations_definition_eq_nil_iff
    · intro properties hproperties j property hj
      rw [← pathText_property, exists_below_iff fun v => mem_definition_property_iff htypes hi hproperties hj]
      exact not_congr violations_property_eq_nil_iff
  · intro entry hentry
    rw [checkSchemaJson_publishedSchema, List.mem_map] at hentry
    obtain ⟨v, hv, rfl⟩ := hentry
    obtain ⟨steps, found, hpath, hdown⟩ := leads_of_mem_violations wireSchema.definitions document hv
    rw [List.nil_append] at hpath
    refine ⟨rfl, rfl, rfl, Text.concat (v.path.map Step.text), found, rfl, ?_⟩
    exact resolve?_concat (hpath ▸ hdown)

namespace Wire

/-- A property whose type has an inner type that is a number. -/
def numberInType : Json :=
  .obj [("isRequired", .bool true), ("name", .str "x"),
    ("type", .obj [("elementType", .num (.int 5)), ("kind", .str "array")])]

def namelessProperty : Json := .obj [("isRequired", .bool true), ("type", .obj [("kind", .str "tuple")])]

/-- A definition with two broken properties, and a number in the place of a definition. -/
def brokenDefinitions : List Json :=
  [.obj [("name", .str "Point"), ("properties", .arr [numberInType, namelessProperty])], .num (.int 7)]

end Wire

open Wire in
theorem breaches_are_located_point :
    (Json.obj [("types", .arr brokenDefinitions)]).member? "types" = some (.arr brokenDefinitions) ∧
      (∃ entry ∈ checkSchemaJson publishedSchema "p" (.obj [("types", .arr brokenDefinitions)]),
        Below "$/types/0/properties/0" entry.path) ∧
      (∃ entry ∈ checkSchemaJson publishedSchema "p" (.obj [("types", .arr brokenDefinitions)]),
        Below "$/types/0/properties/1" entry.path) ∧
      ∃ entry ∈ checkSchemaJson publishedSchema "p" (.obj [("types", .arr brokenDefinitions)]),
        Below "$/types/1" entry.path := by
  obtain ⟨hlocated, -⟩ := breaches_are_located "p" (.obj [("types", .arr brokenDefinitions)])
  obtain ⟨-, hproperties⟩ := hlocated brokenDefinitions rfl 0 _ rfl
  obtain ⟨hnumber, -⟩ := hlocated brokenDefinitions rfl 1 _ rfl
  refine ⟨rfl, (hproperties _ rfl 0 numberInType rfl).2 ?_, (hproperties _ rfl 1 namelessProperty rfl).2 ?_,
    hnumber.2 ?_⟩
  · rintro ⟨members, hmembers, h⟩
    cases hmembers
    obtain ⟨type, htype, hnode⟩ := h.type
    cases htype
    cases hnode with
    | node _ _ elementType _ => cases elementType _ rfl
  · rintro ⟨members, hmembers, h⟩
    cases hmembers
    obtain ⟨name, hname, -⟩ := h.name
    cases hname
  · rintro ⟨members, hmembers, -⟩
    cases hmembers

end TypeBindings
