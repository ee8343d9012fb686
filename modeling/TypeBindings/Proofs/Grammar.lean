import Mathlib
import TypeBindings.Document
import TypeBindings.Proofs.DistinctKeys
import TypeBindings.Proofs.Failure
import TypeBindings.Proofs.Schema

/-!
# The documents that are accepted

Two independent steps decide whether a document is a type system: the schema, and the decoder behind it. This module
writes down the grammar of accepted documents on its own (`SystemNode`), with what is asked of the type of a property
as a parameter, and shows

* the schema asks for the grammar with types that are `TypeNode`s (`checkSchema_eq_nil_iff`);
* the decoder asks for the grammar with types that can be decoded (`succeeds_ofJson_iff`);
* a `TypeNode` without repeated keys can be decoded if it has the parts its kinds ask for along the way down
  (`succeeds_shape_iff`).

So a document is accepted exactly when it follows the grammar with both conditions on types (`parse_accepts_iff`).
-/

namespace TypeBindings

open Json (Schema)

namespace Wire

/-! ## The grammar -/

/-- The member with a key satisfies `P`, if it is there. -/
def MayHave (key : String) (P : Json → Prop) (members : List (String × Json)) : Prop :=
  ∀ value, members.lookup key = some value → P value

/-- The member with a key is there and satisfies `P`. -/
def MustHave (key : String) (P : Json → Prop) (members : List (String × Json)) : Prop :=
  ∃ value, members.lookup key = some value ∧ P value

def IsText (value : Json) : Prop := ∃ s, value = .str s

def IsFlag (value : Json) : Prop := ∃ b, value = .bool b

def IsTextOrNull (value : Json) : Prop := value = .null ∨ IsText value

def IsListOf (P : Json → Prop) (value : Json) : Prop := ∃ items, value = .arr items ∧ ∀ item ∈ items, P item

def IsObject (P : List (String × Json) → Prop) (value : Json) : Prop := ∃ members, value = .obj members ∧ P members

/-- What the schema asks of the type of a property: a kind that is a text, whichever it is, and inner types of the same
form wherever their keys are, needed or not. -/
inductive TypeNode : Json → Prop
  | node {members : List (String × Json)} (kind : MustHave "kind" IsText members)
      (typeName : MayHave "typeName" IsText members)
      (elementType : ∀ value, members.lookup "elementType" = some value → TypeNode value)
      (valueType : ∀ value, members.lookup "valueType" = some value → TypeNode value) : TypeNode (.obj members)

/-- The kinds of types that have parts. -/
def knownKinds : List String := ["primitive", "reference", "array", "map"]

/-- What the decoder asks of it: each kind on the way down has its part. A kind that is not known ends the way. -/
inductive Decodable : Json → Prop
  | named {members : List (String × Json)} {kind name : String} (hkind : members.lookup "kind" = some (.str kind))
      (known : kind = "primitive" ∨ kind = "reference") (part : members.lookup "typeName" = some (.str name)) :
      Decodable (.obj members)
  | array {members : List (String × Json)} {element : Json} (hkind : members.lookup "kind" = some (.str "array"))
      (part : members.lookup "elementType" = some element) (inner : Decodable element) : Decodable (.obj members)
  | map {members : List (String × Json)} {value : Json} (hkind : members.lookup "kind" = some (.str "map"))
      (part : members.lookup "valueType" = some value) (inner : Decodable value) : Decodable (.obj members)
  | unknown {members : List (String × Json)} {kind : String} (hkind : members.lookup "kind" = some (.str kind))
      (notKnown : kind ∉ knownKinds) : Decodable (.obj members)

/-- The members of a property whose type satisfies `T`. -/
structure PropertyNode (T : Json → Prop) (members : List (String × Json)) : Prop where
  name : MustHave "name" IsText members
  type : MustHave "type" T members
  isRequired : MustHave "isRequired" IsFlag members
  description : MayHave "description" IsTextOrNull members

/-- The members of a definition. Its properties are looked at whatever its flags say. -/
structure DefinitionNode (T : Json → Prop) (members : List (String × Json)) : Prop where
  name : MustHave "name" IsText members
  properties : MayHave "properties" (IsListOf (IsObject (PropertyNode T))) members
  parentType : MayHave "parentType" IsTextOrNull members
  description : MayHave "description" IsTextOrNull members
  isEnum : MayHave "isEnum" IsFlag members
  enumValues : MayHave "enumValues" (IsListOf IsText) members
  isUnionType : MayHave "isUnionType" IsFlag members
  isUnionComponentOnly : MayHave "isUnionComponentOnly" IsFlag members

/-- The members of a type system. -/
structure SystemNode (T : Json → Prop) (members : List (String × Json)) : Prop where
  package : MayHave "namespace" IsTextOrNull members
  types : MayHave "types" (IsListOf (IsObject (DefinitionNode T))) members

/-- A document that is a type system. -/
def IsSystem (value : Json) : Prop :=
  IsObject (SystemNode fun type => TypeNode type ∧ Decodable type) value

theorem mustHave_iff {key : String} {P : Json → Prop} {members : List (String × Json)} :
    MustHave key P members ↔ MayHave key P members ∧ (members.lookup key).isSome = true := by
  unfold MustHave MayHave
  cases members.lookup key with
  | none => simp
  | some value => simp

theorem mustHave_congr {key : String} {P Q : Json → Prop} {members : List (String × Json)}
    (h : ∀ value, members.lookup key = some value → (P value ↔ Q value)) :
    MustHave key P members ↔ MustHave key Q members :=
  exists_congr fun value => and_congr_right fun hv => h value hv

/-! ## What the schema asks -/

section Checked

open Json.Schema

theorem find?_typeDefinition :
    wireSchema.definitions.find? (·.1 = referenceTo "TypeDefinition") =
      some (referenceTo "TypeDefinition", definitionSchema) := by
  decide +kernel

theorem find?_propertyDefinition :
    wireSchema.definitions.find? (·.1 = referenceTo "PropertyDefinition") =
      some (referenceTo "PropertyDefinition", propertySchema) := by
  decide +kernel

theorem find?_propertyType :
    wireSchema.definitions.find? (·.1 = referenceTo "PropertyType") =
      some (referenceTo "PropertyType", shapeSchema) := by
  decide +kernel

variable {path : List Step} {value : Json}

theorem violations_text_eq_nil_iff :
    violations wireSchema.definitions (typed [.string]) path value = [] ↔ IsText value := by
  rw [violations_typed, typeViolations_eq_nil_iff]
  cases value <;> simp [Json.Kind.admits, IsText]

theorem violations_flag_eq_nil_iff :
    violations wireSchema.definitions (typed [.boolean]) path value = [] ↔ IsFlag value := by
  rw [violations_typed, typeViolations_eq_nil_iff]
  cases value <;> simp [Json.Kind.admits, IsFlag]

theorem violations_textOrNull_eq_nil_iff :
    violations wireSchema.definitions textOrNull path value = [] ↔ IsTextOrNull value := by
  unfold textOrNull
  rw [violations_typed, typeViolations_eq_nil_iff]
  cases value <;> simp [Json.Kind.admits, IsTextOrNull, IsText]

/-- The schema of a type, one step down. -/
theorem violations_shape_eq_nil_iff :
    violations wireSchema.definitions (refer (referenceTo "PropertyType")) path value = [] ↔
      ∃ members, value = .obj members ∧ MustHave "kind" IsText members ∧ MayHave "typeName" IsText members ∧
        (∀ element, members.lookup "elementType" = some element → violations wireSchema.definitions
          (refer (referenceTo "PropertyType")) (path ++ [Step.key "elementType"]) element = []) ∧
        ∀ inner, members.lookup "valueType" = some inner → violations wireSchema.definitions
          (refer (referenceTo "PropertyType")) (path ++ [Step.key "valueType"]) inner = [] := by
  rw [violations_refer find?_propertyType]
  change violations _ (objectOf _ _) _ _ = [] ↔ _
  rw [violations_objectOf_eq_nil_iff]
  simp only [List.forall_mem_cons, violations_text_eq_nil_iff, mustHave_iff]
  constructor
  · rintro ⟨members, rfl, ⟨helement, hkind, htypeName, hvalue, -⟩, hneeded, -⟩
    exact ⟨members, rfl, ⟨hkind, hneeded⟩, htypeName, helement, hvalue⟩
  · rintro ⟨members, rfl, ⟨hkind, hneeded⟩, htypeName, helement, hvalue⟩
    exact ⟨members, rfl, ⟨helement, hkind, htypeName, hvalue, nofun⟩, hneeded, nofun⟩

theorem violations_eq_nil_of_typeNode (h : TypeNode value) : ∀ path,
    violations wireSchema.definitions (refer (referenceTo "PropertyType")) path value = [] := by
  induction h with
  | node kind typeName _ _ ihElement ihValue =>
    intro path
    exact violations_shape_eq_nil_iff.2
      ⟨_, rfl, kind, typeName, fun element he => ihElement element he _, fun inner hi => ihValue inner hi _⟩

mutual

theorem typeNode_of_violations : ∀ (value : Json) (path : List Step),
    violations wireSchema.definitions (refer (referenceTo "PropertyType")) path value = [] → TypeNode value
  | .obj members, path, h => by
    obtain ⟨_, hm, kind, typeName, element, inner⟩ := violations_shape_eq_nil_iff.1 h
    cases hm
    exact .node kind typeName (fun value hv => typeNode_of_lookup members hv (element value hv))
      fun value hv => typeNode_of_lookup members hv (inner value hv)
  | .arr _, _, h | .str _, _, h | .num _, _, h | .bool _, _, h | .null, _, h => by
    obtain ⟨_, hm, _⟩ := violations_shape_eq_nil_iff.1 h
    cases hm

theorem typeNode_of_lookup : ∀ (members : List (String × Json)) {key : String} {value : Json} {path : List Step},
    members.lookup key = some value →
      violations wireSchema.definitions (refer (referenceTo "PropertyType")) path value = [] → TypeNode value
  | [], _, _, _, hl, _ => by cases hl
  | (name, first) :: rest, key, value, path, hl, h => by
    rw [List.lookup_cons] at hl
    split at hl
    · cases hl
      exact typeNode_of_violations first path h
    · exact typeNode_of_lookup rest hl h

end

/-- **The schema of a type asks for a `TypeNode`.** -/
theorem violations_type_eq_nil_iff :
    violations wireSchema.definitions (refer (referenceTo "PropertyType")) path value = [] ↔ TypeNode value :=
  ⟨typeNode_of_violations value path, fun h => violations_eq_nil_of_typeNode h path⟩

/-- Lists that follow the schema of their items. -/
theorem violations_list_eq_nil_iff {item : Schema} {P : Json → Prop}
    (hitem : ∀ path value, violations wireSchema.definitions item path value = [] ↔ P value) :
    violations wireSchema.definitions (arrayOf item) path value = [] ↔ IsListOf P value := by
  rw [violations_arrayOf_eq_nil_iff]
  simp only [hitem, IsListOf, List.mem_iff_getElem?]
  constructor
  · rintro ⟨items, rfl, h⟩
    exact ⟨items, rfl, fun item ⟨i, hi⟩ => h i item hi⟩
  · rintro ⟨items, rfl, h⟩
    exact ⟨items, rfl, fun i item hi => h item ⟨i, hi⟩⟩

theorem violations_property_eq_nil_iff :
    violations wireSchema.definitions (refer (referenceTo "PropertyDefinition")) path value = [] ↔
      IsObject (PropertyNode TypeNode) value := by
  rw [violations_refer find?_propertyDefinition]
  change violations _ (objectOf _ _) _ _ = [] ↔ _
  rw [violations_objectOf_eq_nil_iff]
  simp only [List.forall_mem_cons, violations_text_eq_nil_iff, violations_flag_eq_nil_iff,
    violations_textOrNull_eq_nil_iff, violations_type_eq_nil_iff]
  constructor
  · rintro ⟨members, rfl, ⟨hdescription, hrequired, hname, htype, -⟩, hrequired', hname', htype', -⟩
    exact ⟨members, rfl, mustHave_iff.2 ⟨hname, hname'⟩, mustHave_iff.2 ⟨htype, htype'⟩,
      mustHave_iff.2 ⟨hrequired, hrequired'⟩, hdescription⟩
  · rintro ⟨members, rfl, h⟩
    obtain ⟨hname, hname'⟩ := mustHave_iff.1 h.name
    obtain ⟨htype, htype'⟩ := mustHave_iff.1 h.type
    obtain ⟨hrequired, hrequired'⟩ := mustHave_iff.1 h.isRequired
    exact ⟨members, rfl, ⟨h.description, hrequired, hname, htype, nofun⟩, hrequired', hname', htype', nofun⟩

theorem violations_definition_eq_nil_iff :
    violations wireSchema.definitions (refer (referenceTo "TypeDefinition")) path value = [] ↔
      IsObject (DefinitionNode TypeNode) value := by
  have hvalues : ∀ path value, violations wireSchema.definitions (arrayOf (typed [.string])) path value = [] ↔
      IsListOf IsText value := fun _ _ => violations_list_eq_nil_iff fun _ _ => violations_text_eq_nil_iff
  have hproperties : ∀ path value,
      violations wireSchema.definitions (arrayOf (refer (referenceTo "PropertyDefinition"))) path value = [] ↔
        IsListOf (IsObject (PropertyNode TypeNode)) value :=
    fun _ _ => violations_list_eq_nil_iff fun _ _ => violations_property_eq_nil_iff
  rw [violations_refer find?_typeDefinition]
  change violations _ (objectOf _ _) _ _ = [] ↔ _
  rw [violations_objectOf_eq_nil_iff]
  simp only [List.forall_mem_cons, violations_text_eq_nil_iff, violations_flag_eq_nil_iff,
    violations_textOrNull_eq_nil_iff, hvalues, hproperties]
  constructor
  · rintro ⟨members, rfl, ⟨hdescription, hvalues, hisEnum, honly, hisUnion, hname, hparent, hproperties, -⟩, hname', -⟩
    exact ⟨members, rfl, mustHave_iff.2 ⟨hname, hname'⟩, hproperties, hparent, hdescription, hisEnum, hvalues,
      hisUnion, honly⟩
  · rintro ⟨members, rfl, h⟩
    obtain ⟨hname, hname'⟩ := mustHave_iff.1 h.name
    exact ⟨members, rfl, ⟨h.description, h.enumValues, h.isEnum, h.isUnionComponentOnly, h.isUnionType, hname,
      h.parentType, h.properties, nofun⟩, hname', nofun⟩

theorem violations_system_eq_nil_iff :
    wireSchema.violations value = [] ↔ IsObject (SystemNode TypeNode) value := by
  have htypes : ∀ path value,
      violations wireSchema.definitions (arrayOf (refer (referenceTo "TypeDefinition"))) path value = [] ↔
        IsListOf (IsObject (DefinitionNode TypeNode)) value :=
    fun _ _ => violations_list_eq_nil_iff fun _ _ => violations_definition_eq_nil_iff
  change violations _ (objectOf _ _) _ _ = [] ↔ _
  rw [violations_objectOf_eq_nil_iff]
  simp only [List.forall_mem_cons, violations_textOrNull_eq_nil_iff, htypes]
  constructor
  · rintro ⟨members, rfl, ⟨hpackage, htypes, -⟩, -⟩
    exact ⟨members, rfl, hpackage, htypes⟩
  · rintro ⟨members, rfl, h⟩
    exact ⟨members, rfl, ⟨h.package, h.types, nofun⟩, nofun⟩

end Checked

/-- **The schema asks for the grammar with types that are `TypeNode`s.** -/
theorem checkSchema_eq_nil_iff {file : String} {value : Json} :
    checkSchema wireSchema file value = [] ↔ IsObject (SystemNode TypeNode) value := by
  unfold checkSchema
  rw [List.map_eq_nil_iff]
  exact violations_system_eq_nil_iff

/-! ## What the decoder asks -/

section Decoded

open Json

variable {ε α β : Type}

variable {decode : Json → Except ShapeError α} {key : String} {members : List (String × Json)} {value : Json}

theorem succeeds_needed :
    Succeeds (needed key decode members) ↔ MustHave key (fun v => Succeeds (decode v)) members := by
  unfold needed MustHave
  cases members.lookup key with
  | none => simp [not_succeeds_error]
  | some v => simp

theorem succeeds_given {absent : α} :
    Succeeds (given key absent decode members) ↔ MayHave key (fun v => Succeeds (decode v)) members := by
  unfold given MayHave
  cases members.lookup key with
  | none => simp [succeeds_ok]
  | some v => simp

theorem succeeds_asText : Succeeds (asText value) ↔ IsText value := by
  cases value <;> simp [asText, IsText, succeeds_ok, not_succeeds_error]

theorem succeeds_asBool : Succeeds (asBool value) ↔ IsFlag value := by
  cases value <;> simp [asBool, IsFlag, succeeds_ok, not_succeeds_error]

theorem succeeds_asNullable_asText : Succeeds (asNullable asText value) ↔ IsTextOrNull value := by
  cases value with
  | null => exact ⟨fun _ => Or.inl rfl, fun _ => succeeds_ok none⟩
  | _ =>
    change Succeeds (some <$> asText _) ↔ _
    rw [succeeds_map, succeeds_asText]
    simp [IsTextOrNull]

theorem succeeds_asList : Succeeds (asList decode value) ↔ IsListOf (fun v => Succeeds (decode v)) value := by
  cases value <;> simp [asList, IsListOf, succeeds_mapM, not_succeeds_error]

theorem isObject_congr {P Q : List (String × Json) → Prop} (h : ∀ members, P members ↔ Q members) :
    IsObject P value ↔ IsObject Q value :=
  exists_congr fun members => and_congr_right fun _ => h members

theorem succeeds_asMembers_bind {name : String} {f : List (String × Json) → Except ShapeError α} :
    Succeeds (asMembers name value >>= f) ↔ IsObject (fun members => Succeeds (f members)) value := by
  rw [succeeds_bind]
  cases value <;> simp [asMembers, IsObject]

/-- A record of independent parts is decoded if each of its parts is. -/
theorem succeeds_bind_iff_and {x : Except ε α} {f : α → Except ε β} {q : Prop} (h : ∀ a, Succeeds (f a) ↔ q) :
    Succeeds (x >>= f) ↔ Succeeds x ∧ q := by
  simp only [succeeds_bind, h, exists_and_right]
  rfl

theorem succeeds_property_iff :
    Succeeds (Property.ofJson value) ↔ IsObject (PropertyNode fun type => Succeeds (Shape.ofJson type)) value := by
  unfold Property.ofJson
  rw [succeeds_asMembers_bind]
  refine isObject_congr fun members => ?_
  rw [succeeds_bind_iff_and fun _ => succeeds_bind_iff_and fun _ => succeeds_bind_iff_and fun _ =>
    succeeds_bind_iff_and fun _ => iff_true_intro (succeeds_pure _)]
  simp only [succeeds_needed, succeeds_given, succeeds_asText, succeeds_asBool, succeeds_asNullable_asText, and_true]
  exact ⟨fun ⟨name, type, isRequired, description⟩ => ⟨name, type, isRequired, description⟩,
    fun h => ⟨h.name, h.type, h.isRequired, h.description⟩⟩

theorem succeeds_definition_iff :
    Succeeds (Definition.ofJson value) ↔ IsObject (DefinitionNode fun type => Succeeds (Shape.ofJson type)) value := by
  unfold Definition.ofJson FlatDefinition.ofJson
  rw [succeeds_map, succeeds_asMembers_bind]
  refine isObject_congr fun members => ?_
  rw [succeeds_bind_iff_and fun _ => succeeds_bind_iff_and fun _ => succeeds_bind_iff_and fun _ =>
    succeeds_bind_iff_and fun _ => succeeds_bind_iff_and fun _ => succeeds_bind_iff_and fun _ =>
    succeeds_bind_iff_and fun _ => succeeds_bind_iff_and fun _ => iff_true_intro (succeeds_pure _)]
  simp only [succeeds_needed, succeeds_given, succeeds_asText, succeeds_asBool, succeeds_asNullable_asText,
    succeeds_asList, succeeds_property_iff, and_true]
  exact ⟨fun ⟨name, properties, parentType, description, isEnum, enumValues, isUnionType, isUnionComponentOnly⟩ =>
      ⟨name, properties, parentType, description, isEnum, enumValues, isUnionType, isUnionComponentOnly⟩,
    fun h => ⟨h.name, h.properties, h.parentType, h.description, h.isEnum, h.enumValues, h.isUnionType,
      h.isUnionComponentOnly⟩⟩

/-- **The decoder asks for the grammar with types that can be decoded.** -/
theorem succeeds_ofJson_iff :
    Succeeds (TypeSystem.ofJson value) ↔ IsObject (SystemNode fun type => Succeeds (Shape.ofJson type)) value := by
  unfold TypeSystem.ofJson
  rw [succeeds_asMembers_bind]
  refine isObject_congr fun members => ?_
  rw [succeeds_bind_iff_and fun _ => succeeds_bind_iff_and fun _ => iff_true_intro (succeeds_pure _)]
  simp only [succeeds_given, succeeds_asNullable_asText, succeeds_asList, succeeds_definition_iff, and_true]
  exact ⟨fun ⟨package, types⟩ => ⟨package, types⟩, fun h => ⟨h.package, h.types⟩⟩

/-! ### Types of properties -/

/-- Where no key comes twice, a member is looked up as usual. -/
theorem single_eq_needed : ∀ {members : List (String × Json)}, (members.map Prod.fst).Nodup →
    Shape.single key decode members = needed key decode members
  | [], _ => rfl
  | (name, first) :: rest, h => by
    obtain ⟨hname, hrest⟩ := List.nodup_cons.1 h
    rw [Shape.single, needed, List.lookup_cons]
    by_cases hk : name = key
    · subst hk
      have hnone : rest.lookup name = none := by
        cases hl : rest.lookup name with
        | none => rfl
        | some v => exact absurd (List.mem_map.2 ⟨_, mem_of_lookup_eq_some hl, rfl⟩) hname
      rw [if_pos rfl, hnone, beq_self_eq_true]
      change _ = decode first
      cases decode first <;> rfl
    · have hne : (key == name) = false := by simpa using fun e => hk e.symm
      rw [if_neg hk, hne]
      exact single_eq_needed hrest

theorem inner_eq_single (key : String) : ∀ members : List (String × Json),
    Shape.inner key members = Shape.single key Shape.ofJson members
  | [] => by rw [Shape.inner, Shape.single]
  | (name, first) :: rest => by rw [Shape.inner, Shape.single, inner_eq_single key rest]

variable {kind : String}

/-- Where no key comes twice, the kind of a type says which part is decoded. -/
theorem ofJson_obj (hkeys : (members.map Prod.fst).Nodup) (hkind : members.lookup "kind" = some (.str kind)) :
    Shape.ofJson (.obj members) = match Shape.Tag.ofName kind with
      | .primitive => Shape.primitive <$> needed "typeName" asText members
      | .reference => Shape.reference <$> needed "typeName" asText members
      | .array => Shape.array <$> needed "elementType" Shape.ofJson members
      | .map => Shape.map <$> needed "valueType" Shape.ofJson members
      | .unknown => .ok .unknown := by
  rw [Shape.ofJson, single_eq_needed hkeys, needed, hkind]
  change Shape.ofMembers (.ofName kind) members = _
  cases Shape.Tag.ofName kind with
  | primitive => rw [Shape.ofMembers, single_eq_needed hkeys]
  | reference => rw [Shape.ofMembers, single_eq_needed hkeys]
  | array => rw [Shape.ofMembers, inner_eq_single, single_eq_needed hkeys]
  | map => rw [Shape.ofMembers, inner_eq_single, single_eq_needed hkeys]
  | unknown => rw [Shape.ofMembers]

theorem ofName_eq_unknown (h : kind ∉ knownKinds) : Shape.Tag.ofName kind = .unknown := by
  unfold Shape.Tag.ofName
  split
  · exact absurd (by decide) h
  · exact absurd (by decide) h
  · exact absurd (by decide) h
  · exact absurd (by decide) h
  · rfl

theorem decodable_obj_iff (hkind : members.lookup "kind" = some (.str kind)) :
    Decodable (.obj members) ↔ match Shape.Tag.ofName kind with
      | .primitive | .reference => MustHave "typeName" IsText members
      | .array => MustHave "elementType" Decodable members
      | .map => MustHave "valueType" Decodable members
      | .unknown => True := by
  constructor
  · intro h
    cases h with
    | named hk known part =>
      cases hkind.symm.trans hk
      rcases known with rfl | rfl
      · exact ⟨_, part, _, rfl⟩
      · exact ⟨_, part, _, rfl⟩
    | array hk part inner =>
      cases hkind.symm.trans hk
      exact ⟨_, part, inner⟩
    | map hk part inner =>
      cases hkind.symm.trans hk
      exact ⟨_, part, inner⟩
    | unknown hk notKnown =>
      cases hkind.symm.trans hk
      rw [ofName_eq_unknown notKnown]
      trivial
  · intro h
    by_cases hk : kind ∈ knownKinds
    · simp only [knownKinds, List.mem_cons, List.not_mem_nil, or_false] at hk
      rcases hk with rfl | rfl | rfl | rfl
      · obtain ⟨_, part, name, rfl⟩ := h
        exact .named hkind (Or.inl rfl) part
      · obtain ⟨_, part, name, rfl⟩ := h
        exact .named hkind (Or.inr rfl) part
      · obtain ⟨_, part, inner⟩ := h
        exact .array hkind part inner
      · obtain ⟨_, part, inner⟩ := h
        exact .map hkind part inner
    · exact .unknown hkind hk

/-- **A `TypeNode` without repeated keys can be decoded if it has the parts its kinds ask for.** -/
theorem succeeds_shape_iff (h : TypeNode value) (hd : DistinctKeys value) :
    Succeeds (Shape.ofJson value) ↔ Decodable value := by
  induction h with
  | node kind _ _ _ ihElement ihValue =>
    obtain ⟨_, hkind, kind, rfl⟩ := kind
    have hkeys := hd.keys
    rw [ofJson_obj hkeys hkind, decodable_obj_iff hkind]
    cases Shape.Tag.ofName kind with
    | primitive => rw [succeeds_map, succeeds_needed]; simp only [succeeds_asText]
    | reference => rw [succeeds_map, succeeds_needed]; simp only [succeeds_asText]
    | array =>
      rw [succeeds_map, succeeds_needed]
      exact mustHave_congr fun element he => ihElement element he (hd.member he)
    | map =>
      rw [succeeds_map, succeeds_needed]
      exact mustHave_congr fun inner hi => ihValue inner hi (hd.member hi)
    | unknown => exact iff_true_intro (succeeds_ok _)

end Decoded

/-! ## Both steps together -/

section Together

open Json

variable {members : List (String × Json)} {key : String} {value : Json} {P Q T U : Json → Prop}

/-! A stronger condition on types makes a stronger grammar. Types are only looked at in values without repeated keys. -/

theorem MustHave.imp (h : ∀ v, DistinctKeys v → P v → Q v) (hd : DistinctKeys (.obj members)) :
    MustHave key P members → MustHave key Q members :=
  fun ⟨v, hv, hP⟩ => ⟨v, hv, h v (hd.member hv) hP⟩

theorem MayHave.imp (h : ∀ v, DistinctKeys v → P v → Q v) (hd : DistinctKeys (.obj members))
    (hP : MayHave key P members) : MayHave key Q members :=
  fun v hv => h v (hd.member hv) (hP v hv)

theorem IsListOf.imp (h : ∀ v, DistinctKeys v → P v → Q v) (hd : DistinctKeys value) :
    IsListOf P value → IsListOf Q value := by
  rintro ⟨items, rfl, hP⟩
  exact ⟨items, rfl, fun item hi => h item (hd.item hi) (hP item hi)⟩

theorem IsObject.imp {P Q : List (String × Json) → Prop}
    (h : ∀ members, DistinctKeys (.obj members) → P members → Q members) (hd : DistinctKeys value) :
    IsObject P value → IsObject Q value := by
  rintro ⟨members, rfl, hP⟩
  exact ⟨members, rfl, h members hd hP⟩

theorem PropertyNode.imp (h : ∀ v, DistinctKeys v → T v → U v) (hd : DistinctKeys (.obj members))
    (hT : PropertyNode T members) : PropertyNode U members :=
  { hT with type := hT.type.imp h hd }

theorem DefinitionNode.imp (h : ∀ v, DistinctKeys v → T v → U v) (hd : DistinctKeys (.obj members))
    (hT : DefinitionNode T members) : DefinitionNode U members :=
  { hT with
    properties := hT.properties.imp (fun _ => IsListOf.imp fun _ => IsObject.imp fun _ => PropertyNode.imp h) hd }

theorem SystemNode.imp (h : ∀ v, DistinctKeys v → T v → U v) (hd : DistinctKeys (.obj members))
    (hT : SystemNode T members) : SystemNode U members :=
  { hT with types := hT.types.imp (fun _ => IsListOf.imp fun _ => IsObject.imp fun _ => DefinitionNode.imp h) hd }

/-! Two conditions on types make one grammar. -/

theorem MustHave.and : MustHave key P members → MustHave key Q members →
    MustHave key (fun v => P v ∧ Q v) members := by
  rintro ⟨v, hv, hP⟩ ⟨w, hw, hQ⟩
  cases hv.symm.trans hw
  exact ⟨v, hv, hP, hQ⟩

theorem IsListOf.and (h : ∀ v, P v → Q v → T v) : IsListOf P value → IsListOf Q value → IsListOf T value := by
  rintro ⟨items, rfl, hP⟩ ⟨_, he, hQ⟩
  cases he
  exact ⟨items, rfl, fun item hi => h item (hP item hi) (hQ item hi)⟩

theorem IsObject.and {P Q R : List (String × Json) → Prop} (h : ∀ members, P members → Q members → R members) :
    IsObject P value → IsObject Q value → IsObject R value := by
  rintro ⟨members, rfl, hP⟩ ⟨_, he, hQ⟩
  cases he
  exact ⟨members, rfl, h members hP hQ⟩

theorem PropertyNode.and (hT : PropertyNode T members) (hU : PropertyNode U members) :
    PropertyNode (fun v => T v ∧ U v) members :=
  { hT with type := hT.type.and hU.type }

theorem DefinitionNode.and (hT : DefinitionNode T members) (hU : DefinitionNode U members) :
    DefinitionNode (fun v => T v ∧ U v) members :=
  { hT with
    properties := fun v hv =>
      (hT.properties v hv).and (fun _ => IsObject.and fun _ => PropertyNode.and) (hU.properties v hv) }

theorem SystemNode.and (hT : SystemNode T members) (hU : SystemNode U members) :
    SystemNode (fun v => T v ∧ U v) members :=
  { hT with
    types := fun v hv => (hT.types v hv).and (fun _ => IsObject.and fun _ => DefinitionNode.and) (hU.types v hv) }

/-- A document passes both steps exactly if it follows the grammar. -/
theorem succeeds_ofDocument_iff {file : String} (hd : DistinctKeys value) :
    Succeeds (TypeSystem.ofDocument file value) ↔ IsSystem value := by
  have hschema : checkSchema wireSchema file value = [] ↔ IsObject (SystemNode TypeNode) value :=
    checkSchema_eq_nil_iff
  have hdecode : IsSystem value ↔
      IsObject (SystemNode TypeNode) value ∧ IsObject (SystemNode fun type => Succeeds (Shape.ofJson type)) value := by
    constructor
    · intro h
      exact ⟨h.imp (fun _ => SystemNode.imp fun _ _ ht => ht.1) hd,
        h.imp (fun _ => SystemNode.imp fun v hv ht => (succeeds_shape_iff ht.1 hv).2 ht.2) hd⟩
    · rintro ⟨hnode, hshape⟩
      exact (hnode.and (fun _ => SystemNode.and) hshape).imp
        (fun _ => SystemNode.imp fun v hv ht => ⟨ht.1, (succeeds_shape_iff ht.1 hv).1 ht.2⟩) hd
  rw [hdecode, ← hschema, ← succeeds_ofJson_iff]
  unfold TypeSystem.ofDocument
  split
  · rename_i hnil
    simp only [hnil, true_and]
    cases TypeSystem.ofJson value with
    | error error => exact ⟨fun h => absurd h (not_succeeds_error _), fun h => absurd h (not_succeeds_error _)⟩
    | ok s => exact ⟨fun _ => succeeds_ok s, fun _ => succeeds_ok s⟩
  · rename_i hbreaches
    exact ⟨fun h => absurd h (not_succeeds_error _), fun h => absurd h.1 hbreaches⟩

end Together

end Wire

/-- **A text is read as a type system exactly if its value follows the grammar.** -/
theorem TypeSystem.parse_accepts_iff {file text : String} {value : Json} (h : Json.parse text = .ok value) :
    (∃ s, TypeSystem.parse file text = .ok s) ↔ Wire.IsSystem value := by
  unfold TypeSystem.parse
  rw [h]
  exact Wire.succeeds_ofDocument_iff (Json.distinctKeys_of_parse h)

namespace Wire

/-- A list of things of a kind that is not known. -/
def tuplesType : Json := .obj [("elementType", .obj [("kind", .str "tuple")]), ("kind", .str "array")]

/-- An enumeration that has a property all the same. -/
def tuplesText : String :=
  "\x7b\"types\":[\x7b\"name\":\"A\",\"isEnum\":true,\"properties\":[" ++
    "\x7b\"name\":\"p\",\"isRequired\":false,\"type\":\x7b\"kind\":\"array\"," ++
    "\"elementType\":\x7b\"kind\":\"tuple\"\x7d\x7d\x7d]\x7d]\x7d"

def tuplesValue : Json :=
  .obj [("types", .arr [.obj [("isEnum", .bool true), ("name", .str "A"),
    ("properties", .arr [.obj [("isRequired", .bool false), ("name", .str "p"), ("type", tuplesType)]])]])]

end Wire

set_option maxRecDepth 2000 in
open Wire in
theorem TypeSystem.parse_accepts_tuples :
    Json.parse tuplesText = .ok tuplesValue ∧ ∃ s, TypeSystem.parse "a.types.json" tuplesText = .ok s := by
  have hparse : Json.parse tuplesText = .ok tuplesValue := by cbv
  have hnode : TypeNode tuplesType := by
    refine .node ⟨_, rfl, _, rfl⟩ ?_ (fun _ h => ?_) ?_
    · exact fun _ h => by cases h
    · cases h
      exact .node ⟨_, rfl, _, rfl⟩ (fun _ h => by cases h) (fun _ h => by cases h) (fun _ h => by cases h)
    · exact fun _ h => by cases h
  have hdecodable : Decodable tuplesType := .array rfl rfl (.unknown rfl (by decide))
  have hproperty : PropertyNode (fun type => TypeNode type ∧ Decodable type)
      [("isRequired", .bool false), ("name", .str "p"), ("type", tuplesType)] :=
    ⟨⟨_, rfl, _, rfl⟩, ⟨_, rfl, hnode, hdecodable⟩, ⟨_, rfl, _, rfl⟩, fun _ h => by cases h⟩
  refine ⟨hparse, (TypeSystem.parse_accepts_iff hparse).2 ⟨_, rfl, (fun _ h => by cases h), fun _ h => ?_⟩⟩
  cases h
  refine ⟨_, rfl, fun d hd => ?_⟩
  cases List.mem_singleton.1 hd
  refine ⟨_, rfl, ⟨_, rfl, _, rfl⟩, fun _ h => ?_, (fun _ h => by cases h), (fun _ h => by cases h), fun _ h => ?_,
    (fun _ h => by cases h), (fun _ h => by cases h), (fun _ h => by cases h)⟩
  · cases h
    refine ⟨_, rfl, fun p hp => ?_⟩
    cases List.mem_singleton.1 hp
    exact ⟨_, rfl, hproperty⟩
  · cases h
    exact ⟨_, rfl⟩

end TypeBindings
