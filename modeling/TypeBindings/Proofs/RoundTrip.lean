import TypeBindings.Proofs.Components
import TypeBindings.Proofs.Grammar
import TypeBindings.Proofs.Marking
import TypeBindings.Proofs.Reading

/-!
# Writing a type system and reading it back

The written form of a type system follows the schema, whatever the system is (`checkSchema_toJson`). Reading it gives
the flat forms back (`Definition.ofJson_toJson`), and a flat form gives its definition back exactly if the components of
a union are good component names (`toDefinition_ofDefinition_iff`). Whatever was read comes from flat forms
(`FromDocument.ofFlat`), so it lists good names only and comes back as it was (`wire_round_trip`).
-/

namespace TypeBindings

open Json

/-! ## Members of a written object -/

section Members

variable (k key : String)

theorem lookup_member (value : Json) (rest : List (String × Json)) :
    ((key, value) :: rest).lookup k = if k = key then some value else rest.lookup k := by
  rw [List.lookup_cons]
  by_cases h : k = key
  · rw [if_pos h, h, beq_self_eq_true]
  · rw [if_neg h, beq_eq_false_iff_ne.2 h]

theorem lookup_optional (value : Option Json) :
    (Json.optional key value).lookup k = if k = key then value else none := by
  cases value with
  | none => simp [Json.optional]
  | some value => rw [Json.optional, lookup_member, List.lookup_nil]

theorem lookup_flag (b : Bool) :
    (flag key b).lookup k = if k = key then (if b then some (.bool true) else none) else none := by
  cases b with
  | false => simp [flag]
  | true => simp [flag, lookup_member]

theorem lookup_nonEmpty (items : List Json) :
    (nonEmpty key items).lookup k = if k = key then (if items = [] then none else some (.arr items)) else none := by
  cases items with
  | nil => simp [nonEmpty]
  | cons item rest => simp [nonEmpty, lookup_member]

end Members

section Parts

variable {α β : Type} {key : String} {members : List (String × Json)}

theorem ok_bind {ε : Type} (a : α) (f : α → Except ε β) : (Except.ok a >>= f) = f a := rfl

theorem needed_eq {decode : Json → Except ShapeError α} {value : Json} (h : members.lookup key = some value) :
    needed key decode members = decode value := by
  unfold needed
  rw [h]

theorem asText_str (s : String) : asText (.str s) = .ok s := rfl

/-- A text that is left out when there is none. -/
theorem given_text {text : Option String} (h : members.lookup key = text.map .str) :
    given key none (asNullable asText) members = .ok text := by
  unfold given
  rw [h]
  cases text <;> rfl

/-- A flag that is left out when it is false. -/
theorem given_flag {b : Bool} (h : members.lookup key = if b then some (.bool true) else none) :
    given key false asBool members = .ok b := by
  unfold given
  rw [h]
  cases b <;> rfl

theorem mem_of_mapM_eq_ok {ε : Type} {f : α → Except ε β} {xs : List α} {ys : List β} (h : xs.mapM f = .ok ys) :
    ∀ y ∈ ys, ∃ x ∈ xs, f x = .ok y := by
  induction mapM_eq_ok_iff.1 h with
  | nil =>
    intro y hy
    cases hy
  | cons hx hxs ih =>
    intro y hy
    rcases List.mem_cons.1 hy with rfl | hy
    · exact ⟨_, List.mem_cons_self, hx⟩
    · obtain ⟨x, hmem, hfx⟩ := ih (mapM_eq_ok_iff.2 hxs) y hy
      exact ⟨x, List.mem_cons_of_mem _ hmem, hfx⟩

/-- Every item of a list that was read was decoded from something. -/
theorem decoded_of_given_list {decode : Json → Except ShapeError α} {items : List α}
    (h : given key [] (asList decode) members = .ok items) : ∀ item ∈ items, ∃ value, decode value = .ok item := by
  unfold given at h
  split at h
  · rename_i value _
    cases value with
    | arr values =>
      intro item hi
      obtain ⟨v, _, hv⟩ := mem_of_mapM_eq_ok h item hi
      exact ⟨v, hv⟩
    | _ => cases h
  · cases h
    nofun

theorem mayHave_text {text : Option String} (h : members.lookup key = text.map .str) :
    Wire.MayHave key Wire.IsTextOrNull members := by
  intro value hv
  obtain ⟨s, _, rfl⟩ := Option.map_eq_some_iff.1 (h.symm.trans hv)
  exact Or.inr ⟨s, rfl⟩

theorem mayHave_flag {b : Bool} (h : members.lookup key = if b then some (.bool true) else none) :
    Wire.MayHave key Wire.IsFlag members := by
  intro value hv
  rw [h] at hv
  split at hv
  · cases hv
    exact ⟨true, rfl⟩
  · cases hv

theorem mayHave_list {encode : α → Json} {P : Json → Prop} {items : List α} (hitem : ∀ item ∈ items, P (encode item))
    (h : members.lookup key = if items.map encode = [] then none else some (.arr (items.map encode))) :
    Wire.MayHave key (Wire.IsListOf P) members := by
  intro value hv
  rw [h] at hv
  split at hv
  · cases hv
  · cases hv
    exact ⟨_, rfl, List.forall_mem_map.2 hitem⟩

/-- Items that are written one by one come back one by one, each as `back` says. -/
theorem mapM_map_eq_ok {encode : α → Json} {decode : Json → Except ShapeError β} {back : α → β} :
    ∀ {items : List α}, (∀ item ∈ items, decode (encode item) = .ok (back item)) →
      (items.map encode).mapM decode = .ok (items.map back)
  | [], _ => rfl
  | item :: rest, h => by
    rw [List.map_cons, List.mapM_cons, h item List.mem_cons_self,
      mapM_map_eq_ok fun other ho => h other (List.mem_cons_of_mem _ ho)]
    rfl

/-- A list that is left out when it is empty. -/
theorem given_list {encode : α → Json} {decode : Json → Except ShapeError α} {items : List α}
    (hitem : ∀ item ∈ items, decode (encode item) = .ok item)
    (h : members.lookup key = if items.map encode = [] then none else some (.arr (items.map encode))) :
    given key [] (asList decode) members = .ok items := by
  unfold given
  rw [h]
  split
  · rename_i hempty
    split at hempty
    · cases hempty
    · cases hempty
      exact (mapM_map_eq_ok hitem).trans (by rw [List.map_id'])
  · rename_i hnone
    split at hnone
    · rename_i hnil
      rw [List.map_eq_nil_iff.1 hnil]
    · cases hnone

end Parts

/-! ## Reading back what was written -/

theorem Shape.ofJson_toJson : ∀ shape : Shape, Shape.ofJson shape.toJson = .ok shape
  | .primitive name => by
    rw [Shape.toJson, Wire.ofJson_obj (by simp) rfl]
    rfl
  | .reference name => by
    rw [Shape.toJson, Wire.ofJson_obj (by simp) rfl]
    rfl
  | .array element => by
    rw [Shape.toJson, Wire.ofJson_obj (by simp) rfl]
    change Shape.array <$> Shape.ofJson element.toJson = _
    rw [Shape.ofJson_toJson element]
    rfl
  | .map value => by
    rw [Shape.toJson, Wire.ofJson_obj (by simp) rfl]
    change Shape.map <$> Shape.ofJson value.toJson = _
    rw [Shape.ofJson_toJson value]
    rfl
  | .unknown => by
    rw [Shape.toJson, Wire.ofJson_obj (by simp) rfl]
    rfl

theorem Shape.typeNode_toJson : ∀ shape : Shape, Wire.TypeNode shape.toJson
  | .primitive _ | .reference _ => .node ⟨_, rfl, _, rfl⟩ (fun _ h => by cases h; exact ⟨_, rfl⟩) nofun nofun
  | .array element =>
    .node ⟨_, rfl, _, rfl⟩ nofun (fun _ h => by cases h; exact Shape.typeNode_toJson element) nofun
  | .map value => .node ⟨_, rfl, _, rfl⟩ nofun nofun fun _ h => by cases h; exact Shape.typeNode_toJson value
  | .unknown => .node ⟨_, rfl, _, rfl⟩ nofun nofun nofun

/-! ### Properties -/

/-- Members that say what a property is. -/
structure Property.Written (p : Property) (members : List (String × Json)) : Prop where
  name : members.lookup "name" = some (.str p.name)
  type : members.lookup "type" = some p.shape.toJson
  isRequired : members.lookup "isRequired" = some (.bool p.required)
  description : members.lookup "description" = p.description.map .str

theorem Property.written (p : Property) : ∃ members, p.toJson = .obj members ∧ p.Written members := by
  refine ⟨_, rfl, ?_, ?_, ?_, ?_⟩ <;> simp [List.lookup_append, lookup_optional, lookup_member]

theorem Property.Written.ofJson {p : Property} {members : List (String × Json)} (h : p.Written members) :
    Property.ofJson (.obj members) = .ok p := by
  unfold Property.ofJson
  simp only [asMembers, ok_bind, needed_eq h.name, needed_eq h.type, needed_eq h.isRequired,
    given_text h.description, asText, asBool, Shape.ofJson_toJson]
  rfl

theorem Property.ofJson_toJson (p : Property) : Property.ofJson p.toJson = .ok p := by
  obtain ⟨members, h, hw⟩ := p.written
  rw [h, hw.ofJson]

theorem Property.Written.node {p : Property} {members : List (String × Json)} (h : p.Written members) :
    Wire.PropertyNode Wire.TypeNode members where
  name := ⟨_, h.name, _, rfl⟩
  type := ⟨_, h.type, p.shape.typeNode_toJson⟩
  isRequired := ⟨_, h.isRequired, _, rfl⟩
  description := mayHave_text h.description

theorem Property.node (p : Property) : Wire.IsObject (Wire.PropertyNode Wire.TypeNode) p.toJson := by
  obtain ⟨members, h, hw⟩ := p.written
  exact ⟨members, h, hw.node⟩

/-! ### Definitions -/

/-- Members that say what a flat definition is. -/
structure FlatDefinition.Written (flat : FlatDefinition) (members : List (String × Json)) : Prop where
  name : members.lookup "name" = some (.str flat.name)
  properties : members.lookup "properties" = if flat.properties.map Property.toJson = [] then none
    else some (.arr (flat.properties.map Property.toJson))
  parentType : members.lookup "parentType" = flat.parentType.map .str
  description : members.lookup "description" = flat.description.map .str
  isEnum : members.lookup "isEnum" = if flat.isEnum then some (.bool true) else none
  enumValues : members.lookup "enumValues" = if flat.enumValues.map Json.str = [] then none
    else some (.arr (flat.enumValues.map .str))
  isUnionType : members.lookup "isUnionType" = if flat.isUnionType then some (.bool true) else none
  isUnionComponentOnly :
    members.lookup "isUnionComponentOnly" = if flat.isUnionComponentOnly then some (.bool true) else none

theorem FlatDefinition.written (flat : FlatDefinition) :
    ∃ members, flat.toJson = .obj members ∧ flat.Written members := by
  refine ⟨_, rfl, ?_, ?_, ?_, ?_, ?_, ?_, ?_, ?_⟩ <;>
    simp [List.lookup_append, lookup_optional, lookup_flag, lookup_nonEmpty, lookup_member]

theorem FlatDefinition.Written.ofJson {flat : FlatDefinition} {members : List (String × Json)}
    (h : flat.Written members) : FlatDefinition.ofJson (.obj members) = .ok flat := by
  have hproperties := given_list (fun p _ => Property.ofJson_toJson p) h.properties
  have hvalues := given_list (fun value _ => asText_str value) h.enumValues
  unfold FlatDefinition.ofJson
  simp only [asMembers, ok_bind, needed_eq h.name, asText, hproperties, given_text h.parentType,
    given_text h.description, given_flag h.isEnum, hvalues, given_flag h.isUnionType,
    given_flag h.isUnionComponentOnly]
  rfl

theorem FlatDefinition.Written.node {flat : FlatDefinition} {members : List (String × Json)}
    (h : flat.Written members) : Wire.DefinitionNode Wire.TypeNode members where
  name := ⟨_, h.name, _, rfl⟩
  properties := mayHave_list (fun p _ => p.node) h.properties
  parentType := mayHave_text h.parentType
  description := mayHave_text h.description
  isEnum := mayHave_flag h.isEnum
  enumValues := mayHave_list (fun _ _ => ⟨_, rfl⟩) h.enumValues
  isUnionType := mayHave_flag h.isUnionType
  isUnionComponentOnly := mayHave_flag h.isUnionComponentOnly

/-- A definition comes back as its flat form says. -/
theorem Definition.ofJson_toJson (d : Definition) :
    Definition.ofJson d.toJson = .ok (FlatDefinition.ofDefinition d).toDefinition := by
  obtain ⟨members, h, hw⟩ := (FlatDefinition.ofDefinition d).written
  unfold Definition.ofJson Definition.toJson
  rw [h, hw.ofJson]
  rfl

theorem Definition.node (d : Definition) : Wire.IsObject (Wire.DefinitionNode Wire.TypeNode) d.toJson := by
  obtain ⟨members, h, hw⟩ := (FlatDefinition.ofDefinition d).written
  exact ⟨members, h, hw.node⟩

/-! ### Systems -/

namespace TypeSystem

theorem lookup_toJson (s : TypeSystem) : ∃ members, s.toJson = .obj members ∧
    members.lookup "namespace" = s.package.map .str ∧
    members.lookup "types" = some (.arr (s.definitions.map Definition.toJson)) := by
  refine ⟨_, rfl, ?_, ?_⟩ <;> simp [List.lookup_append, lookup_optional, lookup_member]

/-- **What is written follows the schema.** -/
theorem checkSchema_toJson (file : String) (s : TypeSystem) : checkSchema wireSchema file s.toJson = [] := by
  obtain ⟨members, h, hpackage, htypes⟩ := s.lookup_toJson
  refine Wire.checkSchema_eq_nil_iff.2 ⟨members, h, mayHave_text hpackage, fun value hv => ?_⟩
  cases htypes.symm.trans hv
  exact ⟨_, rfl, List.forall_mem_map.2 fun d _ => d.node⟩

theorem ofDocument_toJson (file : String) (s : TypeSystem) :
    ofDocument file s.toJson = (ofJson s.toJson).mapError fun error => [.ofShapeError file error] := by
  unfold ofDocument
  rw [checkSchema_toJson]

theorem ofJson_toJson (s : TypeSystem) :
    ofJson s.toJson = .ok (ofDefinitions s.package
      (s.definitions.map fun d => (FlatDefinition.ofDefinition d).toDefinition)) := by
  obtain ⟨members, h, hpackage, htypes⟩ := s.lookup_toJson
  have hdefinitions : given "types" [] (asList Definition.ofJson) members =
      .ok (s.definitions.map fun d => (FlatDefinition.ofDefinition d).toDefinition) := by
    unfold given
    rw [htypes]
    exact mapM_map_eq_ok fun d _ => d.ofJson_toJson
  unfold ofJson
  rw [h]
  simp only [asMembers, ok_bind, given_text hpackage, hdefinitions]
  rfl

end TypeSystem

/-! ## Flat forms -/

/-- The components of a union that was read are good component names. -/
theorem FlatDefinition.isComponentName_of_mem {flat : FlatDefinition} {c : String}
    (h : c ∈ flat.toDefinition.components) : isComponentName c = true := by
  unfold FlatDefinition.toDefinition Definition.components at h
  dsimp only at h
  split at h
  · rename_i components hbody
    split at hbody
    · cases hbody
    · split at hbody
      · cases hbody
        cases hp : flat.parentType with
        | none => rw [hp] at h; cases h
        | some text => rw [hp] at h; exact isComponentName_of_mem_componentNames h
      · cases hbody
  · cases h

/-- **A flat form gives its definition back exactly if the components are good component names.** -/
theorem toDefinition_ofDefinition_iff (d : Definition) :
    (FlatDefinition.ofDefinition d).toDefinition = d ↔ ∀ c ∈ d.components, isComponentName c = true := by
  constructor
  · intro h c hc
    rw [← h] at hc
    exact FlatDefinition.isComponentName_of_mem hc
  · intro h
    obtain ⟨name, body, description⟩ := d
    cases body with
    | record r => rfl
    | enumeration values => rfl
    | union components =>
      cases components with
      | nil => rfl
      | cons first rest =>
        have hjoin := componentNames_joinWith (List.cons_ne_nil first rest) h
        change Definition.mk name (.union (componentNames (Text.joinWith " | " (first :: rest)))) description = _
        rw [hjoin]

namespace TypeSystem

/-- A system whose unions list good component names only. -/
def GoodComponents (s : TypeSystem) : Prop :=
  ∀ d ∈ s.definitions, ∀ c ∈ d.components, isComponentName c = true

theorem goodComponents_ofDefinitions {package : Option String} {definitions : List Definition} :
    (ofDefinitions package definitions).GoodComponents ↔
      ∀ d ∈ definitions, ∀ c ∈ d.components, isComponentName c = true := by
  unfold GoodComponents ofDefinitions
  rw [List.forall_mem_map]
  simp only [components_mark]

/-- A marked system comes back exactly if its components are good component names. -/
theorem Marked.ofJson_toJson_iff {s : TypeSystem} (h : s.Marked) : ofJson s.toJson = .ok s ↔ s.GoodComponents := by
  rw [ofJson_toJson, Except.ok.injEq]
  constructor
  · intro he d hd
    -- marks aside, each definition is what its flat form gives back
    have hmap := congrArg TypeSystem.definitions he
    unfold ofDefinitions at hmap
    rw [List.map_map] at hmap
    have hback := List.map_inj_left.1 (hmap.trans (List.map_id' _).symm) d hd
    rw [← hback]
    intro c hc
    rw [Function.comp_apply, components_mark] at hc
    exact FlatDefinition.isComponentName_of_mem hc
  · intro hgood
    have hmap : (s.definitions.map fun d => (FlatDefinition.ofDefinition d).toDefinition) = s.definitions :=
      (List.map_congr_left fun d hd => (toDefinition_ofDefinition_iff d).2 (hgood d hd)).trans (List.map_id' _)
    rw [hmap]
    exact h.ofDefinitions_eq

/-! ## Where type systems come from -/

/-- A system that was read: from a checked text, from a value, or straight from a text. -/
inductive FromDocument : TypeSystem → Prop
  | parsed {file text : String} {s : TypeSystem} (h : parse file text = .ok s) : FromDocument s
  | decoded {value : Json} {s : TypeSystem} (h : ofJson value = .ok s) : FromDocument s
  | read {text : String} {s : TypeSystem} (h : TypeSystem.read.run text = .ok s) : FromDocument s

/-- A system of definitions that come from flat forms. -/
def OfFlat (s : TypeSystem) : Prop :=
  ∃ package definitions, s = ofDefinitions package definitions ∧
    ∀ d ∈ definitions, ∃ flat : FlatDefinition, d = flat.toDefinition

theorem OfFlat.marked {s : TypeSystem} (h : s.OfFlat) : s.Marked := by
  obtain ⟨package, definitions, rfl, _⟩ := h
  exact marked_ofDefinitions package definitions

theorem OfFlat.goodComponents {s : TypeSystem} (h : s.OfFlat) : s.GoodComponents := by
  obtain ⟨package, definitions, rfl, hflat⟩ := h
  refine goodComponents_ofDefinitions.2 fun d hd c hc => ?_
  obtain ⟨flat, rfl⟩ := hflat d hd
  exact FlatDefinition.isComponentName_of_mem hc

theorem ofFlat_of_ofJson {value : Json} {s : TypeSystem} (h : ofJson value = .ok s) : s.OfFlat := by
  obtain ⟨members, _, h⟩ := bind_eq_ok_iff.1 h
  obtain ⟨package, _, h⟩ := bind_eq_ok_iff.1 h
  obtain ⟨definitions, hdefinitions, h⟩ := bind_eq_ok_iff.1 h
  cases h
  refine ⟨package, definitions, rfl, fun d hd => ?_⟩
  obtain ⟨v, hv⟩ := decoded_of_given_list hdefinitions d hd
  cases hflat : FlatDefinition.ofJson v with
  | error error =>
    rw [Definition.ofJson, hflat] at hv
    cases hv
  | ok flat =>
    rw [Definition.ofJson, hflat] at hv
    cases hv
    exact ⟨flat, rfl⟩

theorem yields_definition_read :
    Json.Reader.Yields (fun d => ∃ flat : FlatDefinition, d = flat.toDefinition) Definition.read :=
  Json.Reader.yields_map fun _ _ flat _ _ => ⟨flat, rfl⟩

theorem yields_typeSystem_read : Json.Reader.Yields OfFlat TypeSystem.read := by
  -- the definitions in the draft, if it has any, come from flat forms
  let Flat (draft : Draft) : Prop := ∀ d ∈ draft.definitions.getD [], ∃ flat : FlatDefinition, d = flat.toDefinition
  refine Json.Reader.yields_record "RawTypeSystem" (I := Flat) false nofun ?_ ?_
  · intro field hfield
    simp only [List.mem_cons, List.not_mem_nil, or_false] at hfield
    rcases hfield with rfl | rfl
    · exact Json.Reader.yields_field (P := fun _ => True) (fun _ _ _ _ _ => trivial) fun _ _ hdraft _ => hdraft
    · exact Json.Reader.yields_field (Json.Reader.yields_sequence yields_definition_read) fun _ _ _ hd => hd
  · intro draft s hdraft hs
    cases hs
    exact ⟨_, _, rfl, hdraft⟩

/-- A text that is read holds a value that is decoded. -/
theorem exists_ofJson_of_parse {file text : String} {s : TypeSystem} (h : parse file text = .ok s) :
    ∃ value, ofJson value = .ok s := by
  unfold parse at h
  split at h
  · rename_i value _
    unfold ofDocument at h
    split at h
    · cases hj : ofJson value with
      | error error =>
        rw [hj] at h
        cases h
      | ok s' =>
        rw [hj] at h
        cases h
        exact ⟨value, hj⟩
    · cases h
  · cases h

/-- **Whatever was read comes from flat forms.** -/
theorem FromDocument.ofFlat {s : TypeSystem} (h : s.FromDocument) : s.OfFlat := by
  cases h with
  | parsed h =>
    obtain ⟨value, hvalue⟩ := exists_ofJson_of_parse h
    exact ofFlat_of_ofJson hvalue
  | decoded h => exact ofFlat_of_ofJson h
  | read h => exact yields_typeSystem_read.run h

/-! ## The round trip -/

/-- A marked system comes back through the checked way in exactly if its components are good component names. -/
theorem Marked.ofDocument_toJson_iff {s : TypeSystem} (h : s.Marked) (file : String) :
    ofDocument file s.toJson = .ok s ↔ s.GoodComponents := by
  rw [ofDocument_toJson, ← h.ofJson_toJson_iff]
  cases ofJson s.toJson with
  | error error => exact ⟨nofun, nofun⟩
  | ok s' => rw [Except.mapError, Except.ok.injEq, Except.ok.injEq]

/-- **Writing and reading back.** What is written follows the schema. A system that was read lists good component names
only and comes back as it was; a system of any definitions comes back as it was exactly if its unions list good
component names only. -/
theorem wire_round_trip (file : String) :
    (∀ s : TypeSystem, s.FromDocument → s.GoodComponents ∧
      checkSchema wireSchema file s.toJson = [] ∧ ofJson s.toJson = .ok s ∧ ofDocument file s.toJson = .ok s) ∧
    ∀ (package : Option String) (definitions : List Definition), let s := ofDefinitions package definitions
      checkSchema wireSchema file s.toJson = [] ∧
      (ofJson s.toJson = .ok s ↔ ∀ d ∈ definitions, ∀ c ∈ d.components, isComponentName c = true) ∧
      (ofDocument file s.toJson = .ok s ↔ ∀ d ∈ definitions, ∀ c ∈ d.components, isComponentName c = true) := by
  constructor
  · intro s h
    have hmarked := h.ofFlat.marked
    have hgood := h.ofFlat.goodComponents
    exact ⟨hgood, checkSchema_toJson file s, hmarked.ofJson_toJson_iff.2 hgood,
      (hmarked.ofDocument_toJson_iff file).2 hgood⟩
  · intro package definitions s
    have hmarked : s.Marked := marked_ofDefinitions package definitions
    exact ⟨checkSchema_toJson file s, hmarked.ofJson_toJson_iff.trans goodComponents_ofDefinitions,
      (hmarked.ofDocument_toJson_iff file).trans goodComponents_ofDefinitions⟩

/-- A union whose components are written with blanks around them, and one of its components. -/
def petsValue : Json :=
  .obj [("types", .arr [
    .obj [("name", .str "Pet"), ("isUnionType", .bool true), ("parentType", .str " Cat || Dog ")],
    .obj [("name", .str "Cat"), ("properties", .arr [
      .obj [("name", .str "lives"), ("isRequired", .bool true), ("type", .obj [("kind", .str "array"),
        ("elementType", .obj [("kind", .str "primitive"), ("typeName", .str "int")])])]])]])]

/-- The system that `petsValue` says. -/
def pets : TypeSystem :=
  ofDefinitions none [.union "Pet" ["Cat", "Dog"], .record "Cat" [⟨"lives", .array (.primitive "int"), true, none⟩]]

theorem wire_round_trip_pets : pets.FromDocument ∧ pets.GoodComponents ∧
    checkSchema wireSchema "pets.json" pets.toJson = [] ∧ ofJson pets.toJson = .ok pets ∧
    ofDocument "pets.json" pets.toJson = .ok pets :=
  have h : pets.FromDocument := .decoded (show ofJson petsValue = .ok pets by cbv)
  ⟨h, (wire_round_trip "pets.json").1 pets h⟩

end TypeSystem

end TypeBindings
