import TypeBindings.Proofs.RepeatedNames

/-!
# Well-formed type systems

`WellFormed` says what the rules ask of a type system, in terms of its definitions alone. A `Breach` is one way of not
being well-formed: a rule that is broken at a place. A type system is well-formed if it has no breach
(`wellFormed_iff`). Breaches have an order (`Breach.Before`): that of the rules, and for one rule that of the places.
-/

namespace TypeBindings

/-! ## Names -/

namespace Text

def IsLetter (c : Char) : Prop :=
  'A' ≤ c ∧ c ≤ 'Z' ∨ 'a' ≤ c ∧ c ≤ 'z' ∨ c = '_'

/-- The texts that `[A-Za-z_][A-Za-z0-9_]*` matches in full. -/
def IsWord (text : String) : Prop :=
  ∃ c rest, text.toList = c :: rest ∧ IsLetter c ∧ ∀ c ∈ rest, IsLetter c ∨ '0' ≤ c ∧ c ≤ '9'

theorem startsWord_iff (c : Char) : startsWord c = true ↔ IsLetter c := by
  have hstarts : startsWord c =
      (decide ('A' ≤ c ∧ c ≤ 'Z') || decide ('a' ≤ c) && decide (c ≤ 'z') || c == '_') := rfl
  simp only [hstarts, IsLetter, Bool.or_eq_true, Bool.and_eq_true, decide_eq_true_eq, beq_iff_eq, or_assoc]

theorem inWord_iff (c : Char) : inWord c = true ↔ IsLetter c ∨ '0' ≤ c ∧ c ≤ '9' := by
  have hor : inWord c = (startsWord c || c.isDigit) := by
    unfold inWord startsWord Char.isAlphanum
    ac_rfl
  rw [hor, Bool.or_eq_true, startsWord_iff, Char.isDigit, Bool.and_eq_true, decide_eq_true_eq, decide_eq_true_eq]
  rfl

/-- **Words are the texts of the pattern.** -/
theorem isWord_iff (text : String) : isWord text = true ↔ IsWord text := by
  unfold isWord IsWord
  split
  · rename_i hnil
    simp [hnil]
  · rename_i c rest hcons
    simp only [hcons, Bool.and_eq_true, List.all_eq_true, startsWord_iff, inWord_iff, List.cons.injEq]
    constructor
    · rintro ⟨hc, hrest⟩
      exact ⟨c, rest, ⟨rfl, rfl⟩, hc, hrest⟩
    · rintro ⟨_, _, ⟨rfl, rfl⟩, hc, hrest⟩
      exact ⟨hc, hrest⟩

end Text

/-! ## Shapes -/

namespace Shape

/-- A shape refers to a name at some depth. -/
inductive Mentions (name : String) : Shape → Prop
  | reference : Mentions name (.reference name)
  | array {element : Shape} : Mentions name element → Mentions name (.array element)
  | map {value : Shape} : Mentions name value → Mentions name (.map value)

/-- A shape is unknown at some depth. -/
inductive HasUnknownPart : Shape → Prop
  | unknown : HasUnknownPart .unknown
  | array {element : Shape} : HasUnknownPart element → HasUnknownPart (.array element)
  | map {value : Shape} : HasUnknownPart value → HasUnknownPart (.map value)

theorem mem_references_iff {name : String} {shape : Shape} : name ∈ shape.references ↔ shape.Mentions name := by
  constructor
  · intro h
    induction shape with
    | primitive _ => cases h
    | reference other =>
      obtain rfl := List.mem_singleton.1 h
      exact .reference
    | array element ih => exact .array (ih h)
    | map value ih => exact .map (ih h)
    | unknown => cases h
  · intro h
    induction h with
    | reference => exact List.mem_singleton_self _
    | array _ ih => exact ih
    | map _ ih => exact ih

theorem hasUnknown_iff {shape : Shape} : shape.hasUnknown = true ↔ shape.HasUnknownPart := by
  constructor
  · intro h
    induction shape with
    | primitive _ => cases h
    | reference _ => cases h
    | array element ih => exact .array (ih h)
    | map value ih => exact .map (ih h)
    | unknown => exact .unknown
  · intro h
    induction h with
    | unknown => rfl
    | array _ ih => exact ih
    | map _ ih => exact ih

/-- Shapes do not branch, so they refer to one name at most. -/
theorem references_eq (shape : Shape) : shape.references = [] ∨ ∃ name, shape.references = [name] := by
  induction shape with
  | primitive _ => exact .inl rfl
  | reference name => exact .inr ⟨name, rfl⟩
  | array _ ih => exact ih
  | map _ ih => exact ih
  | unknown => exact .inl rfl

end Shape

/-! ## What the rules ask for -/

/-- A type system that breaks no rule. -/
structure TypeSystem.WellFormed (s : TypeSystem) : Prop where
  nodup_names : s.names.Nodup
  references : ∀ d ∈ s.definitions, ∀ p ∈ d.properties, ∀ name, p.shape.Mentions name → name ∈ s.names
  parents : ∀ d ∈ s.definitions, ∀ parent, d.base? = some parent → parent ∈ s.names
  union_ne_nil : ∀ d ∈ s.definitions, d.body ≠ .union []
  /-- A component is defined, and its first definition is no union. -/
  components : ∀ d ∈ s.definitions, ∀ component ∈ d.components,
    ∃ first, s.find? component = some first ∧ first.isUnion = false
  shapes : ∀ d ∈ s.definitions, ∀ p ∈ d.properties, ¬p.shape.HasUnknownPart
  typeNames : ∀ d ∈ s.definitions, Text.IsWord d.name
  propertyNames : ∀ d ∈ s.definitions, ∀ p ∈ d.properties, Text.IsWord p.name
  values : ∀ d ∈ s.definitions, ∀ value ∈ d.values, Text.IsWord value

/-- A rule that is broken, with the numbers of the definition and of its part. -/
inductive Breach where
  /-- With the place of the first definition of the name. -/
  | repeatedName (first type : Nat)
  | undefinedReference (type property : Nat)
  | undefinedParent (type : Nat)
  | emptyUnion (type : Nat)
  | undefinedComponent (type component : Nat)
  | nestedUnion (type component : Nat)
  | unknownKind (type property : Nat)
  | badTypeName (type : Nat)
  | badPropertyName (type property : Nat)
  | badValue (type n : Nat)
deriving DecidableEq, Repr

namespace Breach

/-- The number of the rule. -/
def rule : Breach → Nat
  | .repeatedName _ _ => 0
  | .undefinedReference _ _ | .undefinedParent _ => 1
  | .emptyUnion _ | .undefinedComponent _ _ | .nestedUnion _ _ => 2
  | .unknownKind _ _ => 3
  | .badTypeName _ | .badPropertyName _ _ | .badValue _ _ => 4

def code : Breach → String
  | .repeatedName _ _ => "E_DUPLICATE_TYPE"
  | .undefinedReference _ _ => "W_UNRESOLVED_REF"
  | .undefinedParent _ => "W_UNRESOLVED_PARENT"
  | .emptyUnion _ => "W_EMPTY_UNION"
  | .undefinedComponent _ _ => "W_UNKNOWN_COMPONENT"
  | .nestedUnion _ _ => "W_NESTED_UNION"
  | .unknownKind _ _ => "W_UNKNOWN_KIND"
  | .badTypeName _ | .badPropertyName _ _ | .badValue _ _ => "W_INVALID_IDENTIFIER"

/-- The place that is to blame. The components of a union stand in the text of its parent. -/
def site : Breach → Site
  | .repeatedName _ type => .typeName type
  | .undefinedReference type property => .propertyShape type property
  | .undefinedParent type | .emptyUnion type => .parent type
  | .undefinedComponent type _ | .nestedUnion type _ => .parent type
  | .unknownKind type property => .propertyShape type property
  | .badTypeName type => .typeName type
  | .badPropertyName type property => .propertyName type property
  | .badValue type n => .value type n

/-- Where a breach comes among those of its rule: the number of the definition, and those of its part. The name of a
definition comes before its properties, and the properties before the parent and the values. Repeated names come
grouped by name. -/
def place : Breach → List Nat
  | .repeatedName first type => [first, type]
  | .undefinedReference type property => [type, 0, property]
  | .undefinedParent type => [type, 1]
  | .emptyUnion type => [type]
  | .undefinedComponent type component | .nestedUnion type component => [type, component]
  | .unknownKind type property => [type, property]
  | .badTypeName type => [type, 0]
  | .badPropertyName type property => [type, 1, property]
  | .badValue type n => [type, 2, n]

/-- Rule by rule, and by place for one rule. -/
def Before (a b : Breach) : Prop :=
  a.rule < b.rule ∨ a.rule = b.rule ∧ a.place < b.place

instance (a b : Breach) : Decidable (Before a b) :=
  inferInstanceAs (Decidable (_ ∨ _))

theorem Before.ne {a b : Breach} (h : Before a b) : a ≠ b := by
  rintro rfl
  rcases h with hrule | ⟨_, hplace⟩
  · exact Nat.lt_irrefl _ hrule
  · exact List.lt_irrefl _ hplace

/-- The breaches of a type system. -/
inductive IsIn (s : TypeSystem) : Breach → Prop
  | repeatedName {r : Repeat} : r.IsIn s.names → IsIn s (.repeatedName r.first r.place)
  | undefinedReference {type property : Nat} {d : Definition} {p : Property} {name : String} :
    s.definitions[type]? = some d → d.properties[property]? = some p → p.shape.Mentions name → name ∉ s.names →
      IsIn s (.undefinedReference type property)
  | undefinedParent {type : Nat} {d : Definition} {parent : String} :
    s.definitions[type]? = some d → d.base? = some parent → parent ∉ s.names → IsIn s (.undefinedParent type)
  | emptyUnion {type : Nat} {d : Definition} :
    s.definitions[type]? = some d → d.body = .union [] → IsIn s (.emptyUnion type)
  | undefinedComponent {type n : Nat} {d : Definition} {component : String} :
    s.definitions[type]? = some d → d.components[n]? = some component → s.find? component = none →
      IsIn s (.undefinedComponent type n)
  | nestedUnion {type n : Nat} {d first : Definition} {component : String} :
    s.definitions[type]? = some d → d.components[n]? = some component → s.find? component = some first →
      first.isUnion = true → IsIn s (.nestedUnion type n)
  | unknownKind {type property : Nat} {d : Definition} {p : Property} :
    s.definitions[type]? = some d → d.properties[property]? = some p → p.shape.HasUnknownPart →
      IsIn s (.unknownKind type property)
  | badTypeName {type : Nat} {d : Definition} :
    s.definitions[type]? = some d → ¬Text.IsWord d.name → IsIn s (.badTypeName type)
  | badPropertyName {type property : Nat} {d : Definition} {p : Property} :
    s.definitions[type]? = some d → d.properties[property]? = some p → ¬Text.IsWord p.name →
      IsIn s (.badPropertyName type property)
  | badValue {type n : Nat} {d : Definition} {value : String} :
    s.definitions[type]? = some d → d.values[n]? = some value → ¬Text.IsWord value → IsIn s (.badValue type n)

end Breach

/-- **A type system without breaches is well-formed.** -/
theorem TypeSystem.wellFormed_iff (s : TypeSystem) : s.WellFormed ↔ ∀ b : Breach, ¬b.IsIn s := by
  constructor
  · intro hwf b hb
    cases hb with
    | repeatedName hr =>
      have hne := List.nodup_iff_getElem?_ne_getElem?.1 hwf.nodup_names _ _ hr.lt
        (List.getElem?_eq_some_iff.1 hr.name_place).1
      exact hne (hr.name_first.trans hr.name_place.symm)
    | undefinedReference hd hp hmentions hname =>
      exact hname (hwf.references _ (List.mem_of_getElem? hd) _ (List.mem_of_getElem? hp) _ hmentions)
    | undefinedParent hd hparent hname => exact hname (hwf.parents _ (List.mem_of_getElem? hd) _ hparent)
    | emptyUnion hd hbody => exact hwf.union_ne_nil _ (List.mem_of_getElem? hd) hbody
    | undefinedComponent hd hcomponent hfind =>
      obtain ⟨first, hfirst, _⟩ := hwf.components _ (List.mem_of_getElem? hd) _ (List.mem_of_getElem? hcomponent)
      rw [hfind] at hfirst
      cases hfirst
    | nestedUnion hd hcomponent hfind hunion =>
      obtain ⟨first, hfirst, hplain⟩ := hwf.components _ (List.mem_of_getElem? hd) _ (List.mem_of_getElem? hcomponent)
      rw [hfind] at hfirst
      cases hfirst
      rw [hunion] at hplain
      cases hplain
    | unknownKind hd hp hpart => exact hwf.shapes _ (List.mem_of_getElem? hd) _ (List.mem_of_getElem? hp) hpart
    | badTypeName hd hname => exact hname (hwf.typeNames _ (List.mem_of_getElem? hd))
    | badPropertyName hd hp hname =>
      exact hname (hwf.propertyNames _ (List.mem_of_getElem? hd) _ (List.mem_of_getElem? hp))
    | badValue hd hvalue hname => exact hname (hwf.values _ (List.mem_of_getElem? hd) _ (List.mem_of_getElem? hvalue))
  · intro hnone
    refine ⟨?_, fun d hd p hp name hmentions => ?_, fun d hd parent hparent => ?_, fun d hd hbody => ?_,
      fun d hd component hcomponent => ?_, fun d hd p hp hpart => ?_, fun d hd => ?_, fun d hd p hp => ?_,
      fun d hd value hvalue => ?_⟩
    · have hindex := NameIndex.isIndexOf_ofSystem s
      rw [← NameIndex.repeats_eq_nil_iff hindex, List.eq_nil_iff_forall_not_mem]
      exact fun r hr => hnone _ (.repeatedName ((NameIndex.mem_repeats hindex).1 hr))
    all_goals obtain ⟨type, htype⟩ := List.mem_iff_getElem?.1 hd
    · obtain ⟨property, hproperty⟩ := List.mem_iff_getElem?.1 hp
      by_contra hname
      exact hnone _ (.undefinedReference htype hproperty hmentions hname)
    · by_contra hname
      exact hnone _ (.undefinedParent htype hparent hname)
    · exact hnone _ (.emptyUnion htype hbody)
    · obtain ⟨n, hn⟩ := List.mem_iff_getElem?.1 hcomponent
      cases hfind : s.find? component with
      | none => exact absurd (.undefinedComponent htype hn hfind) (hnone _)
      | some first =>
        refine ⟨first, rfl, Bool.eq_false_iff.2 fun hunion => ?_⟩
        exact hnone _ (.nestedUnion htype hn hfind hunion)
    · obtain ⟨property, hproperty⟩ := List.mem_iff_getElem?.1 hp
      exact hnone _ (.unknownKind htype hproperty hpart)
    · by_contra hname
      exact hnone _ (.badTypeName htype hname)
    · obtain ⟨property, hproperty⟩ := List.mem_iff_getElem?.1 hp
      by_contra hname
      exact hnone _ (.badPropertyName htype hproperty hname)
    · obtain ⟨n, hn⟩ := List.mem_iff_getElem?.1 hvalue
      by_contra hname
      exact hnone _ (.badValue htype hn hname)

end TypeBindings
