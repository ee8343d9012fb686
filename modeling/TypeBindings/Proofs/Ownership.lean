import TypeBindings.Proofs.Declarations
import TypeBindings.Proofs.Marking

/-!
# Marks and owners

A record is marked if some other union lists its name. The union that owns it is looked for by itself, in the order of
the definitions. Both agree: a name is listed if a union is found for it (`mem_listedNames_iff`). So a mark tells that
there is an owner, or that the mark was there before (`marks_agree_with_owners`).
-/

namespace TypeBindings

/-- What a definition is, without its mark. -/
def Body.withoutMark : Body → Body
  | .record r => .record { r with componentOnly := false }
  | body => body

namespace TypeSystem

/-! ## Listed names -/

theorem lists_iff {name : String} {d : Definition} : lists name d = true ↔ d.name ≠ name ∧ name ∈ d.components := by
  simp [lists]

theorem mem_listedNames {definitions : List Definition} {name : String} :
    name ∈ listedNames definitions ↔ ∃ d ∈ definitions, lists name d = true := by
  simp only [listedNames, List.mem_flatMap, List.mem_filter, lists_iff, decide_eq_true_eq]
  refine exists_congr fun d => and_congr_right fun _ => ?_
  rw [and_comm, ne_comm]

/-- **A name is listed if a union is found for it.** -/
theorem mem_listedNames_iff {s : TypeSystem} {name : String} :
    name ∈ listedNames s.definitions ↔ ∃ u, s.unionOf? name = some u := by
  rw [mem_listedNames, ← List.find?_isSome, Option.isSome_iff_exists]
  rfl

theorem unionOf?_eq_some {s : TypeSystem} {name : String} {u : Definition} (h : s.unionOf? name = some u) :
    u ∈ s.definitions ∧ u.name ≠ name ∧ name ∈ u.components :=
  ⟨List.mem_of_find?_eq_some h, lists_iff.1 (List.find?_some h)⟩

/-! ## What marking keeps and what it marks -/

theorem description_mark (listed : List String) (d : Definition) : (mark listed d).description = d.description := by
  rcases mark_eq_or listed d with h | ⟨r, _, _, h⟩
  · rw [h]
  · rw [h]

theorem withoutMark_mark (listed : List String) (d : Definition) :
    (mark listed d).body.withoutMark = d.body.withoutMark := by
  rcases mark_eq_or listed d with h | ⟨r, hr, _, h⟩
  · rw [h]
  · rw [h, hr]
    rfl

theorem componentOnly_mark_iff (listed : List String) (d : Definition) :
    (mark listed d).componentOnly = true ↔
      (∃ r, d.body = .record r) ∧ (d.componentOnly = true ∨ d.name ∈ listed) := by
  obtain ⟨name, body, description⟩ := d
  cases body with
  | record r =>
    by_cases hname : name ∈ listed
    · simp [mark, hname, Definition.componentOnly]
    · simp [mark, hname, Definition.componentOnly]
  | enumeration _ => simp [mark, Definition.componentOnly]
  | union _ => simp [mark, Definition.componentOnly]

/-- Marks depend only on which names are listed. -/
theorem mark_congr {listed listed' : List String} {d : Definition} (h : d.name ∈ listed ↔ d.name ∈ listed') :
    mark listed d = mark listed' d := by
  simp only [mark, h]

theorem listedNames_perm {definitions definitions' : List Definition} (h : definitions'.Perm definitions) :
    (listedNames definitions').Perm (listedNames definitions) :=
  h.flatMap_right _

/-- The order of the definitions does not matter for the mark of each. -/
theorem definitions_ofDefinitions_of_perm (package : Option String) {definitions definitions' : List Definition}
    (h : definitions'.Perm definitions) :
    (ofDefinitions package definitions').definitions = definitions'.map (mark (listedNames definitions)) :=
  List.map_congr_left fun _ _ => mark_congr (listedNames_perm h).mem_iff

theorem listedNames_ofDefinitions (package : Option String) (definitions : List Definition) :
    listedNames (ofDefinitions package definitions).definitions = listedNames definitions :=
  listedNames_map_mark _ _

end TypeSystem

theorem Definition.isUnion_of_mem_components {d : Definition} {name : String} (h : name ∈ d.components) :
    d.isUnion = true := by
  obtain ⟨_, body, _⟩ := d
  cases body with
  | record _ => cases h
  | enumeration _ => cases h
  | union _ => rfl

theorem Definition.not_componentOnly {d : Definition} (h : d.isEnumeration = true ∨ d.isUnion = true) :
    d.componentOnly = false := by
  obtain ⟨_, body, _⟩ := d
  cases body with
  | record _ => simp [isEnumeration, isUnion] at h
  | enumeration _ => rfl
  | union _ => rfl

namespace TypeSystem

/-- **Marks agree with owners.** A type system has the definitions that it is made of, in their places, but for the
marks of records. A definition is marked if it is a record that was marked before or that a union is found for. That
union has another name and lists the record. Enumerations and unions are not marked, so they are declared in every
target under every policy. Marking again changes nothing, and in another order the definitions get the same marks. -/
theorem marks_agree_with_owners (package : Option String) (definitions : List Definition) :
    let s := ofDefinitions package definitions
    s.package = package ∧ s.definitions.length = definitions.length ∧
      (∀ (i : Nat) (d : Definition), definitions[i]? = some d → ∃ d', s.definitions[i]? = some d' ∧
        d'.name = d.name ∧ d'.description = d.description ∧ d'.body.withoutMark = d.body.withoutMark ∧
        (d'.componentOnly = true ↔
          (∃ r, d.body = .record r) ∧ (d.componentOnly = true ∨ ∃ u, s.unionOf? d.name = some u))) ∧
      (∀ name u, s.unionOf? name = some u →
        u ∈ s.definitions ∧ u.isUnion = true ∧ u.name ≠ name ∧ name ∈ u.components) ∧
      (∀ d ∈ s.definitions, d.isEnumeration = true ∨ d.isUnion = true →
        d.componentOnly = false ∧ ∀ target policy, Target.Declares target s policy d) ∧
      ofDefinitions s.package s.definitions = s ∧
      ∃ f : Definition → Definition, ∀ definitions' : List Definition, definitions'.Perm definitions →
        (ofDefinitions package definitions').definitions = definitions'.map f := by
  intro s
  refine ⟨rfl, List.length_map _, fun i d hd => ?_, fun name u hu => ?_, fun d hd hkind => ?_, ?_, ?_⟩
  · refine ⟨mark (listedNames definitions) d, ?_, name_mark _ _, description_mark _ _, withoutMark_mark _ _, ?_⟩
    · have hmap : s.definitions[i]? = definitions[i]?.map (mark (listedNames definitions)) := List.getElem?_map
      rw [hmap, hd, Option.map_some]
    · rw [componentOnly_mark_iff, ← mem_listedNames_iff, listedNames_ofDefinitions]
  · obtain ⟨hmem, hne, hcomponent⟩ := unionOf?_eq_some hu
    exact ⟨hmem, Definition.isUnion_of_mem_components hcomponent, hne, hcomponent⟩
  · have hunmarked := Definition.not_componentOnly hkind
    exact ⟨hunmarked, fun target policy => target.declares_of_not_componentOnly policy hd hunmarked⟩
  · exact (marked_ofDefinitions package definitions).ofDefinitions_eq
  · exact ⟨_, fun definitions' hperm => definitions_ofDefinitions_of_perm package hperm⟩

/-- A union that lists itself and two of the other types, one of them an enumeration. -/
def shapes : List Definition :=
  [.union "Shape" ["Shape", "Circle", "Color"], .record "Circle" [], .enumeration "Color" ["red"]]

theorem marks_agree_with_owners_shapes :
    let s := ofDefinitions none shapes
    (∃ circle, s.definitions[1]? = some circle ∧ circle.name = "Circle" ∧ circle.componentOnly = true) ∧
      (s.unionOf? "Circle" = some (.union "Shape" ["Shape", "Circle", "Color"]) ∧ "Shape" ≠ "Circle" ∧
        s.unionOf? "Shape" = none) ∧
      (Definition.enumeration "Color" ["red"] ∈ s.definitions ∧
        Target.Declares .java s .suppress (.enumeration "Color" ["red"])) ∧
      ∃ f : Definition → Definition, s.definitions = shapes.map f ∧
        (ofDefinitions none shapes.reverse).definitions = shapes.reverse.map f := by
  intro s
  obtain ⟨_, _, hat, howner, hdeclared, _, f, hperm⟩ := marks_agree_with_owners none shapes
  have hunion : s.unionOf? "Circle" = some (.union "Shape" ["Shape", "Circle", "Color"]) := by decide
  have hcolor : Definition.enumeration "Color" ["red"] ∈ s.definitions := by decide
  refine ⟨?_, ⟨hunion, (howner _ _ hunion).2.2.1, by decide⟩, ⟨hcolor, ?_⟩, f, hperm _ (.refl _), hperm _ ?_⟩
  · obtain ⟨circle, hcircle, hname, _, _, hmark⟩ := hat 1 (.record "Circle" []) rfl
    exact ⟨circle, hcircle, hname, hmark.2 ⟨⟨_, rfl⟩, .inr ⟨_, hunion⟩⟩⟩
  · exact (hdeclared _ hcolor (.inl rfl)).2 .java .suppress
  · exact shapes.reverse_perm

end TypeSystem

end TypeBindings
