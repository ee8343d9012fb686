import TypeBindings.Proofs.Ownership
import TypeBindings.Proofs.Validation

/-!
# Fields of types that are left out

The type of a field refers to other types by name. A name dangles if a record that is declared refers to it and nothing
of that name is declared (`Target.Dangles`). In a type system that validation finds nothing wrong with, every name that
is referred to has one definition, so a name dangles if and only if that definition is left out
(`Target.dangles_iff_of_wellFormed`). A record is left out as soon as some union lists it, whatever else refers to it:
the mark is for mere components, but it does not look at the fields (`field_type_dangles_iff`,
`component_used_as_field_dangles`).
-/

namespace TypeBindings

/-- A type system of which validation reports nothing is well-formed. -/
theorem TypeSystem.wellFormed_of_validate {s : TypeSystem} {file : String} (h : (s.validate file).entries = []) :
    s.WellFormed := by
  obtain ⟨breaches, -, hmem, hentries⟩ := s.exists_breaches file
  rw [h, List.map_nil, eq_comm, List.map_eq_nil_iff] at hentries
  refine s.wellFormed_iff.2 fun b hb => ?_
  have hnone := (hmem b).2 hb
  rw [hentries] at hnone
  cases hnone

theorem Language.mem_eligible_iff {lang : Language} {policy : ComponentPolicy} {s : TypeSystem} {d : Definition} :
    d ∈ lang.eligible policy s ↔ d ∈ s.definitions ∧ ¬(lang.suppresses policy = true ∧ d.componentOnly = true) := by
  rw [Language.eligible, List.mem_filter, Bool.not_eq_true', ← Bool.not_eq_true, Bool.and_eq_true]

namespace Target

/-- Usually the mere components are left out in all targets but Kotlin. -/
theorem suppresses_usual_iff (target : Target) : target.language.suppresses .usual = true ↔ target ≠ .kotlin := by
  cases target <;> decide

/-- A record that is declared has a field whose type refers to the name at some depth. -/
def Uses (target : Target) (s : TypeSystem) (policy : ComponentPolicy) (name : String) : Prop :=
  ∃ d ∈ target.language.eligible policy s, ∃ p ∈ d.properties, p.shape.Mentions name

/-- A record that is declared refers to the name, and nothing of that name is declared. -/
def Dangles (target : Target) (s : TypeSystem) (policy : ComponentPolicy) (name : String) : Prop :=
  target.Uses s policy name ∧ name ∉ (target.language.eligible policy s).map (·.name)

/-- **A name dangles if its definition is a mere component that is left out.** -/
theorem dangles_iff_of_wellFormed {s : TypeSystem} (hwf : s.WellFormed) (target : Target) (policy : ComponentPolicy)
    (name : String) :
    target.Dangles s policy name ↔ target.language.suppresses policy = true ∧ target.Uses s policy name ∧
      ∃ d ∈ s.definitions, d.name = name ∧ d.componentOnly = true := by
  constructor
  · rintro ⟨huses, hnot⟩
    obtain ⟨d, hd, p, hp, hmentions⟩ := huses
    -- the name has a definition, and this one is not eligible
    have hname : name ∈ s.names := hwf.references d (Language.mem_eligible_iff.1 hd).1 p hp name hmentions
    obtain ⟨e, he, rfl⟩ := List.mem_map.1 hname
    have hleft : target.language.suppresses policy = true ∧ e.componentOnly = true := by
      by_contra hkept
      exact hnot (List.mem_map.2 ⟨e, Language.mem_eligible_iff.2 ⟨he, hkept⟩, rfl⟩)
    exact ⟨hleft.1, ⟨d, hd, p, hp, hmentions⟩, e, he, rfl, hleft.2⟩
  · rintro ⟨hsuppresses, huses, d, hd, rfl, hcomponent⟩
    refine ⟨huses, fun hdeclared => ?_⟩
    obtain ⟨e, he, hname⟩ := List.mem_map.1 hdeclared
    obtain ⟨hmem, hkept⟩ := Language.mem_eligible_iff.1 he
    -- names are distinct, so what is declared would be the component
    obtain rfl : e = d := List.inj_on_of_nodup_map hwf.nodup_names hmem hd hname
    exact hkept ⟨hsuppresses, hcomponent⟩

end Target

/-- A definition of a type system is a mere component if it comes from a record that was one before or that another
union lists. -/
theorem TypeSystem.exists_component_iff (package : Option String) (definitions : List Definition) (name : String) :
    (∃ d ∈ (ofDefinitions package definitions).definitions, d.name = name ∧ d.componentOnly = true) ↔
      ∃ d ∈ definitions, d.name = name ∧ (∃ r, d.body = .record r) ∧
        (d.componentOnly = true ∨ ∃ u ∈ definitions, u.name ≠ name ∧ name ∈ u.components) := by
  have hmark : ∀ d : Definition, (mark (listedNames definitions) d).componentOnly = true ↔ (∃ r, d.body = .record r) ∧
      (d.componentOnly = true ∨ ∃ u ∈ definitions, u.name ≠ d.name ∧ d.name ∈ u.components) := by
    intro d
    simp only [componentOnly_mark_iff, mem_listedNames, lists_iff]
  constructor
  · rintro ⟨_, hmem, rfl, hcomponent⟩
    obtain ⟨d, hd, rfl⟩ := List.mem_map.1 hmem
    rw [name_mark]
    exact ⟨d, hd, rfl, (hmark d).1 hcomponent⟩
  · rintro ⟨d, hd, rfl, hcomponent⟩
    exact ⟨_, List.mem_map_of_mem hd, name_mark _ d, (hmark d).2 hcomponent⟩

/-- **A field of a type that is left out.** In a type system without findings, a name that a declared record refers to
is not declared if and only if the target leaves the mere components out and the name is that of one. In a type system
made of definitions, these are the records that were marked before and those that a union of another name lists; that
fields refer to them makes no difference. -/
theorem field_type_dangles_iff (s : TypeSystem) (file : String) (hclean : (s.validate file).entries = [])
    (target : Target) (name : String) :
    (target.Dangles s .usual name ↔ target ≠ .kotlin ∧ target.Uses s .usual name ∧
      ∃ d ∈ s.definitions, d.name = name ∧ d.componentOnly = true) ∧
    ∀ package definitions, s = .ofDefinitions package definitions →
      (target.Dangles s .usual name ↔ target ≠ .kotlin ∧ target.Uses s .usual name ∧
        ∃ d ∈ definitions, d.name = name ∧ (∃ r, d.body = .record r) ∧
          (d.componentOnly = true ∨ ∃ u ∈ definitions, u.name ≠ name ∧ name ∈ u.components)) := by
  have hdangles := target.dangles_iff_of_wellFormed (TypeSystem.wellFormed_of_validate hclean) .usual name
  rw [Target.suppresses_usual_iff] at hdangles
  refine ⟨hdangles, ?_⟩
  rintro package definitions rfl
  rw [hdangles, TypeSystem.exists_component_iff]

/-- A record that is both a component of a union and the type of a field. -/
def drawing : List Definition :=
  [.union "Shape" ["Circle"], .record "Circle" [], .record "Drawing" [⟨"outline", .array (.reference "Circle"), true, none⟩]]

theorem field_type_dangles_iff_drawing :
    let s := TypeSystem.ofDefinitions none drawing
    (s.validate "").entries = [] ∧ Target.Uses .java s .usual "Circle" ∧ Target.Dangles .java s .usual "Circle" ∧
      ¬Target.Dangles .kotlin s .usual "Circle" := by
  intro s
  have hclean : (s.validate "").entries = [] := by decide
  have huses : Target.Uses .java s .usual "Circle" :=
    ⟨_, List.mem_of_getElem? (i := 1) rfl, _, List.mem_singleton_self _, .array .reference⟩
  obtain ⟨-, hjava⟩ := field_type_dangles_iff s "" hclean .java "Circle"
  obtain ⟨hkotlin, -⟩ := field_type_dangles_iff s "" hclean .kotlin "Circle"
  refine ⟨hclean, huses, (hjava none drawing rfl).2 ⟨by decide, huses, ?_⟩, fun h => (hkotlin.1 h).1 rfl⟩
  exact ⟨.record "Circle" [], by decide, rfl, ⟨_, rfl⟩, .inr ⟨.union "Shape" ["Circle"], by decide, by decide, by decide⟩⟩

/-- **A component that is the type of a field is left out all the same**, in every target but Kotlin, and nothing is
reported. -/
theorem component_used_as_field_dangles :
    let s := TypeSystem.ofDefinitions none drawing
    (s.validate "").entries = [] ∧ ∀ target : Target, target ≠ .kotlin → target.Dangles s .usual "Circle" := by
  intro s
  have hclean : (s.validate "").entries = [] := by decide
  refine ⟨hclean, fun target htarget => ?_⟩
  rw [target.dangles_iff_of_wellFormed (TypeSystem.wellFormed_of_validate hclean), target.suppresses_usual_iff]
  refine ⟨htarget, ?_, _, List.mem_of_getElem? (i := 1) rfl, rfl, by decide⟩
  cases target with
  | kotlin => exact absurd rfl htarget
  | _ => exact ⟨_, List.mem_of_getElem? (i := 1) rfl, _, List.mem_singleton_self _, .array .reference⟩

end TypeBindings
