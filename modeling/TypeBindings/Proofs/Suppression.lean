import Mathlib.Data.List.Basic
import TypeBindings.Backend
import TypeBindings.Proofs.Marking

/-!
# What is generated without the mere components

A declaration reads the rest of its type system only to find the union that owns a marked record
(`Target.declaration_congr`). The files of a target are made of the package, of the eligible definitions and of their
declarations, and of nothing else (`Target.generate_congr`). So leaving the mere components out is the same as taking
them out of the type system first (`suppression_is_deletion`).
-/

namespace TypeBindings

section Congruence

variable {s s' : TypeSystem}

/-! ## What a declaration reads of its system -/

/-- Two systems in which a definition has the same owner give it the same declaration. -/
theorem Target.declaration_congr (target : Target) {d : Definition} (h : owner? s d = owner? s' d) :
    target.declaration s d = target.declaration s' d := by
  cases target with
  | typeScript => rfl
  | kotlin =>
    have hextension : Kotlin.extension s d = Kotlin.extension s' d := by rw [Kotlin.extension, h, Kotlin.extension]
    have hlines : Kotlin.bodyLines s d = Kotlin.bodyLines s' d := by
      rw [Kotlin.bodyLines, hextension, Kotlin.bodyLines]
    rw [Target.declaration, Kotlin.declaration, hlines, Kotlin.declaration]
  | java =>
    have htail : Java.recordTail s d = Java.recordTail s' d := by rw [Java.recordTail, h, Java.recordTail]
    have hlines : Java.bodyLines s d = Java.bodyLines s' d := by rw [Java.bodyLines, htail, Java.bodyLines]
    rw [Target.declaration, Java.declaration, hlines, Java.declaration]
  | cSharp =>
    have hextension : CSharp.extension s d = CSharp.extension s' d := by rw [CSharp.extension, h, CSharp.extension]
    have hlines : CSharp.bodyLines s d = CSharp.bodyLines s' d := by
      rw [CSharp.bodyLines, hextension, CSharp.bodyLines]
    rw [Target.declaration, CSharp.declaration, hlines, CSharp.declaration]

theorem owner?_of_not_componentOnly {d : Definition} (h : d.componentOnly = false) : owner? s d = none := by
  rw [owner?, h, if_neg Bool.false_ne_true]

/-! ## What the files of a target are made of -/

variable {policy policy' : ComponentPolicy}

theorem TypeScript.generate_congr (hpackage : s.package = s'.package)
    (heligible : language.eligible policy s = language.eligible policy' s')
    (hdeclaration : ∀ d ∈ language.eligible policy s, declaration s d = declaration s' d) :
    generate s policy = generate s' policy' := by
  have htext : ∀ d ∈ language.eligible policy s, "\n" ++ declarationText s d = "\n" ++ declarationText s' d := by
    intro d hd
    rw [declarationText, hdeclaration d hd, declarationText]
  rw [generate, fileContent, hpackage, List.map_congr_left htext, heligible]
  rfl

/-- The imports are collected from the declarations. -/
theorem Kotlin.fileImports_congr {definitions : List Definition}
    (h : ∀ d ∈ definitions, declaration s d = declaration s' d) :
    fileImports s definitions = fileImports s' definitions := by
  unfold fileImports
  rw [List.foldl_ext _ _ [] fun imports d hd => by rw [h d hd]]

theorem Kotlin.generate_congr (hpackage : s.package = s'.package)
    (heligible : language.eligible policy s = language.eligible policy' s')
    (hdeclaration : ∀ d ∈ language.eligible policy s, declaration s d = declaration s' d) :
    generate s policy = generate s' policy' := by
  have htext : ∀ d ∈ language.eligible policy s, "\n" ++ declarationText s d = "\n" ++ declarationText s' d := by
    intro d hd
    rw [declarationText, hdeclaration d hd, declarationText]
  rw [generate, fileContent, hpackage, fileImports_congr hdeclaration, fileBody, List.map_congr_left htext, heligible]
  rfl

theorem Java.generate_congr (hpackage : s.package = s'.package)
    (heligible : language.eligible policy s = language.eligible policy' s')
    (hdeclaration : ∀ d ∈ language.eligible policy s, declaration s d = declaration s' d) :
    generate s policy = generate s' policy' := by
  have hfile : ∀ (files : FileSet), ∀ d ∈ language.eligible policy s, addFile s files d = addFile s' files d := by
    intro files d hd
    have htext : declarationText s d = declarationText s' d := by
      rw [declarationText, hdeclaration d hd, declarationText]
    rw [addFile, fileContent, htext, hpackage, addFile, fileContent]
  rw [generate, List.foldl_ext _ _ _ hfile, heligible, generate]

theorem CSharp.generate_congr (hpackage : s.package = s'.package)
    (heligible : language.eligible policy s = language.eligible policy' s')
    (hdeclaration : ∀ d ∈ language.eligible policy s, declaration s d = declaration s' d) :
    generate s policy = generate s' policy' := by
  have htext : ∀ d ∈ language.eligible policy s, declarationText s d = declarationText s' d := by
    intro d hd
    rw [declarationText, hdeclaration d hd, declarationText]
  rw [generate, fileContent, hpackage, fileBody, List.map_congr_left htext, heligible, generate, fileContent, fileBody]

/-- **The files of a target are made of the package and the declarations of the eligible definitions.** -/
theorem Target.generate_congr (target : Target) (hpackage : s.package = s'.package)
    (heligible : target.language.eligible policy s = target.language.eligible policy' s')
    (hdeclaration : ∀ d ∈ target.language.eligible policy s, target.declaration s d = target.declaration s' d) :
    target.generate s policy = target.generate s' policy' := by
  cases target with
  | typeScript => exact TypeScript.generate_congr hpackage heligible hdeclaration
  | kotlin => exact Kotlin.generate_congr hpackage heligible hdeclaration
  | java => exact Java.generate_congr hpackage heligible hdeclaration
  | cSharp => exact CSharp.generate_congr hpackage heligible hdeclaration

/-- A policy counts only for whether it leaves the mere components out. -/
theorem Target.generate_of_suppresses_eq (target : Target)
    (h : target.language.suppresses policy = target.language.suppresses policy') :
    target.generate s policy = target.generate s policy' := by
  have heligible : target.language.eligible policy s = target.language.eligible policy' s := by
    rw [Language.eligible, h, Language.eligible]
  exact target.generate_congr rfl heligible fun _ _ => rfl

end Congruence

/-! ## Leaving out and taking out -/

theorem Language.eligible_of_suppresses {lang : Language} {policy : ComponentPolicy} (s : TypeSystem)
    (h : lang.suppresses policy = true) : lang.eligible policy s = TypeSystem.unmarked s.definitions := by
  simp only [Language.eligible, h, Bool.true_and, TypeSystem.unmarked]

/-- Where nothing is marked, every policy takes all definitions. -/
theorem Language.eligible_of_unmarked (lang : Language) (policy : ComponentPolicy) {s : TypeSystem}
    (h : ∀ d ∈ s.definitions, d.componentOnly = false) : lang.eligible policy s = s.definitions := by
  refine List.filter_eq_self.2 fun d hd => ?_
  rw [h d hd, Bool.and_false, Bool.not_false]

theorem TypeSystem.not_componentOnly_of_mem_unmarked {definitions : List Definition} {d : Definition}
    (h : d ∈ unmarked definitions) : d.componentOnly = false := by
  simpa [unmarked] using (List.mem_filter.1 h).2

/-- **Leaving the mere components out is taking them out.** The usual policy leaves them out in every target but
Kotlin. -/
theorem suppression_is_deletion (target : Target) (package : Option String) (definitions : List Definition) :
    let s := TypeSystem.ofDefinitions package definitions
    let rest := TypeSystem.ofDefinitions s.package (s.definitions.filter fun d => !d.componentOnly)
    (∀ policy, target.generate s .suppress = target.generate rest policy) ∧
    (∀ d ∈ rest.definitions, d.componentOnly = false) ∧
    target.generate s .usual = target.generate s (if target = .kotlin then .emit else .suppress) := by
  intro s rest
  have hrest : rest = ⟨s.package, TypeSystem.unmarked s.definitions⟩ :=
    (TypeSystem.marked_ofDefinitions package definitions).ofDefinitions_unmarked
  have hnone : ∀ d ∈ rest.definitions, d.componentOnly = false := by
    rw [hrest]
    exact fun d => TypeSystem.not_componentOnly_of_mem_unmarked
  refine ⟨fun policy => ?_, hnone, ?_⟩
  · have heligible : target.language.eligible .suppress s = rest.definitions := by
      rw [Language.eligible_of_suppresses s rfl, hrest]
    refine target.generate_congr (by rw [hrest]) ?_ fun d hd => target.declaration_congr ?_
    · rw [heligible, target.language.eligible_of_unmarked policy hnone]
    · -- no declaration asks for an owner, so the components that are gone are not missed
      have hd := hnone d (heligible ▸ hd)
      rw [owner?_of_not_componentOnly hd, owner?_of_not_componentOnly hd]
  · cases target <;> exact Target.generate_of_suppresses_eq _ rfl

/-- A union of one record, and a record besides. -/
def shapesAndBox : List Definition :=
  [.union "Shape" ["Circle"], .record "Circle" [], .record "Box" []]

theorem suppression_is_deletion_circle :
    let s := TypeSystem.ofDefinitions none shapesAndBox
    let rest := TypeSystem.ofDefinitions s.package (s.definitions.filter fun d => !d.componentOnly)
    rest.definitions = [.union "Shape" ["Circle"], .record "Box" []] ∧
    Definition.record "Box" [] ∈ rest.definitions ∧ (Definition.record "Box" []).componentOnly = false ∧
    Target.kotlin.generate s .suppress = Target.kotlin.generate rest .emit :=
  have h := suppression_is_deletion .kotlin none shapesAndBox
  have hbox : Definition.record "Box" [] ∈ (TypeSystem.ofDefinitions none
      ((TypeSystem.ofDefinitions none shapesAndBox).definitions.filter fun d => !d.componentOnly)).definitions := by
    decide
  ⟨by decide, hbox, h.2.1 _ hbox, h.1 .emit⟩

end TypeBindings
