import TypeBindings.Backend
import TypeBindings.Proofs.GeneratedNames

/-!
# Where declarations stand

`Target.Declares target s policy d` says that one of the files of a target holds the declaration of `d`, with the
keywords and the name that it opens with. It holds of every eligible definition (`Target.declares_of_eligible`), and so
under every policy of a definition that is no mere component (`Target.declares_of_not_componentOnly`).
-/

namespace TypeBindings

/-! ## Texts in texts -/

namespace Text

/-- A text stands somewhere in another. -/
def Within (part whole : String) : Prop :=
  ∃ before after, whole = before ++ part ++ after

namespace Within

variable {part whole : String}

theorem refl (text : String) : Within text text :=
  ⟨"", "", by simp⟩

theorem trans {outer : String} (h : Within part whole) (h' : Within whole outer) : Within part outer := by
  obtain ⟨before, after, rfl⟩ := h
  obtain ⟨before', after', rfl⟩ := h'
  exact ⟨before' ++ before, after ++ after', by simp only [String.append_assoc]⟩

theorem append_left (before : String) (h : Within part whole) : Within part (before ++ whole) :=
  h.trans ⟨before, "", by simp⟩

theorem append_right (after : String) (h : Within part whole) : Within part (whole ++ after) :=
  h.trans ⟨"", after, by simp⟩

end Within

theorem within_concat {text : String} : ∀ {texts : List String}, text ∈ texts → Within text (concat texts)
  | [], h => by cases h
  | head :: rest, h => by
    rw [concat]
    rcases List.mem_cons.1 h with rfl | h
    · exact (Within.refl _).append_right _
    · exact (within_concat h).append_left _

theorem within_joinWith {sep text : String} : ∀ {texts : List String}, text ∈ texts → Within text (joinWith sep texts)
  | [], h => by cases h
  | [head], h => by
    rw [List.mem_singleton.1 h]
    exact .refl _
  | head :: next :: rest, h => by
    have hcons : joinWith sep (head :: next :: rest) = head ++ sep ++ joinWith sep (next :: rest) := rfl
    rw [hcons]
    rcases List.mem_cons.1 h with rfl | h
    · exact ((Within.refl _).append_right _).append_right _
    · exact (within_joinWith h).append_left _

end Text

open Text (Within)

/-- A line stands in the text of its lines. -/
theorem within_renderLines {style : IndentStyle} {level : Nat} {lines : List Line} {line : Line} (h : line ∈ lines) :
    Within line.text (renderLines style level lines) := by
  refine Within.trans ?_ (Text.within_concat (List.mem_map_of_mem h))
  unfold Line.render
  split
  · rename_i hempty
    rw [String.isEmpty_iff.1 hempty]
    exact ⟨"", "\n", rfl⟩
  · exact (Text.Within.refl _ |>.append_left _).append_right _

/-- The text of a definition stands among those of a list, each after an empty line. -/
theorem within_concat_spaced {text : Definition → String} {definitions : List Definition} {d : Definition}
    (h : d ∈ definitions) : Within (text d) (Text.concat (definitions.map fun d => "\n" ++ text d)) :=
  ((Text.Within.refl _).append_left "\n").trans (Text.within_concat (List.mem_map.2 ⟨d, h, rfl⟩))

namespace Target

/-- The text of a declaration as it stands in the files of a target. -/
def declarationText : Target → TypeSystem → Definition → String
  | .typeScript => TypeScript.declarationText
  | .kotlin => Kotlin.declarationText
  | .java => Java.declarationText
  | .cSharp => CSharp.declarationText

/-- **Every eligible definition has its declaration in a file.** -/
theorem exists_file_of_eligible (target : Target) {s : TypeSystem} {policy : ComponentPolicy} {d : Definition}
    (h : d ∈ target.language.eligible policy s) :
    ∃ file ∈ (target.generate s policy).files, Within (target.declarationText s d) file.2 := by
  cases target with
  | typeScript =>
    refine ⟨_, List.mem_singleton_self _, ?_⟩
    exact (within_concat_spaced h).append_left _
  | kotlin =>
    refine ⟨_, List.mem_singleton_self _, ?_⟩
    exact (within_concat_spaced h).append_left _
  | java =>
    obtain ⟨k, hk⟩ := List.mem_iff_getElem?.1 h
    obtain ⟨file, hfile, hof⟩ := (Java.covers_generate s policy).file k d hk
    refine ⟨file, List.mem_of_getElem? hfile, ?_⟩
    rw [hof.content]
    exact ((Text.Within.refl _).append_left _).append_left _
  | cSharp =>
    refine ⟨_, List.mem_singleton_self _, ?_⟩
    exact ((Text.within_joinWith (List.mem_map_of_mem h)).append_left _).append_right _

/-- The words that come before the name in a declaration. -/
def keywords : Target → Body → String
  | .typeScript, .record _ => "export interface "
  | .typeScript, .enumeration _ => "export enum "
  | .typeScript, .union _ => "export type "
  | .kotlin, .record r => if r.properties.isEmpty then "class " else "data class "
  | .kotlin, .enumeration _ => "enum class "
  | .kotlin, .union _ => "sealed class "
  | .java, .record _ => "public record "
  | .java, .enumeration _ => "public enum "
  | .java, .union components => if components.isEmpty then "public interface " else "public sealed interface "
  | .cSharp, .record _ => "public class "
  | .cSharp, .enumeration _ => "public enum "
  | .cSharp, .union _ => "public abstract class "

end Target

/-- A line begins with the keywords and the name of a definition. -/
def Opens (target : Target) (d : Definition) (line : Line) : Prop :=
  ∃ rest, line.text = target.keywords d.body ++ d.name ++ rest

theorem TypeScript.exists_opens (d : Definition) : ∃ line ∈ bodyLines d, Opens .typeScript d line := by
  obtain ⟨name, body, description⟩ := d
  cases body with
  | record r => exact ⟨_, List.mem_cons_self, _, String.append_assoc⟩
  | enumeration values => exact ⟨_, List.mem_cons_self, _, rfl⟩
  | union components => exact ⟨_, List.mem_cons_self, _, String.append_assoc.trans String.append_assoc⟩

theorem Kotlin.exists_opens (s : TypeSystem) (d : Definition) : ∃ line ∈ bodyLines s d, Opens .kotlin d line := by
  obtain ⟨name, body, description⟩ := d
  cases body with
  | record r =>
    unfold bodyLines Opens Target.keywords
    dsimp only
    split
    · exact ⟨_, List.mem_cons_self, _, rfl⟩
    · exact ⟨_, List.mem_cons_self, _, rfl⟩
  | enumeration values => exact ⟨_, List.mem_cons_self, _, rfl⟩
  | union components => exact ⟨_, List.mem_cons_self, "", String.append_empty.symm⟩

theorem Java.exists_opens (s : TypeSystem) (d : Definition) : ∃ line ∈ bodyLines s d, Opens .java d line := by
  obtain ⟨name, body, description⟩ := d
  cases body with
  | record r =>
    unfold bodyLines
    dsimp only
    split
    · exact ⟨_, List.mem_cons_self, _, String.append_assoc⟩
    · exact ⟨_, List.mem_cons_self, _, rfl⟩
  | enumeration values => exact ⟨_, List.mem_cons_self, _, rfl⟩
  | union components =>
    unfold bodyLines Opens Target.keywords
    dsimp only
    split
    · exact ⟨_, List.mem_cons_self, _, rfl⟩
    · exact ⟨_, List.mem_cons_self, _, String.append_assoc.trans String.append_assoc⟩

theorem CSharp.exists_opens (s : TypeSystem) (d : Definition) : ∃ line ∈ bodyLines s d, Opens .cSharp d line := by
  obtain ⟨name, body, description⟩ := d
  cases body with
  | record r => exact ⟨_, List.mem_cons_self, _, rfl⟩
  | enumeration values => exact ⟨_, List.mem_cons_of_mem _ List.mem_cons_self, "", String.append_empty.symm⟩
  | union components => exact ⟨_, List.mem_cons_self, "", String.append_empty.symm⟩

namespace Target

theorem exists_opens (target : Target) (s : TypeSystem) (d : Definition) :
    ∃ line ∈ (target.declaration s d).lines, Opens target d line := by
  cases target with
  | typeScript =>
    obtain ⟨line, hline, hopens⟩ := TypeScript.exists_opens d
    exact ⟨line, List.mem_append_right _ hline, hopens⟩
  | kotlin =>
    obtain ⟨line, hline, hopens⟩ := Kotlin.exists_opens s d
    exact ⟨line, List.mem_append_right _ (List.mem_cons_of_mem _ hline), hopens⟩
  | java =>
    obtain ⟨line, hline, hopens⟩ := Java.exists_opens s d
    exact ⟨line, List.mem_append_right _ hline, hopens⟩
  | cSharp =>
    obtain ⟨line, hline, hopens⟩ := CSharp.exists_opens s d
    exact ⟨line, List.mem_append_right _ hline, hopens⟩

theorem within_declarationText (target : Target) (s : TypeSystem) (d : Definition) :
    Within (target.keywords d.body ++ d.name) (target.declarationText s d) := by
  obtain ⟨line, hline, rest, htext⟩ := target.exists_opens s d
  have hstart : Within (target.keywords d.body ++ d.name) line.text := htext ▸ (Text.Within.refl _).append_right _
  cases target <;> exact hstart.trans (within_renderLines hline)

/-- One of the files of a target holds the declaration of a definition, with the keywords and the name. -/
def Declares (target : Target) (s : TypeSystem) (policy : ComponentPolicy) (d : Definition) : Prop :=
  ∃ file ∈ (target.generate s policy).files, Within (target.declarationText s d) file.2 ∧
    Within (target.keywords d.body ++ d.name) (target.declarationText s d)

/-- **Every eligible definition is declared.** -/
theorem declares_of_eligible (target : Target) {s : TypeSystem} {policy : ComponentPolicy} {d : Definition}
    (h : d ∈ target.language.eligible policy s) : target.Declares s policy d := by
  obtain ⟨file, hfile, hwithin⟩ := target.exists_file_of_eligible h
  exact ⟨file, hfile, hwithin, target.within_declarationText s d⟩

/-- What is no mere component is declared under every policy. -/
theorem declares_of_not_componentOnly (target : Target) {s : TypeSystem} (policy : ComponentPolicy) {d : Definition}
    (hmem : d ∈ s.definitions) (h : d.componentOnly = false) : target.Declares s policy d := by
  refine target.declares_of_eligible (List.mem_filter.2 ⟨hmem, ?_⟩)
  rw [h, Bool.and_false, Bool.not_false]

end Target

end TypeBindings
