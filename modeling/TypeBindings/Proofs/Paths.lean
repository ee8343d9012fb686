import Mathlib.Tactic.MkIffOfInductiveProp
import TypeBindings.Output
import TypeBindings.Proofs.Components
import TypeBindings.Proofs.Failure

/-!
# Names below a path

A segment is a text that means one plain name in a path. Going along a path with a segment behind it is going along the
path and then to the name (`Path.steps_join`), so the place that such a path leads to ends in that name
(`Disk.exists_of_locate_join`). Segments are safe names of generated files (`safePath_of_isSegment`).
-/

namespace TypeBindings

namespace Path

/-- A text that means one plain name: it is not empty, has no slash in it, and does not mean a directory that is there
already. -/
@[mk_iff] structure IsSegment (name : String) : Prop where
  notEmpty : name ≠ ""
  notCurrent : name ≠ "."
  notParent : name ≠ ".."
  noSlash : '/' ∉ name.toList

instance (name : String) : Decidable (IsSegment name) :=
  decidable_of_iff _ (isSegment_iff name).symm

section Segment

variable {name : String}

theorem IsSegment.segments_eq (h : IsSegment name) : (Path.mk name).segments = [name] :=
  Text.splitAt_of_not_mem h.noSlash

theorem IsSegment.not_isAbsolute (h : IsSegment name) : (Path.mk name).isAbsolute = false := by
  unfold isAbsolute
  rw [beq_eq_false_iff_ne]
  intro hhead
  exact h.noSlash (List.mem_of_mem_head? hhead)

theorem IsSegment.components_eq (h : IsSegment name) : (Path.mk name).components = [.name name] := by
  unfold Path.components
  rw [h.segments_eq]
  simp [firstComponent, component?, h.notEmpty, h.notCurrent, h.notParent]

theorem IsSegment.steps_eq (h : IsSegment name) : (Path.mk name).steps = [.name name] := by
  unfold Path.steps
  rw [h.segments_eq, h.not_isAbsolute]
  simp [h.notEmpty, h.notCurrent, h.notParent]

/-! ## Slashes at the end -/

theorem segments_append_slash (front : String) :
    (Path.mk (front ++ "/")).segments = Text.splitAt '/' front ++ [""] :=
  Text.splitAt_append (b := "") (by simp)

/-- A slash at the end leads nowhere else. -/
theorem steps_append_slash {text : String} (hne : text ≠ "") :
    (Path.mk (text ++ "/")).steps = (Path.mk text).steps := by
  have habsolute : (Path.mk (text ++ "/")).isAbsolute = (Path.mk text).isAbsolute := by
    cases hcs : text.toList with
    | nil => exact absurd (String.toList_eq_nil_iff.1 hcs) hne
    | cons c cs => simp [isAbsolute, hcs]
  unfold steps
  rw [segments_append_slash, habsolute]
  simp [segments]

/-- After a slash a segment is one step more. -/
theorem steps_slash_append (front : String) (h : IsSegment name) :
    (Path.mk (front ++ "/" ++ name)).steps = (Path.mk (front ++ "/")).steps ++ [Component.name name] := by
  have hsegments : (Path.mk (front ++ "/" ++ name)).segments = Text.splitAt '/' front ++ [name] := by
    unfold segments
    rw [Text.splitAt_append (a := front) (b := name) (by simp), Text.splitAt_of_not_mem h.noSlash]
  have habsolute : (Path.mk (front ++ "/" ++ name)).isAbsolute = (Path.mk (front ++ "/")).isAbsolute := by
    simp [isAbsolute, List.head?_append]
  unfold steps
  rw [hsegments, habsolute, segments_append_slash]
  simp [h.notEmpty, h.notCurrent, h.notParent]

/-- **Going along a path with a segment behind it** is going along the path and then to the name. -/
theorem steps_join (p : Path) (h : IsSegment name) : (p.join ⟨name⟩).steps = p.steps ++ [Component.name name] := by
  obtain ⟨text⟩ := p
  unfold join
  rw [h.not_isAbsolute, Bool.false_or]
  split
  · rename_i hempty
    obtain rfl : text = "" := String.isEmpty_iff.1 hempty
    exact h.steps_eq
  · rename_i hempty
    split
    · rename_i hslash
      -- the path has the slash itself
      obtain ⟨front, hfront⟩ := List.getLast?_eq_some_iff.1 (eq_of_beq hslash)
      obtain rfl : text = String.ofList front ++ "/" := String.toList_injective (by simpa using hfront)
      exact steps_slash_append _ h
    · have hne : text ≠ "" := fun htext => hempty (String.isEmpty_iff.2 htext)
      change (Path.mk (text ++ "/" ++ name)).steps = _
      rw [steps_slash_append _ h, steps_append_slash hne]

end Segment

end Path

/-- A segment is a safe name. -/
theorem safePath_of_isSegment {name : String} (h : Path.IsSegment name) : safePath name = .ok ⟨name⟩ := by
  unfold safePath
  rw [h.components_eq]
  simp [h.notEmpty, Path.Component.isName]

theorem placeFiles_cons (directory : Path) (name content : String) (files : List (String × String)) :
    placeFiles directory ((name, content) :: files) = (do
      let path ← safePath name
      let placed ← placeFiles directory files
      return (directory.join path, content) :: placed) := by
  simp only [placeFiles, List.mapM_cons, bind_assoc, pure_bind]

namespace Disk

variable {disk : Disk}

/-- A step that does not go to the root is one from a directory. -/
theorem directory_of_step {here place : Place} {component : Path.Component} (hroot : component ≠ .root)
    (h : disk.step here component = .ok place) : disk.node? here = some .directory := by
  unfold step at h
  cases hnode : disk.node? here with
  | none => cases component <;> simp_all
  | some node =>
    cases node with
    | directory => rfl
    | file content => cases component <;> simp_all

/-- A step to a name ends in that name. -/
theorem eq_of_step_name {here place : Place} {name : String} (h : disk.step here (.name name) = .ok place) :
    place = here ++ [name] := by
  have hnode := directory_of_step (by simp) h
  unfold step at h
  simp only [hnode] at h
  split at h
  · cases h
  · cases h
    rfl

theorem foldlM_of_locate {path : Path} {place : Place} (h : disk.locate path = .ok place) :
    path.steps.foldlM disk.step disk.home = .ok place := by
  unfold locate at h
  split at h
  · cases h
  · split at h
    · cases h
    · split at h
      · cases h
      · exact h

/-- The place of a path with two segments behind it ends in their names. -/
theorem exists_of_locate_join {p : Path} {outer inner : String} {place : Place} (houter : Path.IsSegment outer)
    (hinner : Path.IsSegment inner) (h : disk.locate ((p.join ⟨outer⟩).join ⟨inner⟩) = .ok place) :
    ∃ above, place = above ++ [outer, inner] := by
  have hway := foldlM_of_locate h
  rw [Path.steps_join _ hinner, Path.steps_join _ houter] at hway
  simp only [List.foldlM_append, List.foldlM_cons, List.foldlM_nil, bind_pure, bind_assoc] at hway
  obtain ⟨above, -, hway⟩ := bind_eq_ok_iff.1 hway
  obtain ⟨middle, houter, hinner⟩ := bind_eq_ok_iff.1 hway
  rw [eq_of_step_name hinner, eq_of_step_name houter]
  exact ⟨above, by simp⟩

end Disk

end TypeBindings
