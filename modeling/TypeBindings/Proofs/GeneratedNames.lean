import Mathlib.Data.List.Nodup
import TypeBindings.Backend
import TypeBindings.Proofs.JavaFiles
import TypeBindings.Proofs.Paths

/-!
# Names of generated files

Whatever the names of its types, every file that a target generates has a name that is one segment of a path
(`Target.isSegment_of_mem_files`), and no two files of a target have the same name (`Target.nodup_names`).
-/

namespace TypeBindings

namespace Java

/-- The characters that divide paths and endings are not in the stem of a file. -/
theorem not_divider_of_mem_fileStem {name : String} {c : Char} (h : c ∈ (fileStem name).toList) :
    c ≠ '/' ∧ c ≠ '\\' ∧ c ≠ '.' := by
  simp only [fileStem, String.toList_ofList, List.mem_map] at h
  obtain ⟨d, -, rfl⟩ := h
  split
  · decide
  · simp_all

theorem not_divider_of_mem_numbered {name : String} {n : Nat} {c : Char}
    (h : c ∈ (Naming.numbered (fileStem name) n).toList) : c ≠ '/' ∧ c ≠ '\\' ∧ c ≠ '.' := by
  unfold Naming.numbered at h
  split at h
  · exact not_divider_of_mem_fileStem h
  · simp only [String.toList_append, List.mem_append] at h
    rcases h with (h | h) | h
    · exact not_divider_of_mem_fileStem h
    · cases List.mem_singleton.1 h
      decide
    · have hdigit := Naming.isDigit_of_mem_toString h
      refine ⟨?_, ?_, ?_⟩ <;> rintro rfl <;> exact absurd hdigit (by decide)

theorem isSegment_fileName (name : String) (n : Nat) : Path.IsSegment (fileName (fileStem name) n) := by
  have hlist : (fileName (fileStem name) n).toList =
      (Naming.numbered (fileStem name) n).toList ++ ['.', 'j', 'a', 'v', 'a'] := by
    simp [fileName]
  -- the ending alone is longer than what is left out
  have hne : ∀ short : String, short.toList.length < 5 → fileName (fileStem name) n ≠ short := by
    rintro short hshort rfl
    rw [hlist, List.length_append] at hshort
    simp only [List.length_cons, List.length_nil] at hshort
    omega
  refine ⟨hne _ (by decide), hne _ (by decide), hne _ (by decide), fun hslash => ?_⟩
  rw [hlist, List.mem_append] at hslash
  rcases hslash with hslash | hslash
  · exact (not_divider_of_mem_numbered hslash).1 rfl
  · exact absurd hslash (by decide)

theorem IsFileName.exists_number {earlier : List String} {stem name : String} (h : IsFileName earlier stem name) :
    ∃ n, name = fileName stem n := by
  unfold IsFileName at h
  split at h
  · obtain ⟨n, hn, hname, -⟩ := h
    exact ⟨n, hname.trans (fileName_of_two_le stem hn).symm⟩
  · exact ⟨1, h⟩

theorem covers_generate (s : TypeSystem) (policy : ComponentPolicy) :
    Covers s (language.eligible policy s) (generate s policy) :=
  (covers_nil s).foldl

/-- Every file is that of a definition, and has a name made of that of the definition. -/
theorem exists_fileName_of_mem {s : TypeSystem} {policy : ComponentPolicy} {file : String × String}
    (h : file ∈ (generate s policy).files) : ∃ name n, file.1 = fileName (fileStem name) n := by
  have hcovers := covers_generate s policy
  obtain ⟨k, hk⟩ := List.mem_iff_getElem?.1 h
  obtain ⟨hlt, -⟩ := List.getElem?_eq_some_iff.1 hk
  obtain ⟨d, hd⟩ : ∃ d, (language.eligible policy s)[k]? = some d :=
    ⟨_, List.getElem?_eq_getElem (hcovers.length ▸ hlt)⟩
  obtain ⟨file', hfile', hof⟩ := hcovers.file k d hd
  cases hfile'.symm.trans hk
  obtain ⟨n, hn⟩ := hof.name.exists_number
  exact ⟨d.name, n, hn⟩

end Java

namespace Target

/-- **The names of generated files are segments.** -/
theorem isSegment_of_mem_files (target : Target) (s : TypeSystem) (policy : ComponentPolicy)
    {file : String × String} (h : file ∈ (target.generate s policy).files) : Path.IsSegment file.1 := by
  cases target with
  | typeScript =>
    cases List.mem_singleton.1 h
    exact (by decide : Path.IsSegment "types.ts")
  | kotlin =>
    cases List.mem_singleton.1 h
    exact (by decide : Path.IsSegment "Types.kt")
  | cSharp =>
    cases List.mem_singleton.1 h
    exact (by decide : Path.IsSegment "Types.cs")
  | java =>
    obtain ⟨name, n, hname⟩ := Java.exists_fileName_of_mem h
    rw [hname]
    exact Java.isSegment_fileName name n

theorem nodup_names (target : Target) (s : TypeSystem) (policy : ComponentPolicy) :
    (target.generate s policy).names.Nodup := by
  cases target with
  | typeScript => exact List.nodup_singleton _
  | kotlin => exact List.nodup_singleton _
  | cSharp => exact List.nodup_singleton _
  | java => exact (Java.covers_generate s policy).names

theorem isSegment_name (target : Target) : Path.IsSegment target.name := by
  cases target <;> decide

theorem name_injective {t u : Target} (h : t.name = u.name) : t = u := by
  revert h
  cases t <;> cases u <;> decide

end Target

end TypeBindings
