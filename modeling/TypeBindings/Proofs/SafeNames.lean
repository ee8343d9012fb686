import Mathlib.Data.List.Find
import TypeBindings.Proofs.GeneratedNames

/-!
# Safe names of files

A name is safe if it is not empty, does not begin at the root or at a dot, and has no segment that leads up
(`IsSafeName`). These are the names that are accepted (`succeeds_safePath_iff`). Behind a slash every segment of a path
means what it means anywhere but at the beginning (`Path.components_slash_append`), so a safe name behind a directory
goes on from there with one name or more (`Path.components_join`, `IsSafeName.exists_names`). Files are placed before
any is written, and the first name that is not safe ends that (`placeFiles_eq_error`). Hence whatever is written stands
below its directory (`output_stays_below`).
-/

namespace TypeBindings

namespace Path

/-! ## Components of segments -/

theorem exists_segments (p : Path) : ∃ first rest, p.segments = first :: rest := by
  have hne : p.segments ≠ [] := by simp [segments, Text.splitAt, Text.pieces_ne_nil]
  exact List.exists_cons_of_ne_nil hne

theorem components_of_segments {p : Path} {first : String} {rest : List String} (h : p.segments = first :: rest) :
    p.components = firstComponent first rest.isEmpty ++ rest.filterMap component? := by
  unfold components
  rw [h]

/-- A slash before everything else has an empty segment before it and some segment behind it. -/
theorem segments_of_slash {p : Path} (h : p.text.toList.head? = some '/') :
    ∃ rest, rest ≠ [] ∧ p.segments = "" :: rest := by
  obtain ⟨cs, htext⟩ := List.head?_eq_some_iff.1 h
  refine ⟨(Text.pieces (· == '/') cs).map String.ofList, by simp [Text.pieces_ne_nil], ?_⟩
  simp [segments, Text.splitAt, htext, Text.pieces]

/-- Any other text has something in its first segment. -/
theorem first_ne_empty {p : Path} {first : String} {rest : List String} (h : p.segments = first :: rest)
    (hne : p.text ≠ "") (hslash : p.text.toList.head? ≠ some '/') : first ≠ "" := by
  rintro rfl
  unfold segments Text.splitAt at h
  cases htext : p.text.toList with
  | nil => exact hne (String.toList_eq_nil_iff.1 htext)
  | cons c cs =>
    have hc : ¬ (c == '/') = true := by simpa [htext] using hslash
    rw [htext, Text.pieces, if_neg hc] at h
    split at h <;> simp [String.ofList_eq_empty_iff] at h

/-- Where segments are added the first one is not alone. -/
theorem components_of_append {p : Path} {first : String} {rest more : List String}
    (h : p.segments = first :: (rest ++ more)) (hne : more ≠ []) :
    p.components = firstComponent first false ++ rest.filterMap component? ++ more.filterMap component? := by
  have hempty : (rest ++ more).isEmpty = false :=
    List.isEmpty_eq_false_iff.2 (List.append_ne_nil_of_right_ne_nil rest hne)
  rw [components_of_segments h, hempty, List.filterMap_append, List.append_assoc]

/-- With a slash at the end the first segment is not alone, and nothing else is added. -/
theorem components_slash_end {front first : String} {rest : List String}
    (h : (Path.mk front).segments = first :: rest) :
    (Path.mk (front ++ "/")).components = firstComponent first false ++ rest.filterMap component? := by
  have hslash : (Path.mk (front ++ "/")).segments = first :: (rest ++ [""]) := by
    rw [segments_append_slash, ← List.cons_append, ← h]
    rfl
  have hlast : [""].filterMap component? = [] := rfl
  rw [components_of_append hslash (List.cons_ne_nil _ _), hlast, List.append_nil]

/-- Behind a slash every segment of a name means what it means anywhere but at the beginning. -/
theorem components_slash_append (front name : String) : (Path.mk (front ++ "/" ++ name)).components =
    (Path.mk (front ++ "/")).components ++ (Path.mk name).segments.filterMap component? := by
  obtain ⟨first, rest, hfront⟩ := exists_segments ⟨front⟩
  obtain ⟨start, others, hname⟩ := exists_segments ⟨name⟩
  have hne : (Path.mk name).segments ≠ [] := by
    rw [hname]
    exact List.cons_ne_nil _ _
  have happend : (Path.mk (front ++ "/" ++ name)).segments = first :: (rest ++ (Path.mk name).segments) := by
    rw [← List.cons_append, ← hfront]
    exact Text.splitAt_append (by simp)
  rw [components_slash_end hfront, components_of_append happend hne]

/-- A slash at the end means nothing. -/
theorem components_append_slash {text : String} (hne : text ≠ "") :
    (Path.mk (text ++ "/")).components = (Path.mk text).components := by
  obtain ⟨first, rest, htext⟩ := exists_segments ⟨text⟩
  have hfirst : firstComponent first rest.isEmpty = firstComponent first false := by
    cases rest with
    | cons next rest => rfl
    | nil =>
      -- being alone matters only to an empty segment, and the only segment of a path is not empty
      have hslash : text.toList.head? ≠ some '/' := by
        intro hslash
        obtain ⟨rest, hrest, hsegments⟩ := segments_of_slash (p := ⟨text⟩) hslash
        exact hrest (List.cons.inj (hsegments.symm.trans htext)).2
      simp [firstComponent, first_ne_empty htext hne hslash]
  rw [components_slash_end htext, components_of_segments htext, hfirst]

/-- Names among components. -/
theorem exists_names_of_all {components : List Component} (h : components.all Component.isName = true) :
    ∃ names : List String, components = names.map .name := by
  induction components with
  | nil => exact ⟨[], rfl⟩
  | cons component components ih =>
    rw [List.all_cons, Bool.and_eq_true] at h
    obtain ⟨names, hnames⟩ := ih h.2
    cases component with
    | name text => exact ⟨text :: names, by rw [hnames, List.map_cons]⟩
    | root => exact absurd h.1 Bool.false_ne_true
    | current => exact absurd h.1 Bool.false_ne_true
    | parent => exact absurd h.1 Bool.false_ne_true

theorem component?_eq_none {segment : String} (h : segment = "" ∨ segment = ".") : component? segment = none := by
  rcases h with rfl | rfl <;> rfl

theorem component?_eq_name {segment : String} (hskip : ¬ (segment = "" ∨ segment = ".")) (hparent : segment ≠ "..") :
    component? segment = some (.name segment) := by
  rw [not_or] at hskip
  simp [component?, hskip.1, hskip.2, hparent]

/-- Segments behind the first mean names only, unless one leads up. -/
theorem all_isName_filterMap_iff (segments : List String) :
    (segments.filterMap component?).all Component.isName = true ↔ ".." ∉ segments := by
  induction segments with
  | nil => simp
  | cons segment segments ih =>
    rw [List.mem_cons, not_or, ← ih]
    by_cases hskip : segment = "" ∨ segment = "."
    · have hne : ".." ≠ segment := by rcases hskip with rfl | rfl <;> decide
      rw [List.filterMap_cons_none (component?_eq_none hskip), iff_and_self]
      exact fun _ => hne
    · by_cases hparent : segment = ".."
      · simp [component?, hparent, Component.isName]
      · rw [List.filterMap_cons_some (component?_eq_name hskip hparent), List.all_cons, Component.isName,
          Bool.true_and, iff_and_self]
        exact fun _ => Ne.symm hparent

end Path

/-! ## Names that are accepted -/

/-- A name that stays below every directory: it is not empty, does not begin with a slash, its first segment is no
single dot, and none of its segments leads up. -/
@[mk_iff] structure IsSafeName (name : String) : Prop where
  notEmpty : name ≠ ""
  notAbsolute : name.toList.head? ≠ some '/'
  notCurrent : (Text.splitAt '/' name).head? ≠ some "."
  notParent : ".." ∉ Text.splitAt '/' name

instance (name : String) : Decidable (IsSafeName name) :=
  decidable_of_iff _ (isSafeName_iff name).symm

section SafeName

variable {name : String}

/-- At the beginning of a safe name a segment means what it means anywhere else. -/
theorem IsSafeName.components_eq (h : IsSafeName name) :
    (Path.mk name).components = (Path.mk name).segments.filterMap Path.component? := by
  obtain ⟨first, rest, hname⟩ := Path.exists_segments ⟨name⟩
  have hempty : first ≠ "" := Path.first_ne_empty hname h.notEmpty h.notAbsolute
  have hcurrent : first ≠ "." := by
    rintro rfl
    exact h.notCurrent (congrArg List.head? hname)
  rw [Path.components_of_segments hname, hname, Path.firstComponent, if_neg hempty, if_neg hcurrent,
    List.filterMap_cons]
  cases Path.component? first <;> rfl

theorem IsSafeName.all_isName (h : IsSafeName name) : (Path.mk name).components.all Path.Component.isName = true := by
  rw [h.components_eq, Path.all_isName_filterMap_iff]
  exact h.notParent

theorem isSafeName_of_all_isName (hne : name ≠ "")
    (h : (Path.mk name).components.all Path.Component.isName = true) : IsSafeName name := by
  obtain ⟨first, rest, hname⟩ := Path.exists_segments ⟨name⟩
  rw [Path.components_of_segments hname, List.all_append, Bool.and_eq_true, Path.all_isName_filterMap_iff] at h
  obtain ⟨hfirst, hrest⟩ := h
  have habsolute : name.toList.head? ≠ some '/' := by
    intro hslash
    obtain ⟨others, hothers, hsegments⟩ := Path.segments_of_slash (p := ⟨name⟩) hslash
    obtain ⟨rfl, rfl⟩ := List.cons.inj (hname.symm.trans hsegments)
    simp [Path.firstComponent, hothers, Path.Component.isName] at hfirst
  have hcurrent : first ≠ "." := by
    rintro rfl
    simp [Path.firstComponent, Path.Component.isName] at hfirst
  have hparent : first ≠ ".." := by
    rintro rfl
    simp [Path.firstComponent, Path.component?, Path.Component.isName] at hfirst
  have hsplit : Text.splitAt '/' name = first :: rest := hname
  refine ⟨hne, habsolute, ?_, ?_⟩
  · simpa [hsplit] using hcurrent
  · simp [hsplit, hrest, Ne.symm hparent]

theorem IsSafeName.safePath_eq (h : IsSafeName name) : safePath name = .ok ⟨name⟩ := by
  unfold safePath
  rw [if_neg (by simpa using h.notEmpty), if_pos h.all_isName]

theorem IsSafeName.of_ok {path : Path} (h : safePath name = .ok path) : IsSafeName name := by
  unfold safePath at h
  split at h
  · cases h
  · rename_i hempty
    split at h
    · rename_i hnames
      exact isSafeName_of_all_isName (by simpa using hempty) hnames
    · cases h

/-- **The names that are accepted** are the safe ones. -/
theorem succeeds_safePath_iff : Succeeds (safePath name) ↔ IsSafeName name :=
  ⟨fun ⟨_, h⟩ => .of_ok h, fun h => ⟨_, h.safePath_eq⟩⟩

/-! ## Below a directory -/

/-- A safe name means one name or more. -/
theorem IsSafeName.exists_names (h : IsSafeName name) :
    ∃ names : List String, names ≠ [] ∧ (Path.mk name).components = names.map .name := by
  obtain ⟨names, hnames⟩ := Path.exists_names_of_all h.all_isName
  refine ⟨names, ?_, hnames⟩
  rintro rfl
  obtain ⟨first, rest, hname⟩ := Path.exists_segments ⟨name⟩
  have hsplit : Text.splitAt '/' name = first :: rest := hname
  have hskip : ¬ (first = "" ∨ first = ".") := by
    rintro (rfl | rfl)
    · exact Path.first_ne_empty hname h.notEmpty h.notAbsolute rfl
    · exact h.notCurrent (congrArg List.head? hsplit)
  have hparent : first ≠ ".." := by
    rintro rfl
    exact h.notParent (hsplit ▸ List.mem_cons_self)
  rw [h.components_eq, hname, List.filterMap_cons_some (Path.component?_eq_name hskip hparent)] at hnames
  cases hnames

/-- **A safe name behind a directory** goes on where the directory ends. -/
theorem Path.components_join (directory : Path) (h : IsSafeName name) :
    (directory.join ⟨name⟩).components = directory.components ++ (Path.mk name).components := by
  obtain ⟨text⟩ := directory
  have habsolute : (Path.mk name).isAbsolute = false := beq_eq_false_iff_ne.2 h.notAbsolute
  unfold join
  rw [habsolute, Bool.false_or]
  split
  · rename_i hempty
    obtain rfl : text = "" := String.isEmpty_iff.1 hempty
    rfl
  · rename_i hempty
    rw [h.components_eq]
    split
    · rename_i hslash
      -- the directory has the slash itself
      obtain ⟨front, hfront⟩ := List.getLast?_eq_some_iff.1 (eq_of_beq hslash)
      obtain rfl : text = String.ofList front ++ "/" := String.toList_injective (by simpa using hfront)
      exact components_slash_append _ _
    · have hne : text ≠ "" := fun htext => hempty (String.isEmpty_iff.2 htext)
      change (Path.mk (text ++ "/" ++ name)).components = _
      rw [components_slash_append, components_append_slash hne]

end SafeName

/-! ## Names of generated files -/

/-- The ending of a file has the only dot in its name. -/
theorem Java.count_dot_fileName (name : String) (n : Nat) : (fileName (fileStem name) n).toList.count '.' = 1 := by
  have hstem : '.' ∉ (Naming.numbered (fileStem name) n).toList :=
    fun h => (not_divider_of_mem_numbered h).2.2 rfl
  rw [fileName, String.toList_append, List.count_append, List.count_eq_zero_of_not_mem hstem]
  rfl

theorem Java.not_backslash_fileName (name : String) (n : Nat) : '\\' ∉ (fileName (fileStem name) n).toList := by
  rw [fileName, String.toList_append, List.mem_append, not_or]
  exact ⟨fun h => (not_divider_of_mem_numbered h).2.1 rfl, by decide⟩

/-- Two dots side by side are two dots. -/
theorem not_infix_dots {text : List Char} (h : text.count '.' = 1) : ¬ ['.', '.'] <:+: text := by
  intro hinfix
  have hcount := hinfix.sublist.count_le '.'
  rw [h] at hcount
  exact absurd hcount (by decide)

/-- The names of generated files have one dot and no backslash. -/
theorem Target.not_backslash_of_mem_files (target : Target) (s : TypeSystem) (policy : ComponentPolicy)
    {file : String × String} (h : file ∈ (target.generate s policy).files) :
    '\\' ∉ file.1.toList ∧ file.1.toList.count '.' = 1 := by
  cases target with
  | typeScript =>
    cases List.mem_singleton.1 h
    exact (by decide : '\\' ∉ "types.ts".toList ∧ "types.ts".toList.count '.' = 1)
  | kotlin =>
    cases List.mem_singleton.1 h
    exact (by decide : '\\' ∉ "Types.kt".toList ∧ "Types.kt".toList.count '.' = 1)
  | cSharp =>
    cases List.mem_singleton.1 h
    exact (by decide : '\\' ∉ "Types.cs".toList ∧ "Types.cs".toList.count '.' = 1)
  | java =>
    obtain ⟨name, n, hname⟩ := Java.exists_fileName_of_mem h
    rw [hname]
    exact ⟨Java.not_backslash_fileName name n, Java.count_dot_fileName name n⟩

/-! ## Placing files -/

/-- **The first name that is not safe** ends the placing of files with its error. -/
theorem placeFiles_eq_error (directory : Path) : ∀ {files : List (String × String)},
    (∃ file ∈ files, ¬ IsSafeName file.1) →
      ∃ name error, (files.map Prod.fst).find? (fun name => ¬ IsSafeName name) = some name ∧
        safePath name = .error error ∧ placeFiles directory files = .error error
  | [], h => by simp at h
  | (name, content) :: files, h => by
    by_cases hname : IsSafeName name
    · have hrest : ∃ file ∈ files, ¬ IsSafeName file.1 := by simpa [hname] using h
      obtain ⟨first, error, hfirst, herror, hplace⟩ := placeFiles_eq_error directory hrest
      refine ⟨first, error, ?_, herror, ?_⟩
      · simpa [List.find?_cons, hname] using hfirst
      · rw [placeFiles_cons, hname.safePath_eq, hplace]
        rfl
    · cases herror : safePath name with
      | ok path => exact absurd (IsSafeName.of_ok herror) hname
      | error error =>
        refine ⟨name, error, by simp [hname], herror, ?_⟩
        rw [placeFiles_cons, herror]
        rfl

/-- **Output stays below its directory.** A name is accepted exactly if it is not empty, does not begin with a slash,
its first segment is no single dot and no segment is two dots. Behind any directory an accepted name means the
components of the directory and then one ordinary name or more. Every target gives its files names that are accepted,
without slashes, backslashes and two dots side by side. If a name in a set of files is not accepted, wherever it stands,
then writing the set fails with the error of the first such name and leaves the disk as it was. -/
theorem output_stays_below :
    (∀ name, Succeeds (safePath name) ↔ IsSafeName name) ∧
    (∀ name path, safePath name = .ok path → path = ⟨name⟩ ∧ ∃ names : List String, names ≠ [] ∧
      ∀ directory : Path, (directory.join path).components = directory.components ++ names.map .name) ∧
    (∀ (target : Target) s policy, ∀ file ∈ (target.generate s policy).files, Succeeds (safePath file.1) ∧
      '/' ∉ file.1.toList ∧ '\\' ∉ file.1.toList ∧ ¬ ['.', '.'] <:+: file.1.toList) ∧
    ∀ (disk : Disk) (directory : Path) (files : FileSet), (∃ name ∈ files.names, ¬ Succeeds (safePath name)) →
      ∃ name error, files.names.find? (fun name => ¬ IsSafeName name) = some name ∧ safePath name = .error error ∧
        disk.writeFiles directory files = (disk, .error error) := by
  refine ⟨fun name => succeeds_safePath_iff, fun name path hpath => ?_, fun target s policy file hfile => ?_,
    fun disk directory files hrejected => ?_⟩
  · have hsafe := IsSafeName.of_ok hpath
    obtain rfl : path = ⟨name⟩ := Except.ok.inj (hpath.symm.trans hsafe.safePath_eq)
    obtain ⟨names, hne, hnames⟩ := hsafe.exists_names
    refine ⟨rfl, names, hne, fun directory => ?_⟩
    rw [directory.components_join hsafe, hnames]
  · have hsegment := target.isSegment_of_mem_files s policy hfile
    obtain ⟨hbackslash, hdots⟩ := target.not_backslash_of_mem_files s policy hfile
    exact ⟨⟨_, safePath_of_isSegment hsegment⟩, hsegment.noSlash, hbackslash, not_infix_dots hdots⟩
  · have hunsafe : ∃ file ∈ files.files, ¬ IsSafeName file.1 := by
      simpa [FileSet.names, succeeds_safePath_iff] using hrejected
    obtain ⟨name, error, hfirst, herror, hplace⟩ := placeFiles_eq_error directory hunsafe
    refine ⟨name, error, hfirst, herror, ?_⟩
    unfold Disk.writeFiles
    rw [hplace]

/-- A name with segments that mean nothing, a type with the name of a file far away, and a set of files of which the
second would lead out of its directory. -/
theorem output_stays_below_hostile :
    let s : TypeSystem := .ofDefinitions none [.record "../..\\etc/passwd" []]
    let files : FileSet := ⟨[("Good.java", "ok"), ("../Bad.java", "nope"), ("", "")]⟩
    IsSafeName "a//./b.ts/" ∧ safePath "a//./b.ts/" = .ok ⟨"a//./b.ts/"⟩ ∧
    (∃ names : List String, names ≠ [] ∧ ∀ directory : Path,
      (directory.join ⟨"a//./b.ts/"⟩).components = directory.components ++ names.map .name) ∧
    (Target.java.generate s .usual).names = ["______etc_passwd.java"] ∧
    (∀ file ∈ (Target.java.generate s .usual).files, Succeeds (safePath file.1)) ∧
    (Disk.mk ["tmp"] []).writeFiles ⟨"java"⟩ files = (⟨["tmp"], []⟩, .error (.escapingName "../Bad.java")) := by
  intro s files
  obtain ⟨haccepted, hbelow, hgenerated, hwrite⟩ := output_stays_below
  have hsafe : IsSafeName "a//./b.ts/" := by decide
  obtain ⟨path, hpath⟩ := (haccepted "a//./b.ts/").2 hsafe
  obtain ⟨rfl, hnames⟩ := hbelow _ _ hpath
  refine ⟨hsafe, hpath, hnames, rfl, fun file hfile => (hgenerated .java s .usual file hfile).1, ?_⟩
  have hrejected : ¬ Succeeds (safePath "../Bad.java") := by
    rw [haccepted]
    decide
  obtain ⟨name, error, hfirst, herror, hwritten⟩ :=
    hwrite ⟨["tmp"], []⟩ ⟨"java"⟩ files ⟨"../Bad.java", by decide, hrejected⟩
  obtain rfl : "../Bad.java" = name := Option.some.inj (Eq.trans (by decide) hfirst)
  obtain rfl : OutputError.escapingName "../Bad.java" = error := Except.error.inj (Eq.trans (by decide) herror)
  exact hwritten

end TypeBindings
