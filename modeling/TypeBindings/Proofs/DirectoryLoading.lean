import Mathlib.Tactic.FinCases
import TypeBindings.Proofs.Verdict
import TypeBindings.Proofs.Walk

/-!
# Loading a directory

Each type file below a directory contributes one type system or some errors, and what the files contribute is put
together in the order of the walk (`loadDirectory_eq`). A file contributes a type system if and only if it can be
loaded by itself (`contributes_loadEntry`). So the check of a directory succeeds if and only if the check of each of its
type files does (`loadDirectory_loses_no_file`).
-/

namespace TypeBindings

/-! ## Type files -/

theorem isTypeFileName_iff {name : String} : isTypeFileName name = true ↔ ∃ stem, name = stem ++ ".types.json" := by
  unfold isTypeFileName
  rw [List.isSuffixOf_iff_suffix]
  constructor
  · rintro ⟨front, hfront⟩
    exact ⟨String.ofList front, String.toList_injective (by simp [← hfront, typeFileEnding])⟩
  · rintro ⟨stem, rfl⟩
    exact ⟨stem.toList, by simp [typeFileEnding]⟩

/-- There is a file at a place below a directory, and its name ends as those of type files do. -/
def Disk.HasTypeFile (disk : Disk) (directory place : Place) : Prop :=
  (disk.fileAt? (directory ++ place)).isSome ∧ ∃ above stem, place = above ++ [stem ++ ".types.json"]

theorem any_isTypeFileName_iff {place : Place} :
    place.getLast?.any isTypeFileName = true ↔ ∃ above stem, place = above ++ [stem ++ ".types.json"] := by
  rw [Option.any_eq_true]
  simp only [List.getLast?_eq_some_iff, isTypeFileName_iff]
  constructor
  · rintro ⟨_, ⟨above, rfl⟩, stem, rfl⟩
    exact ⟨above, stem, rfl⟩
  · rintro ⟨above, stem, rfl⟩
    exact ⟨_, ⟨above, rfl⟩, stem, rfl⟩

/-- A place above another is a part of it, neither empty nor the whole. -/
theorem Disk.mem_above {outer place : Place} (h : outer ∈ above place) :
    outer ≠ [] ∧ ∃ inner, inner ≠ [] ∧ place = outer ++ inner := by
  unfold above at h
  obtain ⟨k, hk, rfl⟩ := List.mem_map.1 h
  obtain ⟨hpos, hlt⟩ : 0 < k ∧ k < place.length := by
    rw [List.range_eq_range', List.tail_range', List.mem_range'_1] at hk
    omega
  refine ⟨?_, place.drop k, ?_, (List.take_append_drop k place).symm⟩
  · rw [ne_eq, List.take_eq_nil_iff, not_or]
    exact ⟨Nat.ne_of_gt hpos, List.ne_nil_of_length_pos (by omega)⟩
  · rw [ne_eq, List.drop_eq_nil_iff]
    omega

/-- Every directory below a directory can be opened by its path. -/
def Disk.Walkable (disk : Disk) (path : Path) (directory : Place) : Prop :=
  ∀ place, place ≠ [] → disk.node? (directory ++ place) = some .directory →
    disk.isDirectory (path.enter place) = true

section Walk

variable {disk : Disk} {path : Path} {directory : Place}

/-- A walk comes to all type files. -/
theorem Disk.IsTree.mem_typeFiles (h : disk.IsTree) (hwalk : disk.Walkable path directory) {place : Place} :
    place ∈ typeFiles disk path directory ↔ disk.HasTypeFile directory place := by
  unfold typeFiles HasTypeFile
  rw [List.mem_filter, h.mem_filesBelow, Bool.and_eq_true, any_isTypeFileName_iff]
  refine and_congr_right fun hfile => and_iff_left ?_
  obtain ⟨content, hcontent⟩ := Option.isSome_iff_exists.1 hfile
  rw [fileAt?_eq_some] at hcontent
  refine List.all_eq_true.2 fun outer houter => ?_
  obtain ⟨hne, inner, hinner, rfl⟩ := mem_above houter
  rw [← List.append_assoc] at hcontent
  exact hwalk outer hne (h.directory_of_append hinner hcontent)

theorem Disk.HasTypeFile.ne_nil {place : Place} (h : disk.HasTypeFile directory place) : place ≠ [] := by
  obtain ⟨-, above, stem, rfl⟩ := h
  simp

end Walk

/-! ## What a file contributes -/

/-- What the file at a place below a directory contributes: its type system, or errors about it. -/
inductive Contributes (disk : Disk) (path : Path) (place : Place) : List LoadedSystem × List Diagnostic → Prop
  | system (loaded : LoadedSystem) (load : loadFile disk (path.enter place) = .ok loaded.system)
      (file : loaded.file = Text.joinWith "/" place) : Contributes disk path place ([loaded], [])
  | errors (entries : List Diagnostic) (error : LoadError) (load : loadFile disk (path.enter place) = .error error)
      (rejects : Rejects (Text.joinWith "/" place) entries) : Contributes disk path place ([], entries)

/-- The result of one file as lists. -/
def contribution : Except (List Diagnostic) LoadedSystem → List LoadedSystem × List Diagnostic
  | .ok loaded => ([loaded], [])
  | .error entries => ([], entries)

theorem loadFile_eq_of_readText {disk : Disk} {path : Path} {text : String} (h : disk.readText path = .ok text) :
    loadFile disk path = (TypeSystem.parse path.text text).mapError (.invalid path.text) := by
  have hfile : disk.isFile path = true := by
    unfold Disk.readText at h
    obtain ⟨node, hfind, h⟩ := bind_eq_ok_iff.1 h
    unfold Disk.isFile
    rw [hfind]
    cases node with
    | directory => cases h
    | file content => rfl
  simp only [loadFile, hfile, h, Bool.not_true, Bool.false_eq_true, if_false]

theorem loadFile_of_readText_error {disk : Disk} {path : Path} {error : FileError}
    (h : disk.readText path = .error error) : ∃ failure, loadFile disk path = .error failure := by
  unfold loadFile
  rw [h]
  split
  · exact ⟨_, rfl⟩
  · exact ⟨_, rfl⟩

/-- **A file contributes its type system or errors,** as it can be loaded by itself or not. -/
theorem contributes_loadEntry (disk : Disk) (path : Path) (place : Place) :
    Contributes disk path place (contribution (loadEntry disk path place)) := by
  unfold loadEntry
  cases htext : disk.readText (path.enter place) with
  | error error =>
    obtain ⟨failure, hload⟩ := loadFile_of_readText_error htext
    exact .errors _ failure hload (rejects_singleton rfl rfl)
  | ok text =>
    have hload := loadFile_eq_of_readText htext
    cases hparse : TypeSystem.parse (Text.joinWith "/" place) text with
    | ok system =>
      rw [TypeSystem.parse_eq_ok_congr hparse] at hload
      simp only [hparse]
      exact .system _ hload rfl
    | error entries =>
      simp only [hparse]
      cases hown : TypeSystem.parse (path.enter place).text text with
      | ok system =>
        rw [TypeSystem.parse_eq_ok_congr hown] at hparse
        cases hparse
      | error entries' =>
        rw [hown] at hload
        exact .errors _ _ hload (TypeSystem.rejects_of_parse hparse)

/-- A contribution without errors is that of a file that holds a type system without errors. -/
theorem Contributes.holdsValid_iff {disk : Disk} {path : Path} {place : Place}
    {part : List LoadedSystem × List Diagnostic} (h : Contributes disk path place part) :
    HoldsValid disk (path.enter place) ↔
      Faultless part.2 ∧ ∀ loaded ∈ part.1, Faultless (loaded.system.validate loaded.file).entries := by
  cases h with
  | system loaded load file =>
    have hvalid : HoldsValid disk (path.enter place) ↔
        Faultless (loaded.system.validate (path.enter place).text).entries := by
      simp [HoldsValid, load, TypeSystem.hasErrors_eq_false_iff]
    rw [hvalid, loaded.system.faultless_validate_congr _ loaded.file]
    simp [Faultless]
  | errors entries error load rejects =>
    simp [HoldsValid, load, rejects.not_faultless]

/-! ## All files -/

/-- One more file adds what it contributes. -/
theorem addLoaded_eq (systems : List LoadedSystem) (entries : List Diagnostic)
    (result : Except (List Diagnostic) LoadedSystem) :
    addLoaded (systems, .ofEntries entries) result =
      (systems ++ (contribution result).1, .ofEntries (entries ++ (contribution result).2)) := by
  cases result with
  | ok loaded => simp [addLoaded, contribution]
  | error more => simp [addLoaded, contribution, Report.foldl_push_ofEntries]

theorem foldl_addLoaded (results : List (Except (List Diagnostic) LoadedSystem)) :
    ∀ (systems : List LoadedSystem) (entries : List Diagnostic),
      results.foldl addLoaded (systems, .ofEntries entries) =
        (systems ++ (results.map contribution).flatMap Prod.fst,
          .ofEntries (entries ++ (results.map contribution).flatMap Prod.snd)) := by
  induction results with
  | nil => simp
  | cons result rest ih =>
    intro systems entries
    rw [List.foldl_cons, addLoaded_eq, ih, List.map_cons, List.flatMap_cons, List.flatMap_cons, List.append_assoc,
      List.append_assoc]

section Directory

variable {disk : Disk} {path : Path} {directory : Place}

theorem Disk.find_of_directory (hplace : disk.locate path = .ok directory)
    (hdirectory : disk.node? directory = some .directory) : disk.find path = .ok .directory := by
  unfold find
  rw [bind_eq_ok_iff]
  exact ⟨directory, hplace, by rw [hdirectory]⟩

/-- What the type files below a directory contribute, in the order of the walk. -/
def contributions (disk : Disk) (path : Path) (directory : Place) : List (List LoadedSystem × List Diagnostic) :=
  (typeFiles disk path directory).map fun place => contribution (loadEntry disk path place)

/-- **A directory holds what its files contribute.** -/
theorem loadDirectory_eq (hplace : disk.locate path = .ok directory)
    (hdirectory : disk.node? directory = some .directory) :
    loadDirectory disk path = .ok ((contributions disk path directory).flatMap Prod.fst,
      .ofEntries ((contributions disk path directory).flatMap Prod.snd)) := by
  have hfold := foldl_addLoaded ((typeFiles disk path directory).map (loadEntry disk path)) [] []
  have hmap : ((typeFiles disk path directory).map (loadEntry disk path)).map contribution =
      contributions disk path directory := List.map_map
  rw [hmap, List.nil_append, List.nil_append] at hfold
  unfold loadDirectory
  rw [Disk.find_of_directory hplace hdirectory, hplace]
  exact congrArg Except.ok hfold

theorem entries_foldl_add (systems : List LoadedSystem) : ∀ found : Survey,
    (systems.foldl (fun survey loaded => survey.add loaded.system loaded.file) found).entries =
      found.entries ++ systems.flatMap fun loaded => (loaded.system.validate loaded.file).entries := by
  induction systems with
  | nil => simp
  | cons loaded rest ih =>
    intro found
    rw [List.foldl_cons, ih, Survey.add, List.flatMap_cons, List.append_assoc]

theorem faultless_flatMap {α : Type} {items : List α} {entries : α → List Diagnostic} :
    Faultless (items.flatMap entries) ↔ ∀ item ∈ items, Faultless (entries item) :=
  List.forall_mem_flatMap

/-- The check of a directory succeeds if no contribution has errors. -/
theorem checkCommand_directory_iff (hplace : disk.locate path = .ok directory)
    (hdirectory : disk.node? directory = some .directory) :
    (checkCommand disk path).result = .ok true ↔ ∀ part ∈ contributions disk path directory,
      Faultless part.2 ∧ ∀ loaded ∈ part.1, Faultless (loaded.system.validate loaded.file).entries := by
  have hisDirectory : disk.isDirectory path = true := by
    unfold Disk.isDirectory
    rw [Disk.find_of_directory hplace hdirectory]
  have hsurvey : ∃ found, survey disk path = .ok found ∧ found.entries =
      (contributions disk path directory).flatMap Prod.snd ++
        ((contributions disk path directory).flatMap Prod.fst).flatMap
          fun loaded => (loaded.system.validate loaded.file).entries := by
    unfold survey
    rw [if_pos hisDirectory, surveyDirectory, loadDirectory_eq hplace hdirectory]
    exact ⟨_, rfl, entries_foldl_add _ _⟩
  obtain ⟨found, hfound, hentries⟩ := hsurvey
  have hcheck : (checkCommand disk path).result = .ok true ↔ Faultless found.entries := by
    rw [checkCommand_iff, hfound]
    simp
  rw [hcheck, hentries, faultless_append, faultless_flatMap, faultless_flatMap, List.forall_mem_flatMap, ← forall₂_and]

end Directory

/-- **Loading a directory loses no file.** Of a tree whose directories can be opened, the type files below a directory
are visited in the order of a walk. Each contributes one type system, which is the one that the file gives by itself,
or errors about the file, and all contributions stand in the order of the files. The check of the directory succeeds if
and only if the check of each of these files does. -/
theorem loadDirectory_loses_no_file (disk : Disk) (htree : disk.IsTree) (path : Path) (directory : Place)
    (hplace : disk.locate path = .ok directory) (hdirectory : disk.node? directory = some .directory)
    (hwalk : disk.Walkable path directory) :
    ∃ (files : List Place) (parts : List (List LoadedSystem × List Diagnostic)),
      (∀ place, place ∈ files ↔ disk.HasTypeFile directory place) ∧
      files.Pairwise Place.WalkedBefore ∧
      (∀ place ∈ files, (path.enter place).text.utf8ByteSize ≤ Disk.maxPathBytes → ∃ content,
        disk.fileAt? (directory ++ place) = some content ∧ disk.find (path.enter place) = .ok (.file content)) ∧
      List.Forall₂ (Contributes disk path) files parts ∧
      loadDirectory disk path = .ok (parts.flatMap Prod.fst, .ofEntries (parts.flatMap Prod.snd)) ∧
      ((checkCommand disk path).result = .ok true ↔
        ∀ place ∈ files, (checkCommand disk (path.enter place)).result = .ok true) := by
  have hfiles : ∀ {place}, place ∈ typeFiles disk path directory ↔ disk.HasTypeFile directory place :=
    htree.mem_typeFiles hwalk
  refine ⟨typeFiles disk path directory, contributions disk path directory, fun _ => hfiles,
    (htree.pairwise_filesBelow directory).filter _, fun place hmem hshort => ?_, ?_,
    loadDirectory_eq hplace hdirectory, ?_⟩
  · obtain ⟨content, hcontent⟩ := Option.isSome_iff_exists.1 (hfiles.1 hmem).1
    exact ⟨content, hcontent,
      htree.find_enter hplace (hfiles.1 hmem).ne_nil (Disk.fileAt?_eq_some.1 hcontent) hshort⟩
  · unfold contributions
    rw [List.forall₂_map_right_iff]
    exact List.forall₂_same.2 fun place _ => contributes_loadEntry disk path place
  · rw [checkCommand_directory_iff hplace hdirectory]
    unfold contributions
    rw [List.forall_mem_map]
    refine forall₂_congr fun place hmem => ?_
    obtain ⟨content, hcontent⟩ := Option.isSome_iff_exists.1 (hfiles.1 hmem).1
    have hfile := htree.isDirectory_enter hplace (hfiles.1 hmem).ne_nil hcontent
    rw [checkCommand_file_iff hfile, (contributes_loadEntry disk path place).holdsValid_iff]

/-- A directory with a type file, and below it another with a broken one, which a walk comes to first. -/
def nestedDisk : Disk where
  home := ["work"]
  entries := [(["work"], .directory), (["work", "defs"], .directory),
    (["work", "defs", "a.types.json"], .file "\x7b\"types\":[\x7b\"name\":\"A\"\x7d]\x7d".toUTF8),
    (["work", "defs", "a"], .directory), (["work", "defs", "a", "z.types.json"], .file "\x7b".toUTF8),
    (["work", "defs", "notes.json"], .file "\x7b\x7d".toUTF8)]

theorem isTree_nestedDisk : nestedDisk.IsTree where
  distinct := by decide
  notRoot := by decide
  inside := by
    intro entry hentry
    fin_cases hentry <;> rfl
  named := by decide +kernel

theorem walkable_nestedDisk : nestedDisk.Walkable ⟨"defs"⟩ ["work", "defs"] := by
  intro place hne hnode
  have hmem := Disk.mem_entries_of_node? (List.cons_ne_nil _ _) hnode
  obtain rfl : place = ["a"] := by simpa [nestedDisk, hne] using hmem
  decide +kernel

theorem loadDirectory_loses_no_file_nested :
    nestedDisk.IsTree ∧ nestedDisk.locate ⟨"defs"⟩ = .ok ["work", "defs"] ∧
    nestedDisk.node? ["work", "defs"] = some .directory ∧ nestedDisk.Walkable ⟨"defs"⟩ ["work", "defs"] ∧
    (checkCommand nestedDisk ⟨"defs/a.types.json"⟩).result = .ok true ∧
    (checkCommand nestedDisk ⟨"defs"⟩).result = .ok false ∧
    ∃ files parts, ["a", "z.types.json"] ∈ files ∧ ["a.types.json"] ∈ files ∧ ["notes.json"] ∉ files ∧
      files.Pairwise Place.WalkedBefore ∧ List.Forall₂ (Contributes nestedDisk ⟨"defs"⟩) files parts ∧
      loadDirectory nestedDisk ⟨"defs"⟩ = .ok (parts.flatMap Prod.fst, .ofEntries (parts.flatMap Prod.snd)) ∧
      ∃ place ∈ files, (checkCommand nestedDisk (Path.enter ⟨"defs"⟩ place)).result ≠ .ok true := by
  have hplace : nestedDisk.locate ⟨"defs"⟩ = .ok ["work", "defs"] := eq_ok_of_toOption (by decide +kernel)
  have hfailed : (checkCommand nestedDisk ⟨"defs"⟩).result = .ok false := eq_ok_of_toOption (by decide +kernel)
  obtain ⟨files, parts, hmem, hwalked, -, hparts, hload, hcheck⟩ := loadDirectory_loses_no_file nestedDisk
    isTree_nestedDisk ⟨"defs"⟩ ["work", "defs"] hplace rfl walkable_nestedDisk
  refine ⟨isTree_nestedDisk, hplace, rfl, walkable_nestedDisk, eq_ok_of_toOption (by decide +kernel), hfailed,
    files, parts, (hmem _).2 ⟨rfl, ["a"], "z", rfl⟩, (hmem _).2 ⟨rfl, [], "a", rfl⟩, fun hnotes => ?_, hwalked, hparts,
    hload, ?_⟩
  · exact absurd (any_isTypeFileName_iff.2 ((hmem _).1 hnotes).2) (by decide)
  · by_contra hnone
    have hall : ∀ place ∈ files, (checkCommand nestedDisk (Path.enter ⟨"defs"⟩ place)).result = .ok true :=
      fun place hplace => by_contra fun hne => hnone ⟨place, hplace, hne⟩
    rw [hcheck.2 hall] at hfailed
    cases hfailed

end TypeBindings
