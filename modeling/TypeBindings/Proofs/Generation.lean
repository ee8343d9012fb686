import TypeBindings.Command.Run
import TypeBindings.Proofs.DiskFrame
import TypeBindings.Proofs.GeneratedNames

/-!
# What the generate command does to the disk

The command writes nothing unless it has a type system without errors. Then generation and the check of file names
cannot fail (`generateAll_builtin`, `checkNames_of_segmented`), and the files of all targets are one list of writes
(`writeTargets_eq`). Two of them go to the same place only if they are the same (`agree_placements`). So what a run of
writes does says what the command leaves when it comes to write (`Settings.Wrote`), and `generate_frame` follows.
-/

namespace TypeBindings

/-! ## Generation and the check of names -/

/-- The built-in backends have the files of every target. -/
theorem generateAll_builtin (policy : ComponentPolicy) (targets : List Target) (system : TypeSystem) :
    Registry.builtin.generateAll policy targets system =
      .ok (targets.map fun target => (target, target.generate system policy)) := by
  have hone : ∀ target : Target,
      Registry.builtin.generate policy target system = .ok (target.generate system policy) := by
    intro target
    cases target <;> rfl
  unfold Registry.generateAll
  simp only [hone]
  exact List.mapM_pure

/-- Files of a target all of whose names are segments. -/
def Segmented (results : List (Target × FileSet)) : Prop :=
  ∀ result ∈ results, ∀ file ∈ result.2.files, Path.IsSegment file.1

theorem segmented_generated (policy : ComponentPolicy) (targets : List Target) (system : TypeSystem) :
    Segmented (targets.map fun target => (target, target.generate system policy)) := by
  intro result hresult file hfile
  obtain ⟨target, -, rfl⟩ := List.mem_map.1 hresult
  exact target.isSegment_of_mem_files system policy hfile

theorem checkNames_of_segmented {results : List (Target × FileSet)} (h : Segmented results) :
    checkNames results = .ok () := by
  refine forM_eq_ok fun result hresult => forM_eq_ok fun name hname => ?_
  obtain ⟨file, hfile, rfl⟩ := List.mem_map.1 hname
  rw [safePath_of_isSegment (h result hresult file hfile)]
  rfl

/-! ## All writes as one list -/

/-- The path of a generated file. -/
def Settings.pathOf (settings : Settings) (target : Target) (name : String) : Path :=
  (settings.output.join ⟨target.name⟩).join ⟨name⟩

/-- Files below a directory, as writes. -/
def placed (directory : Path) (files : FileSet) : List (Path × String) :=
  files.files.map fun file => (directory.join ⟨file.1⟩, file.2)

/-- The files of all targets as writes, in the order in which they are made. -/
def placements (output : Path) (results : List (Target × FileSet)) : List (Path × String) :=
  results.flatMap fun result => placed (output.join ⟨result.1.name⟩) result.2

theorem placeFiles_of_isSegment (directory : Path) : ∀ {files : List (String × String)},
    (∀ file ∈ files, Path.IsSegment file.1) →
      placeFiles directory files = .ok (files.map fun file => (directory.join ⟨file.1⟩, file.2))
  | [], _ => rfl
  | (name, content) :: rest, h => by
    have hfirst : safePath name = .ok ⟨name⟩ := safePath_of_isSegment (h _ List.mem_cons_self)
    have hrest := placeFiles_of_isSegment directory fun file hfile => h file (List.mem_cons_of_mem _ hfile)
    rw [placeFiles_cons, hfirst, hrest]
    rfl

theorem Disk.writeFiles_of_isSegment (disk : Disk) (directory : Path) {files : FileSet}
    (h : ∀ file ∈ files.files, Path.IsSegment file.1) :
    disk.writeFiles directory files =
      ((disk.writeEach (placed directory files)).1,
        (disk.writeEach (placed directory files)).2.map fun _ => (placed directory files).map Prod.fst) := by
  unfold writeFiles
  rw [placeFiles_of_isSegment directory h]
  rfl

/-- One list of writes after another. -/
theorem Disk.writeEach_append (disk : Disk) (first second : List (Path × String)) :
    disk.writeEach (first ++ second) =
      match disk.writeEach first with
      | (written, .ok ()) => written.writeEach second
      | (written, .error error) => (written, .error error) := by
  induction first generalizing disk with
  | nil => rfl
  | cons write rest ih =>
    obtain ⟨path, content⟩ := write
    rw [List.cons_append, writeEach, writeEach]
    split
    · exact ih _
    · rfl

/-- **The files of all targets are written as one list.** -/
theorem writeTargets_eq (output : Path) (disk : Disk) {results : List (Target × FileSet)} (h : Segmented results) :
    (writeTargets output disk results).disk = (disk.writeEach (placements output results)).1 ∧
      ((disk.writeEach (placements output results)).2 = .ok () ∧ (writeTargets output disk results).result = .ok true ∨
        ∃ error, (writeTargets output disk results).result = .error error) := by
  induction results generalizing disk with
  | nil => exact ⟨rfl, .inl ⟨rfl, rfl⟩⟩
  | cons result rest ih =>
    obtain ⟨target, files⟩ := result
    obtain ⟨hfiles, hrest⟩ := List.forall_mem_cons.1 h
    have hsplit : placements output ((target, files) :: rest) =
        placed (output.join ⟨target.name⟩) files ++ placements output rest := List.flatMap_cons
    have hwrite := disk.writeFiles_of_isSegment (output.join ⟨target.name⟩) hfiles
    rw [hsplit, Disk.writeEach_append]
    unfold writeTargets
    cases hwritten : disk.writeEach (placed (output.join ⟨target.name⟩) files) with
    | mk written outcome =>
      simp only [hwritten] at hwrite
      simp only [hwrite]
      cases outcome with
      | error error => exact ⟨rfl, .inr ⟨_, rfl⟩⟩
      | ok _ => exact ih written hrest

/-- **No write clobbers another:** where two paths of generated files lead to one place, they are the same file of the
same target. -/
theorem agree_placements (output : Path) (policy : ComponentPolicy) (targets : List Target) (system : TypeSystem) :
    Disk.Agree (placements output (targets.map fun target => (target, target.generate system policy))) := by
  have hmem : ∀ write ∈ placements output (targets.map fun target => (target, target.generate system policy)),
      ∃ target : Target, ∃ file ∈ (target.generate system policy).files,
        write = ((output.join ⟨target.name⟩).join ⟨file.1⟩, file.2) := by
    intro write hwrite
    obtain ⟨result, hresult, hwrite⟩ := List.mem_flatMap.1 hwrite
    obtain ⟨target, -, rfl⟩ := List.mem_map.1 hresult
    obtain ⟨file, hfile, rfl⟩ := List.mem_map.1 hwrite
    exact ⟨target, file, hfile, rfl⟩
  intro a ha b hb disk place hplace hplace'
  obtain ⟨target, file, hfile, rfl⟩ := hmem a ha
  obtain ⟨target', file', hfile', rfl⟩ := hmem b hb
  obtain ⟨above, rfl⟩ := Disk.exists_of_locate_join target.isSegment_name
    (target.isSegment_of_mem_files system policy hfile) hplace
  obtain ⟨above', heq⟩ := Disk.exists_of_locate_join target'.isSegment_name
    (target'.isSegment_of_mem_files system policy hfile') hplace'
  obtain ⟨-, hnames⟩ := List.append_inj' heq rfl
  obtain ⟨htarget, hname⟩ : target.name = target'.name ∧ file.1 = file'.1 := by simpa using hnames
  cases Target.name_injective htarget
  rw [List.inj_on_of_nodup_map (target.nodup_names system policy) hfile hfile' hname]

/-! ## The command -/

/-- The writes of a generation from a type system. -/
def Settings.writes (settings : Settings) (system : TypeSystem) : List (Path × String) :=
  placements settings.output (settings.targets.map fun target => (target, target.generate system settings.policy))

theorem Settings.mem_writes {settings : Settings} {system : TypeSystem} {write : Path × String} :
    write ∈ settings.writes system ↔
      ∃ target ∈ settings.targets, ∃ file ∈ (target.generate system settings.policy).files,
        (settings.pathOf target file.1, file.2) = write := by
  simp [writes, placements, placed, pathOf]

/-- After generation and the check of names, which cannot fail, there is only writing. -/
theorem generateValid_eq (disk : Disk) (settings : Settings) (system : TypeSystem) :
    generateValid disk settings system =
      writeTargets settings.output disk
        (settings.targets.map fun target => (target, target.generate system settings.policy)) := by
  unfold generateValid
  rw [generateAll_builtin]
  simp only [Except.mapError]
  rw [checkNames_of_segmented (segmented_generated _ _ _)]

/-- How the command can end, and what it has done to the disk then. -/
inductive GenerateOutcome (disk : Disk) (settings : Settings) (run : Run) : Prop
  | notLoaded (error : CommandError) (load : settings.source.load disk = .error error)
      (result : run.result = .error error) (same : run.disk = disk)
  | invalid (system : TypeSystem) (label : String) (load : settings.source.load disk = .ok (system, label))
      (errors : (system.validate label).hasErrors = true) (result : run.result = .ok false) (same : run.disk = disk)
  | written (system : TypeSystem) (label : String) (load : settings.source.load disk = .ok (system, label))
      (errors : (system.validate label).hasErrors = false)
      (disk_eq : run.disk = (disk.writeEach (settings.writes system)).1)
      (result : (disk.writeEach (settings.writes system)).2 = .ok () ∧ run.result = .ok true ∨
        ∃ error, run.result = .error error)

theorem generateCommand_outcome (disk : Disk) (settings : Settings) :
    GenerateOutcome disk settings (generateCommand disk settings) := by
  unfold generateCommand
  split
  · rename_i error hload
    exact .notLoaded error hload rfl rfl
  · rename_i system label hload
    cases herrors : (system.validate label).hasErrors with
    | true =>
      simp only [herrors, if_true]
      exact .invalid system label hload herrors rfl rfl
    | false =>
      simp only [herrors, Bool.false_eq_true, if_false, generateValid_eq]
      obtain ⟨hdisk, hresult⟩ := writeTargets_eq settings.output disk
        (segmented_generated settings.policy settings.targets system)
      exact .written system label hload herrors hdisk hresult

/-- A place to which the path of a generated file leads. -/
def Settings.IsOutput (settings : Settings) (system : TypeSystem) (disk : Disk) (place : Place) : Prop :=
  ∃ target ∈ settings.targets, ∃ file ∈ (target.generate system settings.policy).files,
    disk.locate (settings.pathOf target file.1) = .ok place

/-- Writing the files of a generation changes no other files. -/
theorem Disk.fileAt?_writeEach_of_not_isOutput {disk : Disk} {settings : Settings} {system : TypeSystem}
    {place : Place} (h : ¬ settings.IsOutput system (disk.writeEach (settings.writes system)).1 place) :
    (disk.writeEach (settings.writes system)).1.fileAt? place = disk.fileAt? place := by
  refine (Disk.frame_writeEach disk (settings.writes system)).elsewhere place fun path hpath hplace => h ?_
  obtain ⟨write, hwrite, rfl⟩ := List.mem_map.1 hpath
  obtain ⟨target, htarget, file, hfile, rfl⟩ := Settings.mem_writes.1 hwrite
  exact ⟨target, htarget, file, hfile, hplace⟩

/-- What a run that comes to write leaves: every generated file of every target with its text if it succeeds, and all
other files as they were even if a write fails. -/
structure Settings.Wrote (settings : Settings) (system : TypeSystem) (disk : Disk) (run : Run) : Prop where
  result : (run.result = .ok true ∧
    ∀ target ∈ settings.targets, ∀ file ∈ (target.generate system settings.policy).files,
      run.disk.find (settings.pathOf target file.1) = .ok (.file file.2.toUTF8)) ∨
    ∃ error, run.result = .error error
  others : ∀ place, ¬ settings.IsOutput system run.disk place → run.disk.fileAt? place = disk.fileAt? place

theorem Settings.wrote_of_writeEach {settings : Settings} {system : TypeSystem} {disk : Disk} {run : Run}
    (hdisk : run.disk = (disk.writeEach (settings.writes system)).1)
    (hresult : (disk.writeEach (settings.writes system)).2 = .ok () ∧ run.result = .ok true ∨
      ∃ error, run.result = .error error) : settings.Wrote system disk run where
  result := by
    rcases hresult with ⟨hok, htrue⟩ | herror
    · refine .inl ⟨htrue, fun target htarget file hfile => ?_⟩
      have hagree : Disk.Agree (settings.writes system) := agree_placements _ _ _ _
      have hwrite : (settings.pathOf target file.1, file.2) ∈ settings.writes system :=
        mem_writes.2 ⟨target, htarget, file, hfile, rfl⟩
      have hfind := Disk.find_writeEach hagree hok _ hwrite
      rw [← hdisk] at hfind
      exact hfind
    · exact .inr herror
  others place hplace := by
    rw [hdisk] at hplace ⊢
    exact Disk.fileAt?_writeEach_of_not_isOutput hplace

namespace GenerateOutcome

variable {disk : Disk} {settings : Settings} {run : Run}

theorem of_load_error (h : GenerateOutcome disk settings run) {error : CommandError}
    (hload : settings.source.load disk = .error error) : run.result = .error error ∧ run.disk = disk := by
  cases h with
  | notLoaded error' load result same =>
    cases hload.symm.trans load
    exact ⟨result, same⟩
  | invalid system label load => cases hload.symm.trans load
  | written system label load => cases hload.symm.trans load

theorem of_hasErrors (h : GenerateOutcome disk settings run) {system : TypeSystem} {label : String}
    (hload : settings.source.load disk = .ok (system, label)) (herrors : (system.validate label).hasErrors = true) :
    run.result = .ok false ∧ run.disk = disk := by
  cases h with
  | notLoaded error load => cases hload.symm.trans load
  | invalid system' label' load errors result same => exact ⟨result, same⟩
  | written system' label' load errors =>
    cases hload.symm.trans load
    rw [errors] at herrors
    cases herrors

theorem same_of_ok_false (h : GenerateOutcome disk settings run) (hresult : run.result = .ok false) :
    run.disk = disk := by
  cases h with
  | notLoaded error load result same => exact same
  | invalid system label load errors result same => exact same
  | written system label load errors disk_eq result =>
    rcases result with ⟨-, result⟩ | ⟨error, result⟩ <;> cases hresult.symm.trans result

/-- A type system without errors is written. -/
theorem wrote (h : GenerateOutcome disk settings run) {system : TypeSystem} {label : String}
    (hload : settings.source.load disk = .ok (system, label)) (herrors : (system.validate label).hasErrors = false) :
    settings.Wrote system disk run := by
  cases h with
  | notLoaded error load => cases hload.symm.trans load
  | invalid system' label' load errors =>
    cases hload.symm.trans load
    rw [errors] at herrors
    cases herrors
  | written system' label' load errors disk_eq result =>
    cases hload.symm.trans load
    exact Settings.wrote_of_writeEach disk_eq result

/-- A run that succeeds has written a type system. -/
theorem wrote_of_ok_true (h : GenerateOutcome disk settings run) (hresult : run.result = .ok true) :
    ∃ system label, settings.source.load disk = .ok (system, label) ∧ settings.Wrote system disk run := by
  cases h with
  | notLoaded error load result => cases hresult.symm.trans result
  | invalid system label load errors result => cases hresult.symm.trans result
  | written system label load errors disk_eq result =>
    exact ⟨system, label, load, Settings.wrote_of_writeEach disk_eq result⟩

theorem keeps (h : GenerateOutcome disk settings run) : Disk.Keeps disk run.disk := by
  cases h with
  | notLoaded error load result same => exact same ▸ (Disk.Frame.refl [] disk).toKeeps
  | invalid system label load errors result same => exact same ▸ (Disk.Frame.refl [] disk).toKeeps
  | written system label load errors disk_eq => exact disk_eq ▸ (Disk.frame_writeEach disk _).toKeeps

theorem isOutput_of_changed (h : GenerateOutcome disk settings run) {place : Place}
    (hchanged : run.disk.fileAt? place ≠ disk.fileAt? place) :
    ∃ system label, settings.source.load disk = .ok (system, label) ∧ settings.IsOutput system run.disk place := by
  cases h with
  | notLoaded error load result same => exact absurd (by rw [same]) hchanged
  | invalid system label load errors result same => exact absurd (by rw [same]) hchanged
  | written system label load errors disk_eq result =>
    refine ⟨system, label, load, ?_⟩
    by_contra hother
    exact hchanged ((Settings.wrote_of_writeEach disk_eq result).others place hother)

end GenerateOutcome

theorem Source.load_unknownBuiltin (disk : Disk) {name : String} (h : name ∉ Catalog.names) :
    (Source.builtin name).load disk = .error (.unknownBuiltin name) := by
  have hnone : Catalog.find? name = none := by
    unfold Catalog.find?
    rw [List.lookup_eq_none_iff]
    intro entry hentry
    have hmem : entry.1 ∈ Catalog.names := List.mem_map_of_mem hentry
    rw [bne_iff_ne]
    rintro rfl
    exact h hmem
  rw [load, hnone]
  rfl

/-- **The frame of the generate command.** Without a type system that has no errors the disk stays as it is. A run that
succeeds leaves every generated file of every target with its text, and all other files as they were. However a run
ends, no file is gone, and only generated files are new or have other bytes. -/
theorem generate_frame (disk : Disk) (settings : Settings) :
    let run := generateCommand disk settings
    (∀ error, settings.source.load disk = .error error → run.result = .error error ∧ run.disk = disk) ∧
    (∀ name, settings.source = .builtin name → name ∉ Catalog.names →
      run.result = .error (.unknownBuiltin name) ∧ run.disk = disk) ∧
    (∀ system label, settings.source.load disk = .ok (system, label) → (system.validate label).hasErrors = true →
      run.result = .ok false ∧ run.disk = disk) ∧
    (run.result = .ok false → run.disk = disk) ∧
    (run.result = .ok true → ∃ system label, settings.source.load disk = .ok (system, label) ∧
      (∀ target ∈ settings.targets, ∀ file ∈ (target.generate system settings.policy).files,
        run.disk.find (settings.pathOf target file.1) = .ok (.file file.2.toUTF8)) ∧
      ∀ place, ¬ settings.IsOutput system run.disk place → run.disk.fileAt? place = disk.fileAt? place) ∧
    (∀ place, (disk.fileAt? place).isSome → (run.disk.fileAt? place).isSome) ∧
    (∀ place, run.disk.fileAt? place ≠ disk.fileAt? place →
      ∃ system label, settings.source.load disk = .ok (system, label) ∧ settings.IsOutput system run.disk place) := by
  intro run
  have houtcome : GenerateOutcome disk settings run := generateCommand_outcome disk settings
  refine ⟨fun error => houtcome.of_load_error, fun name hsource hname => ?_, fun system label => houtcome.of_hasErrors,
    houtcome.same_of_ok_false, fun hresult => ?_, houtcome.keeps.file, fun place => houtcome.isOutput_of_changed⟩
  · apply houtcome.of_load_error
    rw [hsource]
    exact Source.load_unknownBuiltin disk hname
  · obtain ⟨system, label, hload, hwrote⟩ := houtcome.wrote_of_ok_true hresult
    rcases hwrote.result with ⟨-, hfiles⟩ | ⟨error, herror⟩
    · exact ⟨system, label, hload, hfiles, hwrote.others⟩
    · cases hresult.symm.trans herror

/-- A working directory with a document of two types whose Java files would have the same name, and with one that
defines a type twice. -/
def twinDisk : Disk where
  home := ["work"]
  entries := [(["work"], .directory), (["work", "notes.txt"], .file "keep".toUTF8),
    (["work", "twins.types.json"],
      .file "\x7b\"types\":[\x7b\"name\":\"A/B\"\x7d,\x7b\"name\":\"A.B\"\x7d]\x7d".toUTF8),
    (["work", "again.types.json"],
      .file "\x7b\"types\":[\x7b\"name\":\"A\"\x7d,\x7b\"name\":\"A\"\x7d]\x7d".toUTF8)]

/-- Two targets, below a directory elsewhere that is not there yet. -/
def twinSettings : Settings where
  source := .file ⟨"twins.types.json"⟩
  output := ⟨"/srv/./out"⟩
  targets := [.java, .typeScript]
  policy := .usual

theorem generate_frame_twins :
    let run := generateCommand twinDisk twinSettings
    let rejected := generateCommand twinDisk { twinSettings with source := .file ⟨"again.types.json"⟩ }
    let refused := generateCommand twinDisk { twinSettings with source := .builtin "twins" }
    run.result = .ok true ∧
    (∃ system label, twinSettings.source.load twinDisk = .ok (system, label) ∧
      (∀ target ∈ twinSettings.targets, ∀ file ∈ (target.generate system twinSettings.policy).files,
        run.disk.find (twinSettings.pathOf target file.1) = .ok (.file file.2.toUTF8)) ∧
      ∀ place, ¬ twinSettings.IsOutput system run.disk place → run.disk.fileAt? place = twinDisk.fileAt? place) ∧
    (twinDisk.fileAt? ["work", "notes.txt"]).isSome ∧ (run.disk.fileAt? ["work", "notes.txt"]).isSome ∧
    (∃ system label, twinSettings.source.load twinDisk = .ok (system, label) ∧
      twinSettings.IsOutput system run.disk ["srv", "out", "java", "A_B_2.java"]) ∧
    rejected.result = .ok false ∧ rejected.disk = twinDisk ∧
    refused.result = .error (.unknownBuiltin "twins") ∧ refused.disk = twinDisk := by
  intro run rejected refused
  obtain ⟨_, _, _, _, hwritten, hkept, hchanged⟩ := generate_frame twinDisk twinSettings
  obtain ⟨_, _, _, hsame, _⟩ := generate_frame twinDisk { twinSettings with source := .file ⟨"again.types.json"⟩ }
  obtain ⟨_, hunknown, _⟩ := generate_frame twinDisk { twinSettings with source := .builtin "twins" }
  have hresult : run.result = .ok true := eq_ok_of_toOption (by decide +kernel)
  have hrejected : rejected.result = .ok false := eq_ok_of_toOption (by decide +kernel)
  have hnotes : (twinDisk.fileAt? ["work", "notes.txt"]).isSome := by decide
  have hnew : run.disk.fileAt? ["srv", "out", "java", "A_B_2.java"] ≠
      twinDisk.fileAt? ["srv", "out", "java", "A_B_2.java"] := by
    have hsome : (run.disk.fileAt? ["srv", "out", "java", "A_B_2.java"]).isSome := by decide +kernel
    have hnone : twinDisk.fileAt? ["srv", "out", "java", "A_B_2.java"] = none := rfl
    rw [hnone]
    exact Option.isSome_iff_ne_none.1 hsome
  exact ⟨hresult, hwritten hresult, hnotes, hkept _ hnotes, hchanged _ hnew, hrejected, hsame hrejected,
    hunknown "twins" rfl (by decide)⟩

end TypeBindings
