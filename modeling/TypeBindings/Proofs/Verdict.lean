import TypeBindings.Proofs.Generation
import TypeBindings.Proofs.Reports

/-!
# Checking and generating

A document is rejected with errors, at least one and all about its file (`TypeSystem.rejects_of_parse`), so the check
of a file succeeds if and only if the file holds a type system without errors (`checkCommand_file_iff`). That is what
the generate command asks of its source before it writes, and after that it cannot fail before the first write
(`ComesToWrite`, with what is written then). So the two commands agree (`check_agrees_with_generate`).
-/

namespace TypeBindings

/-! ## Entries that are errors -/

theorem Survey.count_error_eq_zero_iff (survey : Survey) : survey.count .error = 0 ↔ Faultless survey.entries :=
  countP_error_eq_zero_iff

theorem TypeSystem.hasErrors_eq_false_iff (s : TypeSystem) (file : String) :
    (s.validate file).hasErrors = false ↔ Faultless (s.validate file).entries :=
  Report.hasErrors_ofEntries_eq_false_iff (s.validate file).entries

/-- Whether there are errors does not depend on the name of the file. -/
theorem TypeSystem.faultless_validate_congr (s : TypeSystem) (file file' : String) :
    Faultless (s.validate file).entries ↔ Faultless (s.validate file').entries := by
  have hfindings : ∀ file, Faultless (s.validate file).entries ↔
      ∀ finding ∈ s.findings, finding.offence.severity ≠ .error := by
    intro file
    exact List.forall_mem_map
  rw [hfindings, hfindings]

/-! ## Rejected documents -/

/-- What is said about a file that is rejected: there are entries, and all are errors about that file. -/
structure Rejects (file : String) (entries : List Diagnostic) : Prop where
  ne_nil : entries ≠ []
  severity : ∀ entry ∈ entries, entry.severity = .error
  file : ∀ entry ∈ entries, entry.file = file

theorem rejects_singleton {file : String} {entry : Diagnostic} (hseverity : entry.severity = .error)
    (hfile : entry.file = file) : Rejects file [entry] where
  ne_nil := List.cons_ne_nil _ _
  severity := List.forall_mem_singleton.2 hseverity
  file := List.forall_mem_singleton.2 hfile

theorem Rejects.not_faultless {file : String} {entries : List Diagnostic} (h : Rejects file entries) :
    ¬ Faultless entries := by
  obtain ⟨entry, hentry⟩ := List.exists_mem_of_ne_nil _ h.ne_nil
  exact fun hfaultless => hfaultless entry hentry (h.severity entry hentry)

namespace TypeSystem

theorem rejects_of_ofDocument {file : String} {value : Json} {entries : List Diagnostic}
    (h : ofDocument file value = .error entries) : Rejects file entries := by
  unfold ofDocument at h
  split at h
  · cases hdecoded : ofJson value with
    | ok system =>
      rw [hdecoded] at h
      cases h
    | error error =>
      rw [hdecoded] at h
      cases h
      exact rejects_singleton rfl rfl
  · rename_i hne
    cases h
    refine ⟨hne, fun entry hentry => ?_, fun entry hentry => ?_⟩
    · obtain ⟨violation, -, rfl⟩ := List.mem_map.1 hentry
      rfl
    · obtain ⟨violation, -, rfl⟩ := List.mem_map.1 hentry
      rfl

/-- **A document is rejected with errors about its file.** -/
theorem rejects_of_parse {file text : String} {entries : List Diagnostic} (h : parse file text = .error entries) :
    Rejects file entries := by
  unfold parse at h
  split at h
  · exact rejects_of_ofDocument h
  · cases h
    exact rejects_singleton rfl rfl

/-- The type system of a document does not depend on the name of the file. -/
theorem parse_eq_ok_congr {file file' text : String} {s : TypeSystem} (h : parse file text = .ok s) :
    parse file' text = .ok s := by
  unfold parse at h ⊢
  cases hvalue : Json.parse text with
  | error fault =>
    rw [hvalue] at h
    cases h
  | ok value =>
    rw [hvalue] at h
    simp only [ofDocument, checkSchema] at h ⊢
    cases hviolations : wireSchema.violations value with
    | cons violation rest =>
      rw [hviolations] at h
      cases h
    | nil =>
      rw [hviolations] at h
      cases hdecoded : ofJson value with
      | error error =>
        rw [hdecoded] at h
        cases h
      | ok system =>
        rw [hdecoded] at h
        exact h

end TypeSystem

theorem rejects_of_loadFile {disk : Disk} {path : Path} {file : String} {entries : List Diagnostic}
    (h : loadFile disk path = .error (.invalid file entries)) : Rejects path.text entries := by
  unfold loadFile at h
  split at h
  · cases h
  · split at h
    · cases h
    · rename_i text htext
      cases hparse : TypeSystem.parse path.text text with
      | ok system =>
        rw [hparse] at h
        cases h
      | error entries' =>
        rw [hparse] at h
        cases h
        exact TypeSystem.rejects_of_parse hparse

/-! ## The check of a file -/

/-- A path leads to a file that holds a type system without errors. -/
def HoldsValid (disk : Disk) (path : Path) : Prop :=
  ∃ system, loadFile disk path = .ok system ∧ (system.validate path.text).hasErrors = false

theorem checkCommand_iff {disk : Disk} {path : Path} :
    (checkCommand disk path).result = .ok true ↔ ∃ found, survey disk path = .ok found ∧ Faultless found.entries := by
  unfold checkCommand
  cases hsurvey : survey disk path with
  | error error => simp
  | ok found => simp [← Survey.count_error_eq_zero_iff]

/-- **The check of a file succeeds if the file holds a type system without errors.** -/
theorem checkCommand_file_iff {disk : Disk} {path : Path} (h : disk.isDirectory path = false) :
    (checkCommand disk path).result = .ok true ↔ HoldsValid disk path := by
  unfold HoldsValid
  simp only [checkCommand_iff, survey, h, Bool.false_eq_true, if_false, surveyFile, TypeSystem.hasErrors_eq_false_iff]
  cases hload : loadFile disk path with
  | ok system => simp [Survey.add]
  | error error =>
    cases error with
    | invalid file entries => simpa using (rejects_of_loadFile hload).not_faultless
    | notFound missing => simp
    | unreadable unread cause => simp

theorem Disk.isDirectory_of_isFile {disk : Disk} {path : Path} (h : disk.isFile path = true) :
    disk.isDirectory path = false := by
  unfold isFile at h
  unfold isDirectory
  split at h
  · rename_i hfind
    rw [hfind]
  · cases h

/-! ## The generate command up to its writes -/

/-- The command has a type system without errors and files with safe names, and comes to write them. Unless a write
fails it succeeds and leaves every file with its text, and it changes no others. -/
def ComesToWrite (disk : Disk) (settings : Settings) : Prop :=
  ∃ system label results lines, settings.source.load disk = .ok (system, label) ∧
    (system.validate label).hasErrors = false ∧
    Registry.builtin.generateAll settings.policy settings.targets system = .ok results ∧
    checkNames results = .ok () ∧
    generateCommand disk settings = (writeTargets settings.output disk results).after lines ∧
    settings.Wrote system disk (generateCommand disk settings)

/-- Neither generation nor the check of names fails for a type system. -/
theorem generated_and_named (system : TypeSystem) (policy : ComponentPolicy) (targets : List Target) :
    ∃ results, Registry.builtin.generateAll policy targets system = .ok results ∧ checkNames results = .ok () :=
  ⟨_, generateAll_builtin policy targets system, checkNames_of_segmented (segmented_generated policy targets system)⟩

theorem comesToWrite_of_load {disk : Disk} {settings : Settings} {system : TypeSystem} {label : String}
    (hload : settings.source.load disk = .ok (system, label)) (herrors : (system.validate label).hasErrors = false) :
    ComesToWrite disk settings := by
  obtain ⟨results, hgenerated, hnames⟩ := generated_and_named system settings.policy settings.targets
  have hvalid : generateValid disk settings system = writeTargets settings.output disk results := by
    simp only [generateValid, hgenerated, Except.mapError, hnames]
  have hrun : generateCommand disk settings = (generateValid disk settings system).after
      (("Generating from " ++ label) :: (system.validate label).entries.flatMap Diagnostic.shown) := by
    simp only [generateCommand, hload, herrors, Bool.false_eq_true, if_false]
  have hwrote := (generateCommand_outcome disk settings).wrote hload herrors
  exact ⟨system, label, results, _, hload, herrors, hgenerated, hnames, hvalid ▸ hrun, hwrote⟩

theorem Source.load_file_eq_ok_iff {disk : Disk} {path : Path} {system : TypeSystem} {label : String} :
    (Source.file path).load disk = .ok (system, label) ↔ loadFile disk path = .ok system ∧ label = path.text := by
  have hload : (Source.file path).load disk =
      ((loadFile disk path).mapError (.source path) >>= fun system => .ok (system, path.text)) := rfl
  rw [hload, bind_eq_ok_iff]
  simp only [mapError_eq_ok_iff, Except.ok.injEq, Prod.mk.injEq]
  constructor
  · rintro ⟨found, hfound, rfl, rfl⟩
    exact ⟨hfound, rfl⟩
  · rintro ⟨hfound, rfl⟩
    exact ⟨system, hfound, rfl, rfl⟩

theorem comesToWrite_iff {disk : Disk} {settings : Settings} {path : Path} (hsource : settings.source = .file path) :
    ComesToWrite disk settings ↔ HoldsValid disk path := by
  constructor
  · rintro ⟨system, label, _, _, hload, herrors, -⟩
    rw [hsource, Source.load_file_eq_ok_iff] at hload
    obtain ⟨hload, rfl⟩ := hload
    exact ⟨system, hload, herrors⟩
  · rintro ⟨system, hload, herrors⟩
    have hsource' : settings.source.load disk = .ok (system, path.text) := by
      rw [hsource, Source.load_file_eq_ok_iff]
      exact ⟨hload, rfl⟩
    exact comesToWrite_of_load hsource' herrors

/-- A command that does not come to write leaves the disk as it is and does not succeed. -/
theorem unchanged_of_not_comesToWrite {disk : Disk} {settings : Settings} (h : ¬ ComesToWrite disk settings) :
    (generateCommand disk settings).disk = disk ∧ (generateCommand disk settings).result ≠ .ok true := by
  cases generateCommand_outcome disk settings with
  | notLoaded error load result same => exact ⟨same, by simp [result]⟩
  | invalid system label load errors result same => exact ⟨same, by simp [result]⟩
  | written system label load errors => exact absurd (comesToWrite_of_load load errors) h

/-- **Checking and generating agree.** The check of a file succeeds if and only if the generate command on that file
comes to write, so that all generated files are there unless a write fails; otherwise the command leaves the disk as it
is and does not succeed. A type system that has warnings only passes both. Neither generation nor the check of file
names can fail, for any targets and any policy. -/
theorem check_agrees_with_generate (disk : Disk) (path : Path) (hfile : disk.isFile path = true) (settings : Settings)
    (hsource : settings.source = .file path) :
    ((checkCommand disk path).result = .ok true ↔ ComesToWrite disk settings) ∧
    ((checkCommand disk path).result ≠ .ok true →
      (generateCommand disk settings).disk = disk ∧ (generateCommand disk settings).result ≠ .ok true) ∧
    (∀ system, loadFile disk path = .ok system →
      (∀ entry ∈ (system.validate path.text).entries, entry.severity = .warning) →
        (checkCommand disk path).result = .ok true ∧ ComesToWrite disk settings) ∧
    (∀ (system : TypeSystem) (policy : ComponentPolicy) (targets : List Target), ∃ results,
      Registry.builtin.generateAll policy targets system = .ok results ∧ checkNames results = .ok ()) := by
  have hcheck : (checkCommand disk path).result = .ok true ↔ HoldsValid disk path :=
    checkCommand_file_iff (Disk.isDirectory_of_isFile hfile)
  have hwrite : ComesToWrite disk settings ↔ HoldsValid disk path := comesToWrite_iff hsource
  have hagree := hcheck.trans hwrite.symm
  refine ⟨hagree, fun hfailed => ?_, fun system hload hwarnings => ?_, generated_and_named⟩
  · exact unchanged_of_not_comesToWrite fun h => hfailed (hagree.2 h)
  · have hfaultless : Faultless (system.validate path.text).entries := by
      intro entry hentry
      rw [hwarnings entry hentry]
      decide
    have hvalid : HoldsValid disk path := ⟨system, hload, (system.hasErrors_eq_false_iff path.text).2 hfaultless⟩
    exact ⟨hcheck.2 hvalid, hwrite.2 hvalid⟩

/-- Two types whose names are no identifiers. -/
def twinSystem : TypeSystem :=
  ⟨none, [.record "A/B" [], .record "A.B" []]⟩

theorem check_agrees_with_generate_twins :
    let again := { twinSettings with source := .file ⟨"again.types.json"⟩ }
    (twinDisk.isFile ⟨"twins.types.json"⟩ = true ∧ loadFile twinDisk ⟨"twins.types.json"⟩ = .ok twinSystem ∧
      (twinSystem.validate "twins.types.json").entries.length = 2 ∧
      (∀ entry ∈ (twinSystem.validate "twins.types.json").entries, entry.severity = .warning) ∧
      (checkCommand twinDisk ⟨"twins.types.json"⟩).result = .ok true ∧ ComesToWrite twinDisk twinSettings) ∧
    (twinDisk.isFile ⟨"again.types.json"⟩ = true ∧ (checkCommand twinDisk ⟨"again.types.json"⟩).result ≠ .ok true ∧
      ¬ ComesToWrite twinDisk again ∧ (generateCommand twinDisk again).disk = twinDisk) := by
  intro again
  have htwins : twinDisk.isFile ⟨"twins.types.json"⟩ = true := by decide +kernel
  have hagain : twinDisk.isFile ⟨"again.types.json"⟩ = true := by decide +kernel
  have hload : loadFile twinDisk ⟨"twins.types.json"⟩ = .ok twinSystem := eq_ok_of_toOption (by decide +kernel)
  have hwarnings : ∀ entry ∈ (twinSystem.validate "twins.types.json").entries, entry.severity = .warning := by
    decide +kernel
  have hfailed : (checkCommand twinDisk ⟨"again.types.json"⟩).result ≠ .ok true := by
    have hresult : (checkCommand twinDisk ⟨"again.types.json"⟩).result = .ok false :=
      eq_ok_of_toOption (by decide +kernel)
    simp [hresult]
  obtain ⟨-, -, hpasses, -⟩ := check_agrees_with_generate twinDisk _ htwins twinSettings rfl
  obtain ⟨hagree, hstays, -⟩ := check_agrees_with_generate twinDisk _ hagain again rfl
  exact ⟨⟨htwins, hload, by decide +kernel, hwarnings, hpasses twinSystem hload hwarnings⟩,
    hagain, hfailed, fun h => hfailed (hagree.2 h), (hstays hfailed).1⟩

end TypeBindings
