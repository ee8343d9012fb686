import TypeBindings.Proofs.FreeNames
import TypeBindings.Proofs.ImportBlocks

/-!
# No type is lost in Java

Every eligible definition gets a file of its own (`generate_covers_eligible`). `Covers s ds files` says what the files
are when the definitions `ds` have been written: one for each, in order, under different names, each with the
declaration of its definition and with the name that its place gives it. One more definition keeps it so
(`Covers.addFile`), and hence a whole run does (`Covers.foldl`).
-/

namespace TypeBindings

/-! ## Adding a file -/

theorem FileSet.replace_of_not_mem {name : String} (content : String) : ∀ {files : List (String × String)},
    name ∉ files.map Prod.fst → replace name content files = files ++ [(name, content)]
  | [], _ => rfl
  | (n, c) :: rest, h => by
    rw [List.map_cons, List.mem_cons, not_or] at h
    rw [replace, if_neg (Ne.symm h.1), replace_of_not_mem content h.2, List.cons_append]

/-- A file of a new name goes to the end. -/
theorem FileSet.files_add_of_not_mem {set : FileSet} {name : String} (content : String) (h : name ∉ set.names) :
    (set.add name content).files = set.files ++ [(name, content)] :=
  replace_of_not_mem content h

namespace Java

theorem fileName_ne_fileName (stem : String) (m n : Nat) (hm : 1 ≤ m) (hlt : m < n) :
    fileName stem m ≠ fileName stem n := by
  intro h
  unfold fileName at h
  have hlist := congrArg String.toList h
  simp only [String.toList_append, List.append_cancel_right_eq] at hlist
  exact Naming.numbered_ne_numbered stem hm hlt (String.toList_injective hlist)

/-! ## The file of one definition -/

/-- The name of a file after the names of the files before it: the plain name if it is not taken, and else the name
with the least number from two on that is not taken. -/
def IsFileName (earlier : List String) (stem name : String) : Prop :=
  if stem ++ ".java" ∈ earlier then
    ∃ n, 2 ≤ n ∧ name = stem ++ "_" ++ toString n ++ ".java" ∧ name ∉ earlier ∧
      ∀ m, 2 ≤ m → m < n → stem ++ "_" ++ toString m ++ ".java" ∈ earlier
  else name = stem ++ ".java"

/-- A type name with an underscore for each character that divides paths or endings. -/
def stemOf (name : String) : String :=
  name.map fun c => if c ∈ ['/', '\\', '.'] then '_' else c

theorem fileStem_eq (name : String) : fileStem name = stemOf name := by
  apply String.toList_injective
  rw [fileStem, String.toList_ofList, stemOf, String.toList_map]
  refine List.map_congr_left fun c _ => ?_
  simp [or_assoc]

/-- The text of a file that holds some imports and one declaration, which is written on its own: the header, the line of
the package, the imports if there are any, and the declaration behind an empty line. -/
def standalone (package : Option String) (imports : List String) (declaration : Declaration) : String :=
  "// Code generated by typegen. DO NOT EDIT.\n" ++ "package " ++ package.getD "com.example.models" ++ ";\n" ++
    (importBlock ";" imports ++ "\n" ++ (({ style := .spaces 4 } : Context).emit declaration).1)

/-- The file of a definition, after files of the given names. -/
structure IsFileOf (s : TypeSystem) (earlier : List String) (d : Definition) (file : String × String) : Prop where
  name : IsFileName earlier (fileStem d.name) file.1
  content : file.2 = standalone s.package (sortTexts (addImports [] (declaration s d).imports)) (declaration s d)

theorem fileContent_eq (s : TypeSystem) (d : Definition) :
    fileContent s d =
      standalone s.package (sortTexts (addImports [] (declaration s d).imports)) (declaration s d) := by
  have hbody : ∀ front block text : String, front ++ block ++ "\n" ++ text = front ++ (block ++ "\n" ++ text) := by
    intro front block text
    simp only [String.append_assoc]
  rw [fileContent, importLines_eq, hbody]
  rfl

theorem fileName_one (stem : String) : fileName stem 1 = stem ++ ".java" := rfl

theorem fileName_of_two_le (stem : String) {n : Nat} (h : 2 ≤ n) :
    fileName stem n = stem ++ "_" ++ toString n ++ ".java" := by
  rw [fileName, Naming.numbered_of_two_le stem h]

/-- The name that a new file gets is free, and it is the one that its place gives it. -/
theorem firstFree_fileName (earlier : List String) (stem : String) :
    Naming.firstFree earlier (fileName stem) ∉ earlier ∧
      IsFileName earlier stem (Naming.firstFree earlier (fileName stem)) := by
  have hfirst := Naming.firstFree_isFirst earlier (fileName_ne_fileName stem)
  refine ⟨hfirst.not_mem, ?_⟩
  unfold IsFileName
  rw [← fileName_one stem]
  rcases hfirst.first_or_later with ⟨hplain, hname⟩ | ⟨htaken, n, hn, hname, hfree, hbefore⟩
  · rw [if_neg hplain]
    exact hname
  · rw [if_pos htaken, hname]
    refine ⟨n, hn, fileName_of_two_le stem hn, hfree, fun m hm hlt => ?_⟩
    rw [← fileName_of_two_le stem hm]
    exact hbefore m hm hlt

/-! ## All files -/

/-- The files are those of the definitions, one for each and in order. -/
structure Covers (s : TypeSystem) (ds : List Definition) (files : FileSet) : Prop where
  length : files.files.length = ds.length
  names : files.names.Nodup
  file : ∀ k d, ds[k]? = some d → ∃ file, files.files[k]? = some file ∧ IsFileOf s (files.names.take k) d file

theorem covers_nil (s : TypeSystem) : Covers s [] {} where
  length := rfl
  names := List.nodup_nil
  file := nofun

theorem files_addFile (s : TypeSystem) (files : FileSet) (d : Definition) : ∃ file,
    (addFile s files d).files = files.files ++ [file] ∧ file.1 ∉ files.names ∧ IsFileOf s files.names d file := by
  obtain ⟨hfree, hname⟩ := firstFree_fileName files.names (fileStem d.name)
  exact ⟨_, FileSet.files_add_of_not_mem _ hfree, hfree, hname, fileContent_eq s d⟩

/-- **One more definition is one more file.** -/
theorem Covers.addFile {s : TypeSystem} {ds : List Definition} {files : FileSet} (h : Covers s ds files)
    (d : Definition) : Covers s (ds ++ [d]) (addFile s files d) := by
  obtain ⟨file, hfiles, hfree, hfile⟩ := files_addFile s files d
  have hnames : (Java.addFile s files d).names = files.names ++ [file.1] := by
    rw [FileSet.names, hfiles, List.map_append, FileSet.names, List.map_singleton]
  have hlength : files.names.length = ds.length := by rw [FileSet.names, List.length_map, h.length]
  refine ⟨?_, ?_, ?_⟩
  · rw [hfiles, List.length_append, List.length_append, h.length, List.length_singleton, List.length_singleton]
  · rw [hnames, List.nodup_append]
    refine ⟨h.names, List.pairwise_singleton _ _, fun a ha b hb => ?_⟩
    rw [List.mem_singleton.1 hb]
    exact fun hab => hfree (hab ▸ ha)
  · rw [hfiles, hnames]
    refine Naming.forall_getElem?_concat (fun k d' hd => ?_) ?_
    · -- an earlier file and the names before it are as they were
      have hk := (List.getElem?_eq_some_iff.1 hd).1
      rw [List.getElem?_append_left (h.length ▸ hk), List.take_append_of_le_length (hlength ▸ Nat.le_of_lt hk)]
      exact h.file k d' hd
    · rw [← h.length, List.getElem?_concat_length, h.length, ← hlength, List.take_left]
      exact ⟨file, rfl, hfile⟩

theorem Covers.foldl {s : TypeSystem} : ∀ {rest ds : List Definition} {files : FileSet}, Covers s ds files →
    Covers s (ds ++ rest) (rest.foldl (Java.addFile s) files)
  | [], ds, _, h => by
    rw [List.append_nil]
    exact h
  | d :: rest, ds, files, h => by
    have hrest : Covers s (ds ++ [d] ++ rest) (rest.foldl (Java.addFile s) (Java.addFile s files d)) :=
      (h.addFile d).foldl
    rwa [List.append_assoc, List.singleton_append] at hrest

/-- **No type is lost.** There are as many files as eligible definitions, all names are different, and each file is
that of the definition in its place: under the name that its place gives it, with the header, the package, the imports
of the declaration in strict order, and the declaration as it is written on its own. -/
theorem generate_covers_eligible (s : TypeSystem) (policy : ComponentPolicy) :
    (generate s policy).files.length = (language.eligible policy s).length ∧
    (generate s policy).names.Nodup ∧
    ∀ (k : Nat) (d : Definition), (language.eligible policy s)[k]? = some d →
      ∃ name imports, (generate s policy).files[k]? = some (name, standalone s.package imports (declaration s d)) ∧
        SortedImports (declaration s d).imports imports ∧
        IsFileName ((generate s policy).names.take k) (stemOf d.name) name := by
  have h : Covers s (language.eligible policy s) (generate s policy) := (covers_nil s).foldl
  refine ⟨h.length, h.names, fun k d hd => ?_⟩
  obtain ⟨⟨name, content⟩, hfile, hname, hcontent⟩ := h.file k d hd
  cases hcontent
  exact ⟨name, _, hfile, sortedImports _, fileStem_eq d.name ▸ hname⟩

/-- Two types whose files would have the same name. -/
def slashAndDot : TypeSystem :=
  .ofDefinitions none [.record "A/B" [], .enumeration "A.B" ["on", "off"]]

theorem generate_covers_slashAndDot :
    (language.eligible .usual slashAndDot)[1]? = some (.enumeration "A.B" ["on", "off"]) ∧
    (generate slashAndDot .usual).names = ["A_B.java", "A_B_2.java"] ∧
    ∃ name imports, (generate slashAndDot .usual).files[1]? =
        some (name, standalone none imports (declaration slashAndDot (.enumeration "A.B" ["on", "off"]))) ∧
      SortedImports ["com.fasterxml.jackson.annotation.JsonProperty"] imports ∧
      IsFileName ((generate slashAndDot .usual).names.take 1) (stemOf "A.B") name :=
  have h : (language.eligible .usual slashAndDot)[1]? = some (.enumeration "A.B" ["on", "off"]) := by cbv
  ⟨h, by decide +kernel, (generate_covers_eligible slashAndDot .usual).2.2 1 _ h⟩

end Java

end TypeBindings
