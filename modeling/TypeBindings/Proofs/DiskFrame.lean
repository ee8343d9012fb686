import Mathlib.Control.Monad.Basic
import TypeBindings.Proofs.Paths

/-!
# What writing leaves alone

`Frame paths old new` says what may be different after writing to the given paths: directories stay, no file is gone,
and only files that these paths lead to are other than they were. A step of writing has a frame (`frame_makeDirectory`,
`frame_writeText`), frames are put together (`Frame.trans`), and so every run of writes has the frame of all its paths,
whether it comes to its end or not (`frame_writeEach`). A run that comes to its end leaves every file as it was written,
if paths that lead to the same place are written with the same text (`find_writeEach`).
-/

namespace TypeBindings.Disk

/-! ## Nodes -/

theorem lookup_setEntry (place other : Place) (node : Node) : ∀ entries : List (Place × Node),
    (setEntry place node entries).lookup other = if other = place then some node else entries.lookup other
  | [] => by
    by_cases h : other = place
    · subst h
      simp [setEntry]
    · have hne : (other == place) = false := beq_eq_false_iff_ne.2 h
      simp [setEntry, List.lookup_cons, hne, h]
  | (p, n) :: rest => by
    have ih := lookup_setEntry place other node rest
    unfold setEntry
    split
    · rename_i hp
      subst hp
      by_cases h : other = p
      · subst h
        simp
      · have hne : (other == p) = false := beq_eq_false_iff_ne.2 h
        simp [List.lookup_cons, hne, h]
    · rename_i hp
      rw [List.lookup_cons, List.lookup_cons, ih]
      by_cases h : other = p
      · subst h
        simp [hp]
      · have hne : (other == p) = false := beq_eq_false_iff_ne.2 h
        simp [hne]

@[simp] theorem node?_root (disk : Disk) : disk.node? [] = some .directory := rfl

/-- Of the places of a disk, only the one that is set gets another node. -/
theorem node?_set {disk : Disk} {place : Place} (hroot : place ≠ []) (node : Node) (other : Place) :
    (disk.set place node).node? other = if other = place then some node else disk.node? other := by
  unfold node? set
  by_cases hother : other = []
  · subst hother
    simp [Ne.symm hroot]
  · simp [hother, lookup_setEntry]

theorem fileAt?_eq_some {disk : Disk} {place : Place} {content : ByteArray} :
    disk.fileAt? place = some content ↔ disk.node? place = some (.file content) := by
  unfold fileAt?
  split <;> simp_all

theorem fileAt?_set_self {disk : Disk} {place : Place} (hroot : place ≠ []) (content : ByteArray) :
    (disk.set place (.file content)).fileAt? place = some content := by
  rw [fileAt?_eq_some, node?_set hroot, if_pos rfl]

theorem fileAt?_set_of_ne {disk : Disk} {place other : Place} (hroot : place ≠ []) (node : Node)
    (hne : other ≠ place) : (disk.set place node).fileAt? other = disk.fileAt? other := by
  unfold fileAt?
  rw [node?_set hroot, if_neg hne]

/-- A path finds a file if it leads to its place and does not end in a slash. -/
theorem find_eq_file_iff {disk : Disk} {path : Path} {content : ByteArray} :
    disk.find path = .ok (.file content) ↔
      path.endsInSlash = false ∧ ∃ place, disk.locate path = .ok place ∧ disk.fileAt? place = some content := by
  unfold find
  rw [bind_eq_ok_iff]
  constructor
  · rintro ⟨place, hplace, h⟩
    split at h
    · cases h
    · rename_i hnode
      split at h
      · cases h
      · cases h
        exact ⟨by simp_all, place, hplace, fileAt?_eq_some.2 hnode⟩
    · cases h
  · rintro ⟨hslash, place, hplace, h⟩
    refine ⟨place, hplace, ?_⟩
    rw [fileAt?_eq_some.1 h, hslash]
    rfl

/-! ## Frames -/

/-- What two disks have in common when nothing is taken away: the working directory, the directories, and that there
are files at the places where files were. -/
structure Keeps (old new : Disk) : Prop where
  home : new.home = old.home
  directory : ∀ place, old.node? place = some .directory → new.node? place = some .directory
  file : ∀ place, (old.fileAt? place).isSome → (new.fileAt? place).isSome

/-- Besides, only files to which one of the paths leads are new or have other bytes. -/
structure Frame (paths : List Path) (old new : Disk) : Prop extends Keeps old new where
  elsewhere : ∀ place, (∀ path ∈ paths, new.locate path ≠ .ok place) → new.fileAt? place = old.fileAt? place

variable {old new : Disk}

/-- Where no directory is gone, every way can still be gone. -/
theorem Keeps.locate_eq (h : Keeps old new) {path : Path} {place : Place} (hplace : old.locate path = .ok place) :
    new.locate path = .ok place := by
  have hstep : ∀ here component place, old.step here component = .ok place → new.step here component = .ok place := by
    intro here component place hold
    by_cases hroot : component = .root
    · subst hroot
      exact hold
    · have hnode := directory_of_step hroot hold
      unfold step at hold ⊢
      rw [h.directory here hnode]
      rw [hnode] at hold
      exact hold
  unfold locate at hplace ⊢
  rw [h.home]
  split at hplace
  · cases hplace
  · split at hplace
    · cases hplace
    · split at hplace
      · cases hplace
      · rename_i hnul hempty hlong
        rw [if_neg hnul, if_neg hempty, if_neg hlong]
        exact foldlM_eq_ok_of_forall hstep hplace

theorem Frame.refl (paths : List Path) (disk : Disk) : Frame paths disk disk where
  home := rfl
  directory := fun _ h => h
  file := fun _ h => h
  elsewhere := fun _ _ => rfl

/-- A frame over fewer paths is one over more. -/
theorem Frame.mono {paths more : List Path} (h : Frame paths old new) (hsub : paths ⊆ more) : Frame more old new where
  toKeeps := h.toKeeps
  elsewhere := fun place hplace => h.elsewhere place fun path hpath => hplace path (hsub hpath)

/-- **Frames one after the other.** -/
theorem Frame.trans {first second : List Path} {middle : Disk} (h : Frame first old middle)
    (h' : Frame second middle new) : Frame (first ++ second) old new where
  home := h'.home.trans h.home
  directory := fun place hplace => h'.directory place (h.directory place hplace)
  file := fun place hplace => h'.file place (h.file place hplace)
  elsewhere := by
    intro place hplace
    have hsecond : new.fileAt? place = middle.fileAt? place :=
      h'.elsewhere place fun path hpath => hplace path (List.mem_append_right _ hpath)
    -- what a path led to before the second run it leads to after it
    have hfirst : middle.fileAt? place = old.fileAt? place :=
      h.elsewhere place fun path hpath hmiddle =>
        hplace path (List.mem_append_left _ hpath) (h'.toKeeps.locate_eq hmiddle)
    rw [hsecond, hfirst]

/-! ## One step -/

/-- Setting a node takes nothing away if there was none, or if a file takes the place of a file. -/
theorem keeps_set {disk : Disk} {place : Place} {node : Node}
    (h : disk.node? place = none ∨ ∃ before after, disk.node? place = some (.file before) ∧ node = .file after) :
    Keeps disk (disk.set place node) := by
  have hroot : place ≠ [] := by
    rintro rfl
    simp at h
  refine ⟨rfl, fun other hother => ?_, fun other hother => ?_⟩
  · rw [node?_set hroot]
    split
    · rename_i heq
      subst heq
      rcases h with h | ⟨before, after, h, -⟩ <;> rw [h] at hother <;> cases hother
    · exact hother
  · by_cases heq : other = place
    · subst heq
      rcases h with h | ⟨before, after, -, rfl⟩
      · simp [fileAt?, h] at hother
      · rw [fileAt?_set_self hroot]
        rfl
    · rw [fileAt?_set_of_ne hroot node heq]
      exact hother

theorem frame_makeDirectory {disk made : Disk} {path : Path} (h : disk.makeDirectory path = .ok made) :
    Frame [] disk made := by
  unfold makeDirectory at h
  obtain ⟨place, -, h⟩ := bind_eq_ok_iff.1 h
  split at h
  · cases h
  · rename_i hnode
    cases h
    have hroot : place ≠ [] := by
      rintro rfl
      simp at hnode
    refine ⟨keeps_set (.inl hnode), fun other _ => ?_⟩
    by_cases heq : other = place
    · subst heq
      simp [fileAt?, node?_set hroot, hnode]
    · exact fileAt?_set_of_ne hroot _ heq

/-- **Writing a text** changes the file that the path leads to, which has that text then. -/
theorem frame_writeText {disk written : Disk} {path : Path} {text : String}
    (h : disk.writeText path text = .ok written) :
    Frame [path] disk written ∧ written.find path = .ok (.file text.toUTF8) := by
  unfold writeText at h
  obtain ⟨place, hplace, h⟩ := bind_eq_ok_iff.1 h
  have hcases : path.endsInSlash = false ∧ disk.set place (.file text.toUTF8) = written ∧
      disk.node? place ≠ some .directory := by
    split at h
    · cases h
    · rename_i hnode
      split at h
      · cases h
      · cases h
        exact ⟨by simp_all, rfl, hnode⟩
  obtain ⟨hslash, rfl, hnode⟩ := hcases
  have hroot : place ≠ [] := by
    rintro rfl
    exact hnode rfl
  have hkeeps : Keeps disk (disk.set place (.file text.toUTF8)) := by
    refine keeps_set ?_
    cases hold : disk.node? place with
    | none => exact .inl rfl
    | some node =>
      cases node with
      | directory => exact absurd hold hnode
      | file before => exact .inr ⟨before, _, rfl, rfl⟩
  have hlocate := hkeeps.locate_eq hplace
  refine ⟨⟨hkeeps, fun other hother => ?_⟩, find_eq_file_iff.2 ⟨hslash, place, hlocate, ?_⟩⟩
  · have hne : other ≠ place := by
      rintro rfl
      exact hother path List.mem_cons_self hlocate
    exact fileAt?_set_of_ne hroot _ hne
  · exact fileAt?_set_self hroot _

/-! ## Runs -/

theorem frame_ensureDirectory (disk : Disk) (path : Path) : Frame [] disk (disk.ensureDirectory path).1 := by
  unfold ensureDirectory
  split
  · rename_i hmade
    exact frame_makeDirectory hmade
  · exact Frame.refl [] disk

theorem frame_makeFrom (disk : Disk) : ∀ paths : List Path, Frame [] disk (disk.makeFrom paths).1
  | [] => Frame.refl [] disk
  | path :: above => by
    unfold makeFrom
    split
    · exact Frame.refl [] disk
    · split
      · have habove := frame_makeFrom disk above
        split
        · rename_i ready hready
          rw [hready] at habove
          exact habove.trans (frame_ensureDirectory ready path)
        · exact habove
      · exact frame_ensureDirectory disk path

theorem frame_makeParent (disk : Disk) (path : Path) : Frame [] disk (disk.makeParent path).1 := by
  unfold makeParent
  split
  · exact Frame.refl [] disk
  · exact frame_makeFrom disk _

/-- Writing a file has the frame of its path, and the file is there if nothing failed. -/
theorem frame_writeFile (disk : Disk) (path : Path) (content : String) :
    Frame [path] disk (disk.writeFile path content).1 ∧
      ((disk.writeFile path content).2 = .ok () →
        (disk.writeFile path content).1.find path = .ok (.file content.toUTF8)) := by
  have hparent := frame_makeParent disk path
  unfold writeFile
  split
  · rename_i ready error hready
    rw [hready] at hparent
    exact ⟨hparent.mono (List.nil_subset _), nofun⟩
  · rename_i ready hready
    rw [hready] at hparent
    split
    · exact ⟨hparent.mono (List.nil_subset _), nofun⟩
    · rename_i written hwritten
      obtain ⟨hframe, hfind⟩ := frame_writeText hwritten
      exact ⟨hparent.trans hframe, fun _ => hfind⟩

/-- **Every run of writes has the frame of its paths,** whether it comes to its end or not. -/
theorem frame_writeEach (disk : Disk) : ∀ writes : List (Path × String),
    Frame (writes.map Prod.fst) disk (disk.writeEach writes).1 := by
  intro writes
  induction writes generalizing disk with
  | nil => exact Frame.refl [] disk
  | cons write rest ih =>
    obtain ⟨path, content⟩ := write
    have hfirst := (frame_writeFile disk path content).1
    unfold writeEach
    split
    · rename_i written hwritten
      rw [hwritten] at hfirst
      exact hfirst.trans (ih written)
    · rename_i written error hwritten
      rw [hwritten] at hfirst
      exact hfirst.mono (by simp)

/-- Writes to the same place have the same text. -/
def Agree (writes : List (Path × String)) : Prop :=
  ∀ a ∈ writes, ∀ b ∈ writes, ∀ (disk : Disk) (place : Place),
    disk.locate a.1 = .ok place → disk.locate b.1 = .ok place → a.2 = b.2

/-- **After a run that comes to its end** every file is there with its text: a later write goes to another place, or it
writes the same. -/
theorem find_writeEach : ∀ {disk : Disk} {writes : List (Path × String)}, Agree writes →
    (disk.writeEach writes).2 = .ok () →
      ∀ write ∈ writes, (disk.writeEach writes).1.find write.1 = .ok (.file write.2.toUTF8) := by
  intro disk writes
  induction writes generalizing disk with
  | nil => intro _ _ write hwrite; cases hwrite
  | cons first rest ih =>
    obtain ⟨path, content⟩ := first
    intro hagree hok
    have hfile := (frame_writeFile disk path content).2
    unfold writeEach at hok ⊢
    split at hok
    · rename_i written hwritten
      rw [hwritten] at hfile
      have hrest := ih (fun a ha b hb => hagree a (.tail _ ha) b (.tail _ hb)) hok
      have hframe := frame_writeEach written rest
      refine List.forall_mem_cons.2 ⟨?_, hrest⟩
      obtain ⟨hslash, place, hplace, hcontent⟩ := find_eq_file_iff.1 (hfile rfl)
      have hlocate := hframe.toKeeps.locate_eq hplace
      refine find_eq_file_iff.2 ⟨hslash, place, hlocate, ?_⟩
      by_cases hlater : ∃ write ∈ rest, (written.writeEach rest).1.locate write.1 = .ok place
      · obtain ⟨write, hwrite, hsame⟩ := hlater
        obtain ⟨-, place', hplace', hcontent'⟩ := find_eq_file_iff.1 (hrest write hwrite)
        cases hsame.symm.trans hplace'
        rw [hcontent', hagree _ List.mem_cons_self write (.tail _ hwrite) _ _ hlocate hsame]
      · rw [hframe.elsewhere place, hcontent]
        intro other hother hsame
        obtain ⟨write, hwrite, rfl⟩ := List.mem_map.1 hother
        exact hlater ⟨write, hwrite, hsame⟩
    · cases hok

end TypeBindings.Disk
