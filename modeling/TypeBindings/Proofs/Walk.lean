import Mathlib.Data.List.Lex
import Mathlib.Data.List.Nodup
import Mathlib.Data.String.Basic
import TypeBindings.Proofs.DiskFrame
import TypeBindings.Proofs.Sorting

/-!
# Walks below a directory

On a disk that is a tree, the path of a place below a directory leads to that place, unless it is too long
(`Disk.IsTree.locate_enter`). A walk comes to all files below the directory (`Disk.IsTree.mem_filesBelow`), and where
the ways to two files part, it goes first to the name that comes first (`Disk.IsTree.pairwise_filesBelow`).
-/

namespace TypeBindings

/-! ## Paths of places -/

namespace Path

theorem isAbsolute_append {front : String} (hne : front ≠ "") (rest : String) :
    (Path.mk (front ++ rest)).isAbsolute = (Path.mk front).isAbsolute := by
  cases hcs : front.toList with
  | nil => exact absurd (String.toList_eq_nil_iff.1 hcs) hne
  | cons c cs => simp [isAbsolute, hcs]

section Segment

variable {name : String}

theorem IsSegment.not_endsInSlash_append (h : IsSegment name) (front : String) :
    (Path.mk (front ++ name)).endsInSlash = false := by
  unfold endsInSlash
  rw [beq_eq_false_iff_ne, String.toList_append]
  have hne : name.toList ≠ [] := fun hnil => h.notEmpty (String.toList_eq_nil_iff.1 hnil)
  rw [List.getLast?_append_of_ne_nil _ hne]
  exact fun hlast => h.noSlash (List.mem_of_getLast? hlast)

/-- A segment behind a path is its last part. -/
theorem exists_join_eq (p : Path) (h : IsSegment name) : ∃ front, p.join ⟨name⟩ = ⟨front ++ name⟩ := by
  unfold join
  rw [h.not_isAbsolute, Bool.false_or]
  split
  · exact ⟨"", congrArg Path.mk String.empty_append.symm⟩
  · split
    · exact ⟨p.text, rfl⟩
    · exact ⟨p.text ++ "/", rfl⟩

theorem not_endsInSlash_join (p : Path) (h : IsSegment name) : (p.join ⟨name⟩).endsInSlash = false := by
  obtain ⟨front, hfront⟩ := p.exists_join_eq h
  rw [hfront]
  exact h.not_endsInSlash_append front

/-- Two names one after the other. -/
theorem join_slash (p : Path) (h : IsSegment name) {rest : String} (hrest : (Path.mk rest).isAbsolute = false) :
    p.join ⟨name ++ "/" ++ rest⟩ = (p.join ⟨name⟩).join ⟨rest⟩ := by
  have hname : (Path.mk (name ++ "/" ++ rest)).isAbsolute = false := by
    rw [String.append_assoc, isAbsolute_append h.notEmpty, h.not_isAbsolute]
  have hslash := p.not_endsInSlash_join h
  have hempty : (p.join ⟨name⟩).text.isEmpty = false := by
    obtain ⟨front, hfront⟩ := p.exists_join_eq h
    rw [hfront, ← Bool.not_eq_true, String.isEmpty_iff]
    intro happend
    have hlist := congrArg String.toList happend
    rw [String.toList_append] at hlist
    exact h.notEmpty (String.toList_eq_nil_iff.1 (List.append_eq_nil_iff.1 hlist).2)
  rw [join, hname, join, hrest, hempty, hslash, join, h.not_isAbsolute]
  simp only [Bool.false_or, Bool.false_eq_true, if_false]
  split
  · rfl
  · split
    · simp [String.append_assoc]
    · simp [String.append_assoc]

end Segment

section Enter

theorem not_isAbsolute_joinWith : ∀ {place : Place}, place ≠ [] → (∀ name ∈ place, IsSegment name) →
    (Path.mk (Text.joinWith "/" place)).isAbsolute = false
  | [], hne, _ => absurd rfl hne
  | [_], _, h => (h _ List.mem_cons_self).not_isAbsolute
  | name :: next :: rest, _, h => by
    have hname := h name List.mem_cons_self
    have hcons : Text.joinWith "/" (name :: next :: rest) = name ++ ("/" ++ Text.joinWith "/" (next :: rest)) :=
      String.append_assoc
    rw [hcons, isAbsolute_append hname.notEmpty, hname.not_isAbsolute]

theorem enter_cons (p : Path) {name next : String} {rest : List String}
    (h : ∀ segment ∈ name :: next :: rest, IsSegment segment) :
    p.enter (name :: next :: rest) = (p.join ⟨name⟩).enter (next :: rest) := by
  obtain ⟨hname, hrest⟩ := List.forall_mem_cons.1 h
  exact p.join_slash hname (not_isAbsolute_joinWith (List.cons_ne_nil _ _) hrest)

/-- **Going along the path of a place** is going to the directory and then from name to name. -/
theorem steps_enter : ∀ (p : Path) {place : Place}, place ≠ [] → (∀ name ∈ place, IsSegment name) →
    (p.enter place).steps = p.steps ++ place.map Component.name
  | _, [], hne, _ => absurd rfl hne
  | p, [_], _, h => p.steps_join (h _ List.mem_cons_self)
  | p, name :: next :: rest, _, h => by
    rw [enter_cons p h, steps_enter _ (List.cons_ne_nil _ _) fun segment hsegment => h segment (.tail _ hsegment),
      steps_join _ (h name List.mem_cons_self), List.append_assoc]
    rfl

theorem not_endsInSlash_enter : ∀ (p : Path) {place : Place}, place ≠ [] → (∀ name ∈ place, IsSegment name) →
    (p.enter place).endsInSlash = false
  | _, [], hne, _ => absurd rfl hne
  | p, [_], _, h => p.not_endsInSlash_join (h _ List.mem_cons_self)
  | p, name :: next :: rest, _, h => by
    rw [enter_cons p h]
    exact not_endsInSlash_enter _ (List.cons_ne_nil _ _) fun segment hsegment => h segment (.tail _ hsegment)

theorem mem_of_mem_joinSlash {place : Place} {c : Char} (h : c ∈ (Text.joinWith "/" place).toList) :
    c = '/' ∨ ∃ name ∈ place, c ∈ name.toList :=
  (Text.mem_of_mem_joinWith h).imp_left List.mem_singleton.1

/-- Every character of the path of a place comes from the directory or from a name, or it is a slash. -/
theorem mem_of_mem_enter {p : Path} {place : Place} {c : Char} (h : c ∈ (p.enter place).text.toList) :
    c ∈ p.text.toList ∨ c = '/' ∨ ∃ name ∈ place, c ∈ name.toList := by
  unfold enter join at h
  split at h
  · exact .inr (mem_of_mem_joinSlash h)
  · split at h
    · rw [String.toList_append, List.mem_append] at h
      exact h.imp_right mem_of_mem_joinSlash
    · rw [String.toList_append, String.toList_append, List.mem_append, List.mem_append] at h
      rcases h with (h | h) | h
      · exact .inl h
      · exact .inr (.inl (List.mem_singleton.1 h))
      · exact .inr (mem_of_mem_joinSlash h)

end Enter

end Path

/-! ## The order of a walk -/

/-- Where the ways to two places part, the first goes to the name that comes first. -/
def Place.WalkedBefore (a b : Place) : Prop :=
  ∃ common x y restA restB, a = common ++ x :: restA ∧ b = common ++ y :: restB ∧ x < y

theorem Place.walkedBefore_of_lt : ∀ {a b : Place}, a < b → ¬ a <+: b → WalkedBefore a b
  | [], _, _, hprefix => absurd List.nil_prefix hprefix
  | _ :: _, [], hlt, _ => by cases hlt
  | x :: a, y :: b, hlt, hprefix => by
    rcases List.cons_lt_cons_iff.1 hlt with hxy | ⟨rfl, hab⟩
    · exact ⟨[], x, y, a, b, rfl, rfl, hxy⟩
    · obtain ⟨common, x', y', restA, restB, rfl, rfl, hlt'⟩ :=
        walkedBefore_of_lt hab fun h => hprefix (List.cons_prefix_cons.2 ⟨rfl, h⟩)
      exact ⟨x :: common, x', y', restA, restB, rfl, rfl, hlt'⟩

/-! ## Trees -/

/-- A text that can be the name of a file or a directory. -/
@[mk_iff] structure Path.IsEntryName (name : String) : Prop extends IsSegment name where
  noNul : '\x00' ∉ name.toList
  short : name.utf8ByteSize ≤ Disk.maxNameBytes

instance (name : String) : Decidable (Path.IsEntryName name) :=
  decidable_of_iff _ (Path.isEntryName_iff name).symm

namespace Disk

/-- A disk of files and directories, each in a directory and under a name of its own. -/
structure IsTree (disk : Disk) : Prop where
  distinct : (disk.entries.map Prod.fst).Nodup
  notRoot : ∀ entry ∈ disk.entries, entry.1 ≠ []
  inside : ∀ entry ∈ disk.entries, disk.node? entry.1.dropLast = some .directory
  named : ∀ entry ∈ disk.entries, ∀ name ∈ entry.1, Path.IsEntryName name

theorem mem_entries_of_node? {disk : Disk} {place : Place} {node : Node} (hne : place ≠ [])
    (h : disk.node? place = some node) : (place, node) ∈ disk.entries := by
  unfold node? at h
  rw [if_neg hne, List.lookup_eq_some_iff] at h
  obtain ⟨before, after, hentries, -⟩ := h
  rw [hentries]
  exact List.mem_append_right _ List.mem_cons_self

namespace IsTree

variable {disk : Disk} (h : disk.IsTree)

include h

/-- The entries of a tree are what stands at its places. -/
theorem node?_of_mem {place : Place} {node : Node} (hmem : (place, node) ∈ disk.entries) :
    disk.node? place = some node := by
  obtain ⟨before, after, hentries⟩ := List.append_of_mem hmem
  unfold node?
  rw [if_neg (h.notRoot _ hmem), List.lookup_eq_some_iff]
  refine ⟨before, after, hentries, fun entry hentry => ?_⟩
  have hdistinct := h.distinct
  rw [hentries, List.map_append, List.map_cons, List.nodup_append] at hdistinct
  rw [bne_iff_ne]
  exact (hdistinct.2.2 entry.1 (List.mem_map_of_mem hentry) place List.mem_cons_self).symm

theorem named_of_node? {place : Place} {node : Node} (hnode : disk.node? place = some node) {name : String}
    (hname : name ∈ place) : Path.IsEntryName name :=
  h.named _ (mem_entries_of_node? (List.ne_nil_of_mem hname) hnode) name hname

/-- What stands below a place stands in a directory. -/
theorem directory_of_append {outer : Place} : ∀ {inner : Place} {node : Node}, inner ≠ [] →
    disk.node? (outer ++ inner) = some node → disk.node? outer = some .directory := by
  intro inner
  induction inner using List.reverseRecOn with
  | nil => exact fun hne => absurd rfl hne
  | append_singleton front name ih =>
    intro node _ hnode
    have hmem := mem_entries_of_node? (by simp) hnode
    have hparent : disk.node? (outer ++ front) = some .directory := by
      simpa [← List.append_assoc] using h.inside _ hmem
    by_cases hfront : front = []
    · rwa [hfront, List.append_nil] at hparent
    · exact ih hfront hparent

/-- **From name to name** one comes to what stands below a place. -/
theorem foldlM_names : ∀ {place here : Place} {node : Node}, disk.node? (here ++ place) = some node →
    (place.map Path.Component.name).foldlM disk.step here = .ok (here ++ place)
  | [], here, _, _ => by
    rw [List.append_nil]
    rfl
  | name :: rest, here, node, hnode => by
    have hdirectory := h.directory_of_append (List.cons_ne_nil _ _) hnode
    have hshort := (h.named_of_node? hnode (List.mem_append_right _ List.mem_cons_self)).short
    have hstep : disk.step here (.name name) = .ok (here ++ [name]) := by
      unfold step
      simp only [hdirectory, if_neg (Nat.not_lt.2 hshort)]
    have happend : here ++ name :: rest = here ++ [name] ++ rest := by simp
    rw [happend] at hnode ⊢
    rw [List.map_cons, List.foldlM_cons, hstep]
    exact foldlM_names hnode

omit h in
theorem not_nul_of_locate {path : Path} {place : Place} (hplace : disk.locate path = .ok place) :
    '\x00' ∉ path.text.toList := by
  intro hnul
  unfold locate at hplace
  rw [if_pos (by simpa using hnul)] at hplace
  cases hplace

variable {path : Path} {directory place : Place} {node : Node}

/-- **The path of a place leads to it,** unless it is too long. -/
theorem locate_enter (hplace : disk.locate path = .ok directory) (hne : place ≠ [])
    (hnode : disk.node? (directory ++ place) = some node) :
    disk.locate (path.enter place) =
      if maxPathBytes < (path.enter place).text.utf8ByteSize then .error .tooLong else .ok (directory ++ place) := by
  have hnamed : ∀ name ∈ place, Path.IsEntryName name := fun name hname =>
    h.named_of_node? hnode (List.mem_append_right _ hname)
  have hsteps := path.steps_enter hne fun name hname => (hnamed name hname).toIsSegment
  have hnul : ¬ (path.enter place).text.toList.contains '\x00' = true := by
    rw [List.contains_iff_mem]
    intro hmem
    rcases Path.mem_of_mem_enter hmem with hmem | hmem | ⟨name, hname, hmem⟩
    · exact not_nul_of_locate hplace hmem
    · exact absurd hmem (by decide)
    · exact (hnamed name hname).noNul hmem
  have hempty : ¬ (path.enter place).text.isEmpty = true := by
    intro hempty
    have hnone : (path.enter place).steps = [] := by
      unfold Path.steps Path.segments Path.isAbsolute
      rw [String.isEmpty_iff.1 hempty]
      rfl
    rw [hsteps] at hnone
    exact hne (List.map_eq_nil_iff.1 (List.append_eq_nil_iff.1 hnone).2)
  unfold locate
  rw [if_neg hnul, if_neg hempty, hsteps, List.foldlM_append, foldlM_of_locate hplace]
  split
  · rfl
  · exact h.foldlM_names hnode

/-- What a path of a place finds, if it is not too long. -/
theorem find_enter (hplace : disk.locate path = .ok directory) (hne : place ≠ [])
    (hnode : disk.node? (directory ++ place) = some node)
    (hshort : (path.enter place).text.utf8ByteSize ≤ maxPathBytes) : disk.find (path.enter place) = .ok node := by
  have hslash : (path.enter place).endsInSlash = false := path.not_endsInSlash_enter hne fun name hname =>
    (h.named_of_node? hnode (List.mem_append_right _ hname)).toIsSegment
  have hlocate := h.locate_enter hplace hne hnode
  rw [if_neg (Nat.not_lt.2 hshort)] at hlocate
  unfold find
  rw [bind_eq_ok_iff]
  refine ⟨directory ++ place, hlocate, ?_⟩
  rw [hnode, hslash]
  cases node <;> rfl

/-- The path of a file is not that of a directory. -/
theorem isDirectory_enter (hplace : disk.locate path = .ok directory) (hne : place ≠ []) {content : ByteArray}
    (hfile : disk.fileAt? (directory ++ place) = some content) : disk.isDirectory (path.enter place) = false := by
  have hnode := fileAt?_eq_some.1 hfile
  by_cases hshort : (path.enter place).text.utf8ByteSize ≤ maxPathBytes
  · unfold isDirectory
    rw [h.find_enter hplace hne hnode hshort]
  · have hlocate := h.locate_enter hplace hne hnode
    rw [if_pos (Nat.not_le.1 hshort)] at hlocate
    unfold isDirectory find
    rw [hlocate]
    rfl

/-! ## The files of a walk -/

theorem mem_filesBelow : place ∈ disk.filesBelow directory ↔ (disk.fileAt? (directory ++ place)).isSome := by
  unfold filesBelow
  rw [mem_sortBy, List.mem_filterMap, Option.isSome_iff_exists]
  simp only [fileAt?_eq_some]
  constructor
  · rintro ⟨⟨whole, node⟩, hmem, hsome⟩
    cases node with
    | directory => cases hsome
    | file content =>
      simp only [List.isPrefixOf_iff_prefix, Option.ite_none_right_eq_some, Option.some.injEq] at hsome
      obtain ⟨⟨rest, rfl⟩, hrest⟩ := hsome
      rw [List.drop_left] at hrest
      exact ⟨content, hrest ▸ h.node?_of_mem hmem⟩
  · rintro ⟨content, hnode⟩
    have hroot : directory ++ place ≠ [] := by
      intro hroot
      rw [hroot] at hnode
      cases hnode
    exact ⟨_, mem_entries_of_node? hroot hnode, by simp⟩

theorem nodup_filesBelow (directory : Place) : (disk.filesBelow directory).Nodup := by
  unfold filesBelow
  rw [(sortBy_perm _).nodup_iff]
  -- put behind the directory again, the places are among those of the entries
  refine List.Nodup.of_map (directory ++ ·) (h.distinct.sublist ?_)
  induction disk.entries with
  | nil => exact List.nil_sublist _
  | cons entry rest ih =>
    obtain ⟨whole, node⟩ := entry
    cases node with
    | directory => exact ih.cons _
    | file content =>
      by_cases hbelow : directory <+: whole
      · obtain ⟨inner, rfl⟩ := hbelow
        simpa using ih
      · simpa [hbelow] using ih.cons whole

/-- Of two files of a tree, neither is below the other. -/
theorem not_prefix_of_file {a b : Place} (ha : (disk.fileAt? (directory ++ a)).isSome)
    (hb : (disk.fileAt? (directory ++ b)).isSome) (hne : a ≠ b) : ¬ a <+: b := by
  rintro ⟨inner, rfl⟩
  obtain ⟨content, ha⟩ := Option.isSome_iff_exists.1 ha
  obtain ⟨content', hb⟩ := Option.isSome_iff_exists.1 hb
  rw [fileAt?_eq_some] at ha hb
  rw [← List.append_assoc] at hb
  have hinner : inner ≠ [] := by
    rintro rfl
    exact hne (List.append_nil a).symm
  cases ha.symm.trans (h.directory_of_append hinner hb)

/-- **The files below a directory are in the order of a walk.** -/
theorem pairwise_filesBelow (directory : Place) : (disk.filesBelow directory).Pairwise Place.WalkedBefore := by
  have hsorted : (disk.filesBelow directory).Pairwise fun a b => (!decide (b < a)) = true := by
    refine pairwise_sortBy_of_order (fun a b => ?_) (fun a b c hab hbc => ?_) _
    · simpa using le_total a b
    · simp only [Bool.not_eq_true', decide_eq_false_iff_not, not_lt] at *
      exact hab.trans hbc
  have hordered : (disk.filesBelow directory).Pairwise fun a b => a < b := by
    refine hsorted.imp₂ (fun a b hle hne => ?_) (h.nodup_filesBelow directory)
    simp only [Bool.not_eq_true', decide_eq_false_iff_not, not_lt] at hle
    exact lt_of_le_of_ne hle hne
  refine hordered.imp_of_mem fun {a b} ha hb hlt => Place.walkedBefore_of_lt hlt ?_
  exact h.not_prefix_of_file (h.mem_filesBelow.1 ha) (h.mem_filesBelow.1 hb) hlt.ne

end IsTree

end Disk

end TypeBindings
