import Mathlib.Data.List.Basic
import Mathlib.Data.List.Nodup
import TypeBindings.NameIndex
import TypeBindings.Proofs.Sorting

/-!
# What a name index knows

`IsIndexOf names entries` says that the entries are those of the names of a list: each name once, with all its places in
ascending order. It does not say in which order the entries stand. Noting one more name keeps it (`IsIndexOf.note`), so
it holds of the index of a type system (`isIndexOf_ofSystem`). From it follow the answers of the index: a name is known
if it is defined (`contains_iff`), its place is that of its first definition (`place?_eq_findIdx?`), and the repeated
names come in the order of their first definitions whatever the order of the entries (`duplicates_eq_of_perm`). So in
whatever order the entries are listed, the index answers as a search through the definitions does (`index_hides_order`).
-/

namespace TypeBindings

/-- The names of the definitions of a type system, in order. -/
def TypeSystem.names (s : TypeSystem) : List String :=
  s.definitions.map Definition.name

namespace NameIndex

variable {names : List String} {entries : List NameEntry}

theorem mem_idxsOf {name : String} {i : Nat} : i ∈ names.idxsOf name ↔ names[i]? = some name := by
  rw [List.mem_idxsOf_iff_getElem_sub_pos, List.getElem?_eq_some_iff]
  simp

/-! ## Building the index -/

/-- Entries for the names of a list, each with all its places in ascending order. -/
structure IsIndexOf (names : List String) (entries : List NameEntry) : Prop where
  nodup : (entries.map NameEntry.name).Nodup
  places : ∀ entry ∈ entries, entry.places = names.idxsOf entry.name
  complete : ∀ name ∈ names, name ∈ entries.map NameEntry.name

theorem isIndexOf_nil : IsIndexOf [] [] where
  nodup := List.nodup_nil
  places := nofun
  complete := nofun

theorem note_of_not_mem {name : String} (place : Nat) : ∀ {entries : List NameEntry},
    name ∉ entries.map NameEntry.name → note name place entries = entries ++ [⟨name, place, []⟩]
  | [], _ => rfl
  | entry :: rest, h => by
    rw [List.map_cons, List.mem_cons, not_or] at h
    rw [note, if_neg (Ne.symm h.1), note_of_not_mem place h.2, List.cons_append]

/-- A name that is there gets one more place. -/
theorem note_of_mem {name : String} (place : Nat) : ∀ {entries : List NameEntry},
    name ∈ entries.map NameEntry.name → ∃ before entry after, entries = before ++ entry :: after ∧ entry.name = name ∧
      note name place entries = before ++ { entry with others := entry.others ++ [place] } :: after
  | [], h => by cases h
  | entry :: rest, h => by
    by_cases hname : entry.name = name
    · exact ⟨[], entry, rest, rfl, hname, by rw [note, if_pos hname, List.nil_append]⟩
    · have hrest : name ∈ rest.map NameEntry.name := (List.mem_cons.1 h).resolve_left fun heq => hname heq.symm
      obtain ⟨before, found, after, hsplit, hfound, hnote⟩ := note_of_mem place hrest
      refine ⟨entry :: before, found, after, by rw [hsplit, List.cons_append], hfound, ?_⟩
      rw [note, if_neg hname, hnote, List.cons_append]

theorem idxsOf_append_singleton (names : List String) (name other : String) :
    (names ++ [name]).idxsOf other = names.idxsOf other ++ if name = other then [names.length] else [] := by
  rw [List.idxsOf_append]
  simp [List.idxsOf_cons]

/-- **Noting the next name** gives the entries of one name more. -/
theorem IsIndexOf.note (h : IsIndexOf names entries) (name : String) :
    IsIndexOf (names ++ [name]) (note name names.length entries) := by
  by_cases hmem : name ∈ entries.map NameEntry.name
  · obtain ⟨before, entry, after, rfl, rfl, hnote⟩ := note_of_mem names.length hmem
    have hsame : (NameIndex.note entry.name names.length (before ++ entry :: after)).map NameEntry.name =
        (before ++ entry :: after).map NameEntry.name := by
      rw [hnote]
      simp
    refine ⟨hsame ▸ h.nodup, fun other hother => ?_, fun other hother => ?_⟩
    · rw [idxsOf_append_singleton]
      rw [hnote] at hother
      have hothers : other ∈ before ++ after ∨ other = { entry with others := entry.others ++ [names.length] } := by
        simp only [List.mem_append, List.mem_cons] at hother ⊢
        tauto
      rcases hothers with hother | rfl
      · have hne : entry.name ≠ other.name := by
          have hnodup := h.nodup
          simp only [List.map_append, List.map_cons, List.nodup_middle, List.nodup_cons] at hnodup
          rw [← List.map_append] at hnodup
          intro heq
          exact hnodup.1 (heq ▸ List.mem_map_of_mem hother)
        rw [if_neg hne, List.append_nil]
        refine h.places other ?_
        simp only [List.mem_append, List.mem_cons] at hother ⊢
        tauto
      · have hentry := h.places entry (by simp)
        rw [if_pos rfl, ← hentry]
        rfl
    · rw [hsame]
      rcases List.mem_append.1 hother with hother | hother
      · exact h.complete other hother
      · rw [List.mem_singleton.1 hother]
        exact hmem
  · have hnew : names.idxsOf name = [] := by
      refine List.eq_nil_iff_forall_not_mem.2 fun i hi => hmem (h.complete name ?_)
      exact List.mem_of_getElem? (mem_idxsOf.1 hi)
    rw [note_of_not_mem names.length hmem]
    refine ⟨?_, fun other hother => ?_, fun other hother => ?_⟩
    · rw [List.map_append, List.nodup_append]
      refine ⟨h.nodup, List.nodup_singleton _, fun a ha b hb hab => hmem ?_⟩
      have hname : a = name := hab.trans (List.mem_singleton.1 hb)
      exact hname ▸ ha
    · rw [idxsOf_append_singleton]
      rcases List.mem_append.1 hother with hother | hother
      · have hne : name ≠ other.name := fun heq => hmem (heq ▸ List.mem_map_of_mem hother)
        rw [if_neg hne, List.append_nil]
        exact h.places other hother
      · cases List.mem_singleton.1 hother
        rw [if_pos rfl, hnew]
        rfl
    · rw [List.map_append, List.mem_append]
      rcases List.mem_append.1 hother with hother | hother
      · exact .inl (h.complete other hother)
      · exact .inr hother

theorem IsIndexOf.foldl : ∀ (definitions : List Definition) {names : List String} {entries : List NameEntry},
    IsIndexOf names entries → IsIndexOf (names ++ definitions.map Definition.name)
      ((definitions.zipIdx names.length).foldl (fun entries (d, place) => NameIndex.note d.name place entries) entries)
  | [], _, _, h => by
    rw [List.map_nil, List.append_nil]
    exact h
  | d :: rest, names, entries, h => by
    have hrest := IsIndexOf.foldl rest (h.note d.name)
    rw [List.length_append, List.length_singleton, List.append_assoc, List.singleton_append] at hrest
    exact hrest

/-- **The index of a type system** has the names of its definitions. -/
theorem isIndexOf_ofSystem (s : TypeSystem) : IsIndexOf s.names (ofSystem s).entries :=
  isIndexOf_nil.foldl s.definitions

/-! ## Its answers -/

/-- The first place of an entry is that of the first definition of its name, and the others are those of the later
ones. -/
theorem IsIndexOf.places_spec (h : IsIndexOf names entries) {entry : NameEntry} (hentry : entry ∈ entries) :
    names[entry.first]? = some entry.name ∧ (∀ i < entry.first, names[i]? ≠ some entry.name) ∧
      (∀ i, i ∈ entry.others ↔ entry.first < i ∧ names[i]? = some entry.name) ∧ entry.others.Pairwise (· < ·) := by
  have hplaces : entry.first :: entry.others = names.idxsOf entry.name := h.places entry hentry
  have hsorted : (entry.first :: entry.others).Pairwise (· < ·) := hplaces ▸ List.pairwise_findIdxs
  have hmem : ∀ i, i = entry.first ∨ i ∈ entry.others ↔ names[i]? = some entry.name := by
    intro i
    rw [← mem_idxsOf, ← hplaces, List.mem_cons]
  obtain ⟨hfirst, hothers⟩ := List.pairwise_cons.1 hsorted
  refine ⟨(hmem _).1 (.inl rfl), fun i hi hname => ?_, fun i => ⟨fun hi => ?_, fun hi => ?_⟩, hothers⟩
  · rcases (hmem i).2 hname with rfl | hother
    · omega
    · have := hfirst i hother
      omega
  · exact ⟨hfirst i hi, (hmem i).1 (.inr hi)⟩
  · rcases (hmem i).2 hi.2 with rfl | hother
    · omega
    · exact hother

theorem IsIndexOf.mem_names_iff (h : IsIndexOf names entries) {name : String} :
    name ∈ entries.map NameEntry.name ↔ name ∈ names := by
  refine ⟨fun hname => ?_, h.complete name⟩
  obtain ⟨entry, hentry, rfl⟩ := List.mem_map.1 hname
  exact List.mem_of_getElem? (h.places_spec hentry).1

/-- The entries may stand in any order. -/
theorem IsIndexOf.perm (h : IsIndexOf names entries) {others : List NameEntry} (hperm : others.Perm entries) :
    IsIndexOf names others where
  nodup := (hperm.map NameEntry.name).nodup_iff.2 h.nodup
  places entry hentry := h.places entry (hperm.mem_iff.1 hentry)
  complete name hname := (hperm.map NameEntry.name).mem_iff.2 (h.complete name hname)

/-- A name is in the index if it is defined. -/
theorem IsIndexOf.contains_iff {index : NameIndex} (h : IsIndexOf names index.entries) {name : String} :
    index.contains name = true ↔ name ∈ names := by
  rw [← h.mem_names_iff, contains, List.any_eq_true, List.mem_map]
  simp

theorem contains_iff (s : TypeSystem) {name : String} : (ofSystem s).contains name = true ↔ name ∈ s.names :=
  (isIndexOf_ofSystem s).contains_iff

/-- **The place of a name is that of its first definition.** -/
theorem IsIndexOf.place?_eq_findIdx? {index : NameIndex} (h : IsIndexOf names index.entries) (name : String) :
    index.place? name = names.findIdx? (· = name) := by
  unfold place? entry?
  cases hentry : index.entries.find? (·.name = name) with
  | none =>
    -- without an entry nothing has the name
    have hnot : name ∉ names := by
      rw [← h.mem_names_iff, List.mem_map]
      rintro ⟨entry, hmem, hname⟩
      exact absurd hname (by simpa using List.find?_eq_none.1 hentry entry hmem)
    symm
    rw [Option.map_none, List.findIdx?_eq_none_iff]
    intro other hother
    rw [decide_eq_false_iff_not]
    rintro rfl
    exact hnot hother
  | some entry =>
    have hname : entry.name = name := by simpa using List.find?_some hentry
    obtain ⟨hfirst, hbefore, -⟩ := h.places_spec (List.mem_of_find?_eq_some hentry)
    subst hname
    obtain ⟨hlt, hget⟩ := List.getElem?_eq_some_iff.1 hfirst
    symm
    rw [Option.map_some, List.findIdx?_eq_some_iff_getElem]
    refine ⟨hlt, by simpa using hget, fun i hi hi' => hbefore i hi ?_⟩
    rw [List.getElem?_eq_getElem (by omega)]
    simpa using hi'

theorem IsIndexOf.place?_eq_index? {s : TypeSystem} {index : NameIndex} (h : IsIndexOf s.names index.entries)
    (name : String) : index.place? name = s.index? name := by
  rw [h.place?_eq_findIdx?, TypeSystem.names, List.findIdx?_map]
  rfl

/-- **A name stands for the first definition of that name.** -/
theorem IsIndexOf.resolve?_eq_find? {s : TypeSystem} {index : NameIndex} (h : IsIndexOf s.names index.entries)
    (name : String) : index.resolve? s name = s.find? name := by
  rw [resolve?, h.place?_eq_index?, TypeSystem.index?, TypeSystem.find?, List.find?_eq_bind_findIdx?_getElem?]

theorem resolve?_eq_find? (s : TypeSystem) (name : String) : (ofSystem s).resolve? s name = s.find? name :=
  (isIndexOf_ofSystem s).resolve?_eq_find? name

/-! ## Repeated names -/

theorem mem_duplicates {index : NameIndex} {entry : NameEntry} :
    entry ∈ index.duplicates ↔ entry ∈ index.entries ∧ entry.isRepeated = true := by
  rw [duplicates, mem_sortBy, List.mem_filter]

/-- Different names have different first places. -/
theorem IsIndexOf.nodup_first (h : IsIndexOf names entries) : (entries.map NameEntry.first).Nodup := by
  have hinj : ∀ a ∈ entries, ∀ b ∈ entries, a.first = b.first → a = b := by
    intro a ha b hb hab
    have hname : some a.name = some b.name := by
      rw [← (h.places_spec ha).1, ← (h.places_spec hb).1, hab]
    exact List.inj_on_of_nodup_map h.nodup ha hb (Option.some.inj hname)
  exact (List.nodup_map_iff_inj_on h.nodup.of_map).2 hinj

theorem IsIndexOf.nodup_first_repeated (h : IsIndexOf names entries) :
    ((entries.filter NameEntry.isRepeated).map NameEntry.first).Nodup :=
  (List.filter_sublist.map _).nodup h.nodup_first

/-- The repeated names come in the order of their first definitions. -/
theorem pairwise_duplicates {index : NameIndex} (h : IsIndexOf names index.entries) :
    index.duplicates.Pairwise fun a b => a.first < b.first :=
  pairwise_lt_sortBy h.nodup_first_repeated

/-- **The order of the entries does not show.** -/
theorem duplicates_eq_of_perm {index index' : NameIndex} (h : IsIndexOf names index.entries)
    (hperm : index'.entries.Perm index.entries) : index'.duplicates = index.duplicates :=
  (sortBy_eq_of_perm h.nodup_first_repeated (hperm.symm.filter _)).symm

/-- An entry is repeated if its name is defined twice or more. -/
theorem IsIndexOf.isRepeated_iff (h : IsIndexOf names entries) {entry : NameEntry} (hentry : entry ∈ entries) :
    entry.isRepeated = true ↔ 2 ≤ names.count entry.name := by
  have hlength : names.count entry.name = entry.others.length + 1 := by
    rw [← List.length_idxsOf, ← h.places entry hentry, NameEntry.places, List.length_cons]
  rw [hlength, NameEntry.isRepeated]
  cases entry.others with
  | nil => simp
  | cons place others => simp

theorem IsIndexOf.mem_names_duplicates_iff {index : NameIndex} (h : IsIndexOf names index.entries) {name : String} :
    name ∈ index.duplicates.map NameEntry.name ↔ 2 ≤ names.count name := by
  rw [List.mem_map]
  constructor
  · rintro ⟨entry, hentry, rfl⟩
    obtain ⟨hmem, hrepeated⟩ := mem_duplicates.1 hentry
    exact (h.isRepeated_iff hmem).1 hrepeated
  · intro hcount
    have hname : name ∈ names := List.count_pos_iff.1 (by omega)
    obtain ⟨entry, hentry, rfl⟩ := List.mem_map.1 (h.complete name hname)
    exact ⟨entry, mem_duplicates.2 ⟨hentry, (h.isRepeated_iff hentry).2 hcount⟩, rfl⟩

theorem IsIndexOf.nodup_names_duplicates {index : NameIndex} (h : IsIndexOf names index.entries) :
    (index.duplicates.map NameEntry.name).Nodup := by
  have hperm : (index.duplicates.map NameEntry.name).Perm
      ((index.entries.filter NameEntry.isRepeated).map NameEntry.name) := (sortBy_perm _).map _
  exact hperm.nodup_iff.2 ((List.filter_sublist.map _).nodup h.nodup)

/-- **The index agrees with a search, and the order of its entries does not show.** In whatever order the entries are
listed, a name stands for its first definition, at the same place, and is known if some definition has it; and the
repeated names are the same list: each one once, with all places of its definitions in ascending order, by the place of
the first. -/
theorem index_hides_order (s : TypeSystem) (index : NameIndex) (hperm : index.entries.Perm (ofSystem s).entries) :
    (∀ name, index.resolve? s name = s.find? name ∧ index.place? name = s.index? name ∧
      (index.contains name = true ↔ ∃ d ∈ s.definitions, d.name = name)) ∧
    index.duplicates = (ofSystem s).duplicates ∧
    (index.duplicates.map NameEntry.name).Nodup ∧
    (∀ name, name ∈ index.duplicates.map NameEntry.name ↔ 2 ≤ s.names.count name) ∧
    (∀ entry ∈ index.duplicates, entry.places.Pairwise (· < ·) ∧
      ∀ i, i ∈ entry.places ↔ ∃ d, s.definitions[i]? = some d ∧ d.name = entry.name) ∧
    index.duplicates.Pairwise fun a b => a.first < b.first := by
  have hsystem := isIndexOf_ofSystem s
  have hindex := hsystem.perm hperm
  refine ⟨fun name => ⟨hindex.resolve?_eq_find? name, hindex.place?_eq_index? name, ?_⟩,
    duplicates_eq_of_perm hsystem hperm, hindex.nodup_names_duplicates, fun name => hindex.mem_names_duplicates_iff,
    fun entry hentry => ?_, pairwise_duplicates hindex⟩
  · rw [hindex.contains_iff, TypeSystem.names, List.mem_map]
  · have hplaces := hindex.places entry (mem_duplicates.1 hentry).1
    rw [hplaces]
    refine ⟨List.pairwise_idxsOf, fun i => ?_⟩
    rw [mem_idxsOf, TypeSystem.names, List.getElem?_map, Option.map_eq_some_iff]

/-- Two names that are defined in turns, one of them three times. -/
def alternating : TypeSystem where
  package := none
  definitions := [.record "B" [], .enumeration "A" [], .union "B" [], .record "C" [], .record "A" [], .record "B" []]

/-- The entries of that system, not in the order of the definitions. -/
def shuffled : NameIndex := ⟨[⟨"C", 3, []⟩, ⟨"A", 1, [4]⟩, ⟨"B", 0, [2, 5]⟩]⟩

theorem index_hides_order_shuffled :
    shuffled.entries.Perm (ofSystem alternating).entries ∧ shuffled.resolve? alternating "A" = some (.enumeration "A" []) ∧
      shuffled.contains "D" = false ∧ shuffled.duplicates = [⟨"B", 0, [2, 5]⟩, ⟨"A", 1, [4]⟩] := by
  have hperm : shuffled.entries.Perm (ofSystem alternating).entries := by decide
  obtain ⟨hlookup, hduplicates, -⟩ := index_hides_order alternating shuffled hperm
  refine ⟨hperm, (hlookup "A").1.trans rfl, ?_, hduplicates.trans (by decide)⟩
  rw [Bool.eq_false_iff, Ne, (hlookup "D").2.2]
  decide

end NameIndex

end TypeBindings
