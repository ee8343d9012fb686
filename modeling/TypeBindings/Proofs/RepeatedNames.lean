import Mathlib.Algebra.BigOperators.Group.Finset.Basic
import Mathlib.Algebra.GroupWithZero.Nat
import TypeBindings.Proofs.NameIndex
import TypeBindings.Proofs.Sites
import TypeBindings.Validation.Rules

/-!
# Errors are repeated names

A `Repeat` is a later definition of a name, with the place of the first one. The index of a type system lists exactly
the repeats of its names (`mem_repeats`), grouped by name (`pairwise_repeats`), one for each place that has an earlier
definition of its name (`mem_places`, `nodup_places`), and so as many as there are definitions less different names
(`length_repeats`). No other rule gives an error (`filter_isError`), so these are the errors of a report
(`validate_errors_are_repeats`).
-/

namespace TypeBindings

/-- A later definition of a name. -/
structure Repeat where
  name : String
  /-- The place of the first definition of the name. -/
  first : Nat
  /-- The place of the later one. -/
  place : Nat
deriving DecidableEq, Repr

namespace Repeat

/-- Grouped by name: groups in the order of the first definitions, and in a group in the order of the later ones. -/
def Before (a b : Repeat) : Prop :=
  a.first < b.first ∨ a.first = b.first ∧ a.place < b.place

/-- The error that a repeat gives. -/
def diagnostic (file : String) (r : Repeat) : Diagnostic where
  code := "E_DUPLICATE_TYPE"
  severity := .error
  message := "Type '" ++ r.name ++ "' is already defined at $.types[" ++ toString r.first ++ "]"
  file := file
  path := "$.types[" ++ toString r.place ++ "].name"
  suggestion := some "Rename or remove one of the definitions"

/-- `r` is a repeat in a list of names: its name stands at both places, and nowhere before the first. -/
structure IsIn (names : List String) (r : Repeat) : Prop where
  lt : r.first < r.place
  name_first : names[r.first]? = some r.name
  name_place : names[r.place]? = some r.name
  not_before : ∀ i < r.first, names[i]? ≠ some r.name

/-- A name has one first place. -/
theorem first_unique {names : List String} {name : String} {i j : Nat} (hi : names[i]? = some name)
    (hbefore : ∀ k < i, names[k]? ≠ some name) (hj : names[j]? = some name)
    (hbefore' : ∀ k < j, names[k]? ≠ some name) : i = j := by
  rcases Nat.lt_trichotomy i j with hlt | heq | hlt
  · exact absurd hi (hbefore' i hlt)
  · exact heq
  · exact absurd hj (hbefore j hlt)

/-- There is one repeat at a place. -/
theorem IsIn.eq_of_place_eq {names : List String} {a b : Repeat} (ha : a.IsIn names) (hb : b.IsIn names)
    (h : a.place = b.place) : a = b := by
  obtain ⟨name, first, place⟩ := a
  obtain ⟨name', first', place'⟩ := b
  obtain rfl : place = place' := h
  obtain rfl : name = name' := Option.some.inj (ha.name_place.symm.trans hb.name_place)
  obtain rfl : first = first' := first_unique ha.name_first ha.not_before hb.name_first hb.not_before
  rfl

end Repeat

namespace NameIndex

/-- The repeats that an index knows of. -/
def repeats (index : NameIndex) : List Repeat :=
  index.duplicates.flatMap fun entry => entry.others.map (Repeat.mk entry.name entry.first)

section Repeats

variable {names : List String} {index : NameIndex}

theorem mem_repeats_iff {r : Repeat} : r ∈ index.repeats ↔
    ∃ entry ∈ index.entries, entry.name = r.name ∧ entry.first = r.first ∧ r.place ∈ entry.others := by
  simp only [repeats, List.mem_flatMap, List.mem_map, mem_duplicates]
  constructor
  · rintro ⟨entry, ⟨hentry, -⟩, place, hplace, rfl⟩
    exact ⟨entry, hentry, rfl, rfl, hplace⟩
  · rintro ⟨entry, hentry, hname, hfirst, hplace⟩
    refine ⟨entry, ⟨hentry, ?_⟩, r.place, hplace, by rw [hname, hfirst]⟩
    unfold NameEntry.isRepeated
    cases hothers : entry.others with
    | nil =>
      rw [hothers] at hplace
      cases hplace
    | cons _ _ => rfl

/-- **The index knows of exactly the repeats.** -/
theorem mem_repeats (h : IsIndexOf names index.entries) {r : Repeat} : r ∈ index.repeats ↔ r.IsIn names := by
  rw [mem_repeats_iff]
  constructor
  · rintro ⟨entry, hentry, hname, hfirst, hplace⟩
    obtain ⟨hat, hbefore, hothers, -⟩ := h.places_spec hentry
    rw [hothers] at hplace
    rw [hname, hfirst] at hat hplace
    rw [hname, hfirst] at hbefore
    exact ⟨hplace.1, hat, hplace.2, hbefore⟩
  · intro hr
    obtain ⟨entry, hentry, hname⟩ := List.mem_map.1 (h.complete r.name (List.mem_of_getElem? hr.name_place))
    obtain ⟨hat, hbefore, hothers, -⟩ := h.places_spec hentry
    rw [hname] at hat hbefore hothers
    have hfirst : entry.first = r.first := Repeat.first_unique hat hbefore hr.name_first hr.not_before
    exact ⟨entry, hentry, hname, hfirst, (hothers _).2 ⟨hfirst ▸ hr.lt, hr.name_place⟩⟩

/-- **Repeats are grouped by name.** -/
theorem pairwise_repeats (h : IsIndexOf names index.entries) : index.repeats.Pairwise Repeat.Before := by
  unfold repeats
  rw [List.pairwise_flatMap]
  refine ⟨fun entry hentry => ?_, (pairwise_duplicates h).imp fun hlt a ha b hb => ?_⟩
  · obtain ⟨-, -, -, hsorted⟩ := h.places_spec (mem_duplicates.1 hentry).1
    exact List.pairwise_map.2 (hsorted.imp fun hlt => .inr ⟨rfl, hlt⟩)
  · obtain ⟨_, _, rfl⟩ := List.mem_map.1 ha
    obtain ⟨_, _, rfl⟩ := List.mem_map.1 hb
    exact .inl hlt

theorem nodup_repeats (h : IsIndexOf names index.entries) : index.repeats.Nodup := by
  refine (pairwise_repeats h).imp fun {a b} hbefore hab => ?_
  subst hab
  rcases hbefore with hlt | ⟨_, hlt⟩
  · exact Nat.lt_irrefl _ hlt
  · exact Nat.lt_irrefl _ hlt

theorem nodup_places (h : IsIndexOf names index.entries) : (index.repeats.map Repeat.place).Nodup :=
  (List.nodup_map_iff_inj_on (nodup_repeats h)).2 fun _ ha _ hb hplace =>
    ((mem_repeats h).1 ha).eq_of_place_eq ((mem_repeats h).1 hb) hplace

/-- **A repeat stands at each place that has an earlier definition of its name.** -/
theorem mem_places (h : IsIndexOf names index.entries) {j : Nat} :
    j ∈ index.repeats.map Repeat.place ↔ ∃ i < j, j < names.length ∧ names[i]? = names[j]? := by
  rw [List.mem_map]
  constructor
  · rintro ⟨r, hr, rfl⟩
    have hin := (mem_repeats h).1 hr
    have hlt := (List.getElem?_eq_some_iff.1 hin.name_place).1
    exact ⟨r.first, hin.lt, hlt, hin.name_first.trans hin.name_place.symm⟩
  · rintro ⟨i, hi, hj, heq⟩
    rw [List.getElem?_eq_getElem hj] at heq
    obtain ⟨entry, hentry, hname⟩ := List.mem_map.1 (h.complete names[j] (List.getElem_mem hj))
    obtain ⟨-, hbefore, hothers, -⟩ := h.places_spec hentry
    have hfirst : entry.first ≤ i := Nat.le_of_not_lt fun hlt => hbefore i hlt (hname ▸ heq)
    have hplace : j ∈ entry.others := (hothers j).2 ⟨by omega, by rw [List.getElem?_eq_getElem hj, hname]⟩
    exact ⟨⟨entry.name, entry.first, j⟩, mem_repeats_iff.2 ⟨entry, hentry, rfl, rfl, hplace⟩, rfl⟩

theorem repeats_eq_nil_iff (h : IsIndexOf names index.entries) : index.repeats = [] ↔ names.Nodup := by
  rw [List.nodup_iff_getElem?_ne_getElem?, ← List.map_eq_nil_iff, List.eq_nil_iff_forall_not_mem]
  constructor
  · intro hnone i j hij hj heq
    exact hnone j ((mem_places h).2 ⟨i, hij, hj, heq⟩)
  · intro hne j hmem
    obtain ⟨i, hij, hj, heq⟩ := (mem_places h).1 hmem
    exact hne i j hij hj heq

/-! ## How many there are -/

theorem IsIndexOf.toFinset_names {entries : List NameEntry} (h : IsIndexOf names entries) :
    (entries.map NameEntry.name).toFinset = names.toFinset := by
  rw [List.toFinset.ext_iff]
  exact fun name => h.mem_names_iff

/-- Every place stands in one entry. -/
theorem IsIndexOf.sum_length_places {entries : List NameEntry} (h : IsIndexOf names entries) :
    (entries.map fun entry => entry.places.length).sum = names.length := by
  have hlengths : ∀ entry ∈ entries, entry.places.length = names.count entry.name := by
    intro entry hentry
    rw [h.places entry hentry, List.length_idxsOf]
  calc (entries.map fun entry => entry.places.length).sum
      = (entries.map fun entry => names.count entry.name).sum := by rw [List.map_congr_left hlengths]
    _ = ((entries.map NameEntry.name).map fun name => names.count name).sum := by rw [List.map_map]; rfl
    _ = ∑ name ∈ names.toFinset, names.count name := by
      rw [← h.toFinset_names, List.sum_toFinset _ h.nodup]
    _ = names.length := List.sum_toFinset_count_eq_length names

theorem IsIndexOf.length_entries {entries : List NameEntry} (h : IsIndexOf names entries) :
    entries.length = names.toFinset.card := by
  rw [← h.toFinset_names, List.toFinset_card_of_nodup h.nodup, List.length_map]

/-- A name with one definition adds nothing to the number of repeats. -/
theorem sum_length_others_repeated (entries : List NameEntry) :
    ((entries.filter NameEntry.isRepeated).map fun entry => entry.others.length).sum =
      (entries.map fun entry => entry.others.length).sum := by
  induction entries with
  | nil => rfl
  | cons entry rest ih =>
    rw [List.filter_cons]
    split
    · rw [List.map_cons, List.map_cons, List.sum_cons, List.sum_cons, ih]
    · rename_i hsingle
      have hothers : entry.others = [] := by simpa [NameEntry.isRepeated] using hsingle
      rw [List.map_cons, List.sum_cons, hothers, ih, List.length_nil, Nat.zero_add]

/-- **There are as many repeats as definitions less different names.** -/
theorem length_repeats (h : IsIndexOf names index.entries) :
    index.repeats.length = names.length - names.toFinset.card := by
  have hrepeats : index.repeats.length = (index.entries.map fun entry => entry.others.length).sum := by
    simp only [repeats, List.length_flatMap, List.length_map]
    rw [← sum_length_others_repeated index.entries]
    exact ((sortBy_perm _).map _).sum_nat
  have hplaces := h.sum_length_places
  simp only [NameEntry.places, List.length_cons, List.sum_map_add] at hplaces
  rw [← h.length_entries, hrepeats, ← hplaces]
  simp

end Repeats

end NameIndex

namespace TypeSystem

/-! ## The errors of a report -/

/-- The rule on repeated names tells of the repeats. -/
theorem duplicateTypes_map_diagnostic (s : TypeSystem) (file : String) :
    s.duplicateTypes.map (Finding.diagnostic file) =
      (NameIndex.ofSystem s).repeats.map (Repeat.diagnostic file) := by
  simp only [duplicateTypes, NameIndex.repeats, List.map_flatMap, List.map_map]
  rfl

end TypeSystem

/-- An offence is an error if its code says that a name is defined twice. -/
theorem Offence.severity_eq_error_iff (offence : Offence) :
    offence.severity = .error ↔ offence.code = "E_DUPLICATE_TYPE" := by
  cases offence <;> simp [severity, code]

namespace TypeSystem

section Warnings

variable {s : TypeSystem} {finding : Finding}

theorem isWarning_of_mem_undefinedNames (h : finding ∈ s.undefinedNames) : finding.offence.severity = .warning := by
  simp only [undefinedNames, List.mem_flatMap, List.mem_append] at h
  obtain ⟨⟨d, type⟩, -, ⟨⟨p, property⟩, -, h⟩ | h⟩ := h
  · obtain ⟨name, -, rfl⟩ := List.mem_map.1 h
    rfl
  · simp only [undefinedParent] at h
    split at h
    · rw [List.mem_ite_nil_left, List.mem_singleton] at h
      rw [h.2]
      rfl
    · cases h

theorem isWarning_of_mem_unionFindings (h : finding ∈ s.unionFindings) : finding.offence.severity = .warning := by
  simp only [unionFindings, List.mem_flatMap] at h
  obtain ⟨⟨d, type⟩, -, h⟩ := h
  split at h
  · rw [List.mem_singleton.1 h]
    rfl
  · obtain ⟨component, -, h⟩ := List.mem_flatMap.1 h
    simp only [componentFindings] at h
    split at h
    · rw [List.mem_singleton.1 h]
      rfl
    · rw [List.mem_ite_nil_right, List.mem_singleton] at h
      rw [h.2]
      rfl
  · cases h

theorem isWarning_of_mem_unknownKinds (h : finding ∈ s.unknownKinds) : finding.offence.severity = .warning := by
  simp only [unknownKinds, List.mem_flatMap, List.mem_ite_nil_right, List.mem_singleton] at h
  obtain ⟨-, -, -, -, -, rfl⟩ := h
  rfl

theorem isWarning_of_mem_badNames (h : finding ∈ s.badNames) : finding.offence.severity = .warning := by
  simp only [badNames, badName, List.mem_flatMap, List.mem_append, List.mem_ite_nil_left, List.mem_singleton] at h
  obtain ⟨-, -, (⟨-, rfl⟩ | ⟨-, -, -, rfl⟩) | ⟨-, -, -, rfl⟩⟩ := h <;> rfl

end Warnings

/-- **Of all rules only the one on repeated names gives errors.** -/
theorem isWarning_of_mem_others {s : TypeSystem} {finding : Finding}
    (h : finding ∈ s.undefinedNames ++ s.unionFindings ++ s.unknownKinds ++ s.badNames) :
    finding.offence.severity = .warning := by
  simp only [List.mem_append] at h
  rcases h with ((h | h) | h) | h
  · exact isWarning_of_mem_undefinedNames h
  · exact isWarning_of_mem_unionFindings h
  · exact isWarning_of_mem_unknownKinds h
  · exact isWarning_of_mem_badNames h

theorem findings_eq (s : TypeSystem) :
    s.findings = s.duplicateTypes ++ (s.undefinedNames ++ s.unionFindings ++ s.unknownKinds ++ s.badNames) := by
  simp only [findings, List.append_assoc]

theorem entries_validate (s : TypeSystem) (file : String) :
    (s.validate file).entries = s.findings.map (Finding.diagnostic file) := rfl

theorem filter_isError (s : TypeSystem) (file : String) :
    (s.validate file).entries.filter Report.isError = (NameIndex.ofSystem s).repeats.map (Repeat.diagnostic file) := by
  rw [entries_validate, findings_eq, List.map_append, List.filter_append, duplicateTypes_map_diagnostic]
  have hrepeats : ((NameIndex.ofSystem s).repeats.map (Repeat.diagnostic file)).filter Report.isError =
      (NameIndex.ofSystem s).repeats.map (Repeat.diagnostic file) := by
    rw [List.filter_eq_self]
    intro entry hentry
    obtain ⟨r, _, rfl⟩ := List.mem_map.1 hentry
    rfl
  -- the other rules have nothing to add
  have hothers : ((s.undefinedNames ++ s.unionFindings ++ s.unknownKinds ++ s.badNames).map
      (Finding.diagnostic file)).filter Report.isError = [] := by
    rw [List.filter_eq_nil_iff]
    intro entry hentry
    obtain ⟨finding, hfinding, rfl⟩ := List.mem_map.1 hentry
    have hwarning : (finding.diagnostic file).severity = .warning := isWarning_of_mem_others hfinding
    rw [Report.isError, hwarning]
    decide
  rw [hrepeats, hothers, List.append_nil]

theorem isError_iff_code {s : TypeSystem} {file : String} {entry : Diagnostic}
    (h : entry ∈ (s.validate file).entries) : Report.isError entry = true ↔ entry.code = "E_DUPLICATE_TYPE" := by
  rw [entries_validate] at h
  obtain ⟨finding, _, rfl⟩ := List.mem_map.1 h
  rw [Report.isError, beq_iff_eq]
  exact finding.offence.severity_eq_error_iff

/-- The entries about repeated names are the errors. -/
theorem filter_code_eq_filter_isError (s : TypeSystem) (file : String) :
    ((s.validate file).entries.filter fun entry => entry.code = "E_DUPLICATE_TYPE") =
      (s.validate file).entries.filter Report.isError := by
  refine List.filter_congr fun entry hentry => ?_
  rw [Bool.eq_iff_iff, decide_eq_true_eq, isError_iff_code hentry]

theorem validate_ok_iff (s : TypeSystem) (file : String) :
    (s.validate file).ok = true ↔ (s.validate file).entries.filter Report.isError = [] := by
  have hok : (s.validate file).ok = !(s.validate file).entries.any Report.isError := rfl
  rw [hok, Bool.not_eq_true', List.any_eq_false, List.filter_eq_nil_iff]

/-- A path tells the place of a repeat. -/
theorem countP_path_diagnostic (repeats : List Repeat) (file : String) (j : Nat) :
    (repeats.map (Repeat.diagnostic file)).countP (fun entry => entry.path = "$.types[" ++ toString j ++ "].name") =
      (repeats.map Repeat.place).count j := by
  rw [List.count_eq_countP, List.countP_map, List.countP_map]
  refine List.countP_congr fun r _ => ?_
  rw [Function.comp, Function.comp, decide_eq_true_eq, beq_iff_eq]
  refine ⟨fun hpath => ?_, fun hplace => hplace ▸ rfl⟩
  have hsite : Site.typeName r.place = Site.typeName j := Site.path_injective hpath
  exact Site.typeName.inj hsite

/-- **Errors are repeated names.** A report is good if the names are different. Its errors are the later definitions of
a name, one for each place with an earlier definition, grouped by name and with the first place in the message. Their
number is that of the definitions less that of the different names. No other rule gives an error, and the order in which
an index has its entries does not show. -/
theorem validate_errors_are_repeats (s : TypeSystem) (file : String) :
    let report := s.validate file
    let duplicates := report.entries.filter fun entry => entry.code = "E_DUPLICATE_TYPE"
    (report.ok = true ↔ s.names.Nodup) ∧
      duplicates.length = s.definitions.length - s.names.toFinset.card ∧
      (∀ j, duplicates.countP (fun entry => entry.path = "$.types[" ++ toString j ++ "].name") =
        if ∃ i < j, j < s.names.length ∧ s.names[i]? = s.names[j]? then 1 else 0) ∧
      (∃ repeats : List Repeat, (∀ r, r ∈ repeats ↔ r.IsIn s.names) ∧ repeats.Pairwise Repeat.Before ∧
        duplicates = repeats.map (Repeat.diagnostic file)) ∧
      (∀ entry ∈ report.entries, entry.severity = .error ↔ entry.code = "E_DUPLICATE_TYPE") ∧
      (∀ finding ∈ s.undefinedNames ++ s.unionFindings ++ s.unknownKinds ++ s.badNames,
        finding.offence.severity ≠ .error) ∧
      (∀ index : NameIndex, index.entries.Perm (NameIndex.ofSystem s).entries →
        index.duplicates = (NameIndex.ofSystem s).duplicates) := by
  intro report duplicates
  have hindex := NameIndex.isIndexOf_ofSystem s
  have herrors := s.filter_isError file
  have hduplicates : duplicates = (NameIndex.ofSystem s).repeats.map (Repeat.diagnostic file) :=
    (s.filter_code_eq_filter_isError file).trans herrors
  refine ⟨?_, ?_, fun j => ?_, ?_, fun entry hentry => ?_, fun finding hfinding => ?_, fun index hperm => ?_⟩
  · rw [validate_ok_iff, herrors, List.map_eq_nil_iff, NameIndex.repeats_eq_nil_iff hindex]
  · rw [hduplicates, List.length_map, NameIndex.length_repeats hindex, names, List.length_map]
  · rw [hduplicates, countP_path_diagnostic, (NameIndex.nodup_places hindex).count]
    simp only [NameIndex.mem_places hindex]
  · exact ⟨_, fun r => NameIndex.mem_repeats hindex, NameIndex.pairwise_repeats hindex, hduplicates⟩
  · rw [← isError_iff_code hentry, Report.isError, beq_iff_eq]
  · rw [isWarning_of_mem_others hfinding]
    decide
  · exact NameIndex.duplicates_eq_of_perm hindex hperm

/-- A type system with two names that are defined in turns. -/
def interleaved : TypeSystem where
  package := none
  definitions := [.record "A" [], .enumeration "B" [], .record "A" [], .union "B" [], .union "A" ["B"]]

theorem validate_errors_are_repeats_interleaved :
    (interleaved.validate "").ok = false ∧
      ((interleaved.validate "").entries.filter fun entry => entry.code = "E_DUPLICATE_TYPE").length = 3 ∧
      (Repeat.diagnostic "" ⟨"A", 0, 4⟩ ∈ (interleaved.validate "").entries ∧
        (Repeat.diagnostic "" ⟨"A", 0, 4⟩).severity = .error) ∧
      (⟨.emptyUnion "B", .parent 3⟩ ∈ interleaved.unionFindings ∧ (Offence.emptyUnion "B").severity ≠ .error) ∧
      NameIndex.duplicates ⟨[⟨"B", 1, [3]⟩, ⟨"A", 0, [2, 4]⟩]⟩ = [⟨"A", 0, [2, 4]⟩, ⟨"B", 1, [3]⟩] := by
  obtain ⟨hok, hlength, _, _, hseverity, hothers, hperm⟩ := validate_errors_are_repeats interleaved ""
  have hmem : Repeat.diagnostic "" ⟨"A", 0, 4⟩ ∈ (interleaved.validate "").entries := by decide +kernel
  have hempty : ⟨.emptyUnion "B", .parent 3⟩ ∈ interleaved.unionFindings := by decide +kernel
  refine ⟨?_, hlength.trans (by decide +kernel), ⟨hmem, (hseverity _ hmem).2 rfl⟩, ⟨hempty, ?_⟩, ?_⟩
  · exact Bool.eq_false_iff.2 fun h => absurd (hok.1 h) (by decide)
  · exact hothers ⟨.emptyUnion "B", .parent 3⟩ (by simp [hempty])
  · exact (hperm ⟨[⟨"B", 1, [3]⟩, ⟨"A", 0, [2, 4]⟩]⟩ (by decide +kernel)).trans (by decide +kernel)

end TypeSystem

end TypeBindings
