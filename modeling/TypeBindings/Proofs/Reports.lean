import TypeBindings.Diagnostic

/-!
# Runs of operations on a report

A report has a flag beside its entries. The reports whose flag is right are those that `Report.ofEntries` makes. One more
entry keeps the flag right (`Report.push_ofEntries`), and so does a merge, which looks at the entries of the other report
and not at its flag (`Report.merge_ofEntries`). So the flag is right after every operation of a run, and the entries are
those that were given (`Report.flag_never_drifts`).
-/

namespace TypeBindings

/-! ## Entries that are errors -/

/-- No entry is an error. -/
def Faultless (entries : List Diagnostic) : Prop :=
  ∀ entry ∈ entries, entry.severity ≠ .error

theorem faultless_append {first second : List Diagnostic} :
    Faultless (first ++ second) ↔ Faultless first ∧ Faultless second :=
  List.forall_mem_append

theorem countP_error_eq_zero_iff {entries : List Diagnostic} :
    entries.countP (·.severity == .error) = 0 ↔ Faultless entries := by
  rw [List.countP_eq_zero]
  simp [Faultless]

namespace Report

/-! ## Reports with the right flag -/

variable (entries : List Diagnostic)

theorem ofEntries_ok_iff : (ofEntries entries).ok = true ↔ Faultless entries := by
  have hok : (ofEntries entries).ok = !entries.any isError := rfl
  rw [hok, Bool.not_eq_true', List.any_eq_false]
  simp [Faultless, isError]

theorem hasErrors_ofEntries_eq_false_iff : (ofEntries entries).hasErrors = false ↔ Faultless entries := by
  rw [hasErrors, Bool.not_eq_false', ofEntries_ok_iff]

/-- To look at the flag and to count the errors comes to the same. -/
theorem hasErrors_ofEntries_iff_count :
    (ofEntries entries).hasErrors = true ↔ (ofEntries entries).count .error ≠ 0 := by
  have hcount : (ofEntries entries).count .error = 0 ↔ Faultless entries := countP_error_eq_zero_iff
  rw [ne_eq, hcount, ← hasErrors_ofEntries_eq_false_iff, Bool.not_eq_false]

/-- **One entry** more. -/
theorem push_ofEntries (entry : Diagnostic) : (ofEntries entries).push entry = ofEntries (entries ++ [entry]) := by
  simp [push, ofEntries, List.any_append, Bool.not_or]

theorem foldl_push_ofEntries (more : List Diagnostic) :
    more.foldl push (ofEntries entries) = ofEntries (entries ++ more) := by
  induction more generalizing entries with
  | nil => simp
  | cons entry rest ih => rw [List.foldl_cons, push_ofEntries, ih, List.append_assoc, List.singleton_append]

/-- **A merge** adds the entries of the other report, whatever its flag is. -/
theorem merge_ofEntries (other : Report) : (ofEntries entries).merge other = ofEntries (entries ++ other.entries) :=
  foldl_push_ofEntries entries other.entries

/-! ## Runs -/

/-- The reports that runs begin with. -/
inductive Start where
  | success
  | ofEntries (entries : List Diagnostic)

def Start.report : Start → Report
  | .success => .success
  | .ofEntries entries => .ofEntries entries

/-- What is given at the beginning. -/
def Start.given : Start → List Diagnostic
  | .success => []
  | .ofEntries entries => entries

/-- What can be done to a report. The report that is merged may have any flag. -/
inductive Operation where
  | push (entry : Diagnostic)
  | merge (other : Report)

def Operation.apply (report : Report) : Operation → Report
  | .push entry => report.push entry
  | .merge other => report.merge other

/-- The entries that an operation brings. -/
def Operation.given : Operation → List Diagnostic
  | .push entry => [entry]
  | .merge other => other.entries

/-- The reports in the course of a run: the first one, and one after each operation. -/
def course (start : Start) (operations : List Operation) : List Report :=
  operations.scanl Operation.apply start.report

theorem Start.report_eq (start : Start) : start.report = Report.ofEntries start.given := by
  cases start with
  | success => rfl
  | ofEntries entries => rfl

/-- **One operation** adds what it brings. -/
theorem apply_ofEntries (operation : Operation) :
    operation.apply (ofEntries entries) = ofEntries (entries ++ operation.given) := by
  cases operation with
  | push entry => exact push_ofEntries entries entry
  | merge other => exact merge_ofEntries entries other

/-- **Every run** adds what its operations bring, one after the other. -/
theorem foldl_apply_ofEntries (operations : List Operation) :
    operations.foldl Operation.apply (ofEntries entries) = ofEntries (entries ++ operations.flatMap Operation.given) := by
  induction operations generalizing entries with
  | nil => simp
  | cons operation rest ih => rw [List.foldl_cons, apply_ofEntries, ih, List.flatMap_cons, List.append_assoc]

variable {start : Start} {operations : List Operation}

/-- A report in the course of a run is the one that is made of all that was given so far. -/
theorem eq_of_getElem?_course {i : Nat} {report : Report} (h : (course start operations)[i]? = some report) :
    report = ofEntries (start.given ++ (operations.take i).flatMap Operation.given) := by
  rw [course, List.getElem?_scanl, Option.ite_none_right_eq_some] at h
  obtain ⟨-, hreport⟩ := h
  rw [← Option.some.inj hreport, start.report_eq, foldl_apply_ofEntries]

/-- **The flag of a report never drifts.** A run begins with the empty report or with a report on some entries, and then
entries are pushed and reports merged, whose own flags may be wrong. There is a report after each operation. Its entries
are those given so far, in order, its flag is true if and only if none of them is an error, and the answer that is taken
from the flag is the one that a count of the errors gives. -/
theorem flag_never_drifts (start : Start) (operations : List Operation) :
    (course start operations).length = operations.length + 1 ∧
    ∀ (i : Nat) report, (course start operations)[i]? = some report →
      report.entries = start.given ++ (operations.take i).flatMap Operation.given ∧
      (report.ok = true ↔ ∀ entry ∈ report.entries, entry.severity ≠ .error) ∧
      (report.hasErrors = true ↔ report.count .error ≠ 0) := by
  refine ⟨List.length_scanl, fun i report hreport => ?_⟩
  obtain rfl := eq_of_getElem?_course hreport
  exact ⟨rfl, ofEntries_ok_iff _, hasErrors_ofEntries_iff_count _⟩

/-- A diagnostic that is no error. -/
def emptyWarning : Diagnostic where
  code := "W_EMPTY_UNION"
  severity := .warning
  message := "empty"
  file := ""
  path := "$"

def schemaError : Diagnostic where
  code := "E_SCHEMA_VIOLATION"
  severity := .error
  message := "bad"
  file := ""
  path := "$"

/-- Two merges of reports with wrong flags, and a warning after them. -/
def misleading : List Operation :=
  [.merge ⟨false, [emptyWarning]⟩, .merge ⟨true, [schemaError]⟩, .push emptyWarning]

theorem flag_never_drifts_misleading :
    let reports := course (.ofEntries [emptyWarning]) misleading
    let last : Report := ⟨false, [emptyWarning, emptyWarning, schemaError, emptyWarning]⟩
    reports.length = 4 ∧
    (reports[1]? = some ⟨true, [emptyWarning, emptyWarning]⟩ ∧
      ∀ entry ∈ [emptyWarning, emptyWarning], entry.severity ≠ .error) ∧
    reports[3]? = some last ∧ last.entries = [emptyWarning] ++ misleading.flatMap Operation.given ∧
      last.count .error ≠ 0 := by
  intro reports last
  obtain ⟨hlength, hreports⟩ := flag_never_drifts (.ofEntries [emptyWarning]) misleading
  have hfirst : reports[1]? = some ⟨true, [emptyWarning, emptyWarning]⟩ := rfl
  have hlast : reports[3]? = some last := rfl
  obtain ⟨-, hok, -⟩ := hreports 1 _ hfirst
  obtain ⟨hentries, -, hcount⟩ := hreports 3 _ hlast
  exact ⟨hlength, ⟨hfirst, hok.1 rfl⟩, hlast, hentries, hcount.1 rfl⟩

end Report

end TypeBindings
