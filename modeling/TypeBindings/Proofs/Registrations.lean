import TypeBindings.Backend
import TypeBindings.Proofs.Failure
import TypeBindings.Proofs.Sorting

/-!
# Runs of registrations

A registry is a record of what was registered: after a history of registrations its targets are those of the history in
the order in which they first came, and the backend of a target is the one that was registered last (`RecordOf`). One
registration keeps this (`RecordOf.register`), and so every run of registrations does (`RecordOf.registerAll`), whether it
begins with nothing or with the built-in backends (`recordOf_start`).

Generation for several targets goes through them in order. It gives what generation for each of them gives, unless one
was never registered: the first such target is the error.
-/

namespace TypeBindings.Registry

/-! ## Histories -/

/-- The registries that runs begin with. -/
inductive Start where
  | empty
  | builtin

def Start.registry : Start → Registry
  | .empty => {}
  | .builtin => .builtin

/-- What is registered at the beginning. -/
def Start.backends : Start → List Backend
  | .empty => []
  | .builtin => Target.all.map Target.backend

/-- A run of registrations: the answers to them, and the registry that they leave. -/
def registerAll : Registry → List Backend → List (Option Backend) × Registry
  | registry, [] => ([], registry)
  | registry, backend :: calls =>
    ((registry.register backend).1 :: ((registry.register backend).2.registerAll calls).1,
      ((registry.register backend).2.registerAll calls).2)

/-- Some backend for the target is in a history. -/
def IsRegistered (history : List Backend) (target : Target) : Prop :=
  ∃ backend ∈ history, backend.target = target

/-- The last backend in a history that is for the target. -/
def IsLastFor (history : List Backend) (target : Target) (backend : Backend) : Prop :=
  ∃ earlier later, history = earlier ++ backend :: later ∧ backend.target = target ∧
    ∀ other ∈ later, other.target ≠ target

theorem find?_reverse_eq_some_iff {history : List Backend} {target : Target} {backend : Backend} :
    history.reverse.find? (·.target = target) = some backend ↔ IsLastFor history target backend := by
  rw [List.find?_eq_some_iff_append]
  constructor
  · rintro ⟨htarget, later, earlier, hsplit, hlater⟩
    refine ⟨earlier.reverse, later.reverse, ?_, by simpa using htarget, fun other hother => ?_⟩
    · rw [← List.reverse_reverse history, hsplit]
      simp
    · simpa using hlater other (List.mem_reverse.1 hother)
  · rintro ⟨earlier, later, rfl, htarget, hlater⟩
    refine ⟨by simpa using htarget, later.reverse, earlier.reverse, by simp, fun other hother => ?_⟩
    simpa using hlater other (List.mem_reverse.1 hother)

theorem find?_reverse_eq_none_iff {history : List Backend} {target : Target} :
    history.reverse.find? (·.target = target) = none ↔ ¬IsRegistered history target := by
  simp [IsRegistered, List.find?_eq_none]

/-! ## One registration -/

/-- A target that is there keeps its place, and a new one comes at the end. -/
theorem map_target_place (backend : Backend) (backends : List Backend) :
    (place backend backends).map Backend.target =
      if backend.target ∈ backends.map Backend.target then backends.map Backend.target
      else backends.map Backend.target ++ [backend.target] := by
  induction backends with
  | nil => simp [place]
  | cons first rest ih =>
    rw [place]
    by_cases hfirst : first.target = backend.target
    · simp [hfirst]
    · have hne : backend.target ≠ first.target := fun h => hfirst h.symm
      rw [if_neg hfirst, List.map_cons, ih]
      by_cases hrest : backend.target ∈ rest.map Backend.target
      · simp [hrest]
      · simp [hrest, hne]

theorem find?_place (backend : Backend) (backends : List Backend) (target : Target) :
    (place backend backends).find? (·.target = target) =
      if backend.target = target then some backend else backends.find? (·.target = target) := by
  induction backends with
  | nil =>
    rw [place, List.find?_cons]
    by_cases htarget : backend.target = target
    · simp [htarget]
    · simp [htarget]
  | cons first rest ih =>
    rw [place]
    by_cases hfirst : first.target = backend.target
    · rw [if_pos hfirst, List.find?_cons, List.find?_cons, hfirst]
      by_cases htarget : backend.target = target
      · simp [htarget]
      · simp [htarget]
    · rw [if_neg hfirst, List.find?_cons, ih, List.find?_cons]
      by_cases htarget : backend.target = target
      · have hne : first.target ≠ target := fun h => hfirst (h.trans htarget.symm)
        simp [htarget, hne]
      · simp [htarget]

/-! ## Runs -/

/-- A registry that has what was registered, and nothing else. -/
structure RecordOf (history : List Backend) (registry : Registry) : Prop where
  targets_eq : registry.targets = distinct (history.map Backend.target)
  find?_eq : ∀ target, registry.find? target = history.reverse.find? (·.target = target)

variable {history : List Backend} {registry : Registry}

/-- **One registration** is recorded. -/
theorem RecordOf.register (h : RecordOf history registry) (backend : Backend) :
    RecordOf (history ++ [backend]) (registry.register backend).2 where
  targets_eq := by
    have hmem : backend.target ∈ registry.targets ↔ backend.target ∈ history.map Backend.target := by
      rw [h.targets_eq, mem_distinct]
    rw [List.map_append, List.map_singleton, distinct_append_singleton, ← h.targets_eq]
    refine (map_target_place backend registry.backends).trans ?_
    exact if_congr hmem rfl rfl
  find?_eq target := by
    rw [List.reverse_append, List.reverse_singleton, List.singleton_append, List.find?_cons, ← h.find?_eq]
    refine (find?_place backend registry.backends target).trans ?_
    by_cases htarget : backend.target = target
    · simp [htarget]
    · simp [htarget, find?]

/-- **Every run** of registrations is recorded. -/
theorem RecordOf.registerAll (h : RecordOf history registry) (calls : List Backend) :
    RecordOf (history ++ calls) (registry.registerAll calls).2 := by
  induction calls generalizing history registry with
  | nil =>
    rw [List.append_nil]
    exact h
  | cons backend calls ih =>
    rw [← List.singleton_append, ← List.append_assoc]
    exact ih (h.register backend)

theorem recordOf_start (start : Start) : RecordOf start.backends start.registry := by
  cases start with
  | empty => exact ⟨rfl, fun target => rfl⟩
  | builtin => exact ⟨rfl, fun target => by cases target <;> rfl⟩

theorem length_answers (registry : Registry) (calls : List Backend) :
    (registry.registerAll calls).1.length = calls.length := by
  induction calls generalizing registry with
  | nil => rfl
  | cons backend calls ih => rw [Registry.registerAll, List.length_cons, List.length_cons, ih]

/-- The answer to a call is what the registry had for its target before it. -/
theorem getElem?_answers (registry : Registry) (calls : List Backend) (i : Nat) :
    (registry.registerAll calls).1[i]? =
      calls[i]?.map fun call => (registry.registerAll (calls.take i)).2.find? call.target := by
  induction calls generalizing registry i with
  | nil => simp [Registry.registerAll]
  | cons backend calls ih =>
    cases i with
    | zero => rfl
    | succ i =>
      rw [Registry.registerAll, List.getElem?_cons_succ, ih, List.getElem?_cons_succ, List.take_succ_cons]
      rfl

/-! ## Answers of a registry -/

theorem RecordOf.find?_eq_some_iff (h : RecordOf history registry) {target : Target} {backend : Backend} :
    registry.find? target = some backend ↔ IsLastFor history target backend := by
  rw [h.find?_eq, find?_reverse_eq_some_iff]

theorem RecordOf.get_eq_ok_iff (h : RecordOf history registry) {target : Target} {backend : Backend} :
    registry.get target = .ok backend ↔ IsLastFor history target backend := by
  rw [← h.find?_eq_some_iff, get, elim_eq_ok_iff]

theorem RecordOf.get_eq_error_iff (h : RecordOf history registry) {target : Target} {error : GenerateError} :
    registry.get target = .error error ↔ error = .unregistered target ∧ ¬IsRegistered history target := by
  rw [← find?_reverse_eq_none_iff, ← h.find?_eq, get, elim_eq_error_iff, and_comm]

section Generation

variable (policy : ComponentPolicy) (system : TypeSystem)

/-- Generation for a target is that of its backend. -/
theorem generate_eq_ok_iff {target : Target} {files : FileSet} :
    registry.generate policy target system = .ok files ↔
      ∃ backend, registry.get target = .ok backend ∧ backend.generate system policy = files := by
  rw [Registry.generate, bind_eq_ok_iff]
  refine exists_congr fun backend => and_congr_right fun _ => ?_
  exact ⟨Except.ok.inj, congrArg Except.ok⟩

theorem RecordOf.generate_eq_error_iff (h : RecordOf history registry) {target : Target} {error : GenerateError} :
    registry.generate policy target system = .error error ↔
      error = .unregistered target ∧ ¬IsRegistered history target := by
  rw [← h.get_eq_error_iff, Registry.generate, bind_eq_error_iff]
  constructor
  · rintro (hget | ⟨backend, _, hnone⟩)
    · exact hget
    · cases hnone
  · exact Or.inl

/-- One step of the generation for several targets. -/
theorem pair_eq_ok_iff {target : Target} {result : Target × FileSet} :
    (do return (target, ← registry.generate policy target system) : Except GenerateError (Target × FileSet)) =
      .ok result ↔ result.1 = target ∧ registry.generate policy target system = .ok result.2 := by
  rw [bind_eq_ok_iff]
  constructor
  · rintro ⟨files, hfiles, hresult⟩
    cases hresult
    exact ⟨rfl, hfiles⟩
  · rintro ⟨rfl, hfiles⟩
    exact ⟨result.2, hfiles, rfl⟩

theorem pair_eq_error_iff {target : Target} {error : GenerateError} :
    (do return (target, ← registry.generate policy target system) : Except GenerateError (Target × FileSet)) =
      .error error ↔ registry.generate policy target system = .error error := by
  rw [bind_eq_error_iff]
  constructor
  · rintro (hfiles | ⟨files, _, hresult⟩)
    · exact hfiles
    · cases hresult
  · exact Or.inl

theorem RecordOf.succeeds_pair_iff (h : RecordOf history registry) {target : Target} :
    Succeeds (do return (target, ← registry.generate policy target system) :
      Except GenerateError (Target × FileSet)) ↔ IsRegistered history target := by
  cases hpair : (do return (target, ← registry.generate policy target system) :
      Except GenerateError (Target × FileSet)) with
  | error error =>
    obtain ⟨-, hnot⟩ := (h.generate_eq_error_iff policy system).1 ((pair_eq_error_iff policy system).1 hpair)
    exact ⟨fun hsucceeds => absurd hsucceeds (not_succeeds_error error), fun hregistered => absurd hregistered hnot⟩
  | ok result =>
    refine ⟨fun _ => by_contra fun hnot => ?_, fun _ => succeeds_ok result⟩
    have herror := (h.generate_eq_error_iff policy system).2 ⟨rfl, hnot⟩
    obtain ⟨-, hok⟩ := (pair_eq_ok_iff policy system).1 hpair
    cases hok.symm.trans herror

theorem generateAll_eq_ok_iff {targets : List Target} {results : List (Target × FileSet)} :
    registry.generateAll policy targets system = .ok results ↔
      List.Forall₂ (fun target result => result.1 = target ∧ registry.generate policy target system = .ok result.2)
        targets results := by
  rw [generateAll, mapM_eq_ok_iff]
  simp only [pair_eq_ok_iff]

/-- The first target that was never registered ends the generation. -/
theorem RecordOf.generateAll_eq_error_iff (h : RecordOf history registry) {targets : List Target}
    {error : GenerateError} :
    registry.generateAll policy targets system = .error error ↔
      ∃ earlier target later, targets = earlier ++ target :: later ∧ (∀ other ∈ earlier, IsRegistered history other) ∧
        ¬IsRegistered history target ∧ error = .unregistered target := by
  rw [generateAll, mapM_eq_error_iff]
  constructor
  · rintro ⟨earlier, target, later, hsplit, hearlier, herror⟩
    obtain ⟨hname, hnot⟩ := (h.generate_eq_error_iff policy system).1 ((pair_eq_error_iff policy system).1 herror)
    refine ⟨earlier, target, later, hsplit, fun other hother => ?_, hnot, hname⟩
    exact (h.succeeds_pair_iff policy system).1 (hearlier other hother)
  · rintro ⟨earlier, target, later, hsplit, hearlier, hnot, hname⟩
    refine ⟨earlier, target, later, hsplit, fun other hother => ?_, ?_⟩
    · exact (h.succeeds_pair_iff policy system).2 (hearlier other hother)
    · exact (pair_eq_error_iff policy system).2 ((h.generate_eq_error_iff policy system).2 ⟨hname, hnot⟩)

end Generation

/-- **A registry answers by its history, and generation goes through the targets in order.** After any run of
registrations from nothing or from the built-in backends, the targets are those that were registered, each once and in
the order in which they first came; the backend of a target is the one that was registered last, and a target that never
was is the only error; and the answer to each registration is the backend that it replaced. Generation for a target
gives what its backend generates. Generation for a list of targets fails exactly at the first one that was never
registered, and else gives for each target what generation for it alone gives. -/
theorem registrations_are_recorded (start : Start) (calls : List Backend) {answers : List (Option Backend)}
    {registry : Registry} (hrun : start.registry.registerAll calls = (answers, registry)) :
    FirstsOf ((start.backends ++ calls).map Backend.target) registry.targets ∧
    (∀ target backend, registry.get target = .ok backend ↔ IsLastFor (start.backends ++ calls) target backend) ∧
    (∀ target error, registry.get target = .error error ↔
      error = .unregistered target ∧ ¬IsRegistered (start.backends ++ calls) target) ∧
    (answers.length = calls.length ∧ ∀ (i : Nat) call, calls[i]? = some call →
      ∃ answer, answers[i]? = some answer ∧
        ∀ backend, answer = some backend ↔ IsLastFor (start.backends ++ calls.take i) call.target backend) ∧
    (∀ policy system target files, registry.generate policy target system = .ok files ↔
      ∃ backend, registry.get target = .ok backend ∧ backend.generate system policy = files) ∧
    ∀ policy system targets,
      (∀ error, registry.generateAll policy targets system = .error error ↔
        ∃ earlier target later, targets = earlier ++ target :: later ∧
          (∀ other ∈ earlier, IsRegistered (start.backends ++ calls) other) ∧
          ¬IsRegistered (start.backends ++ calls) target ∧ error = .unregistered target) ∧
      ∀ results, registry.generateAll policy targets system = .ok results ↔
        List.Forall₂ (fun target result => result.1 = target ∧ registry.generate policy target system = .ok result.2)
          targets results := by
  obtain ⟨rfl, rfl⟩ := Prod.ext_iff.1 hrun
  have hrecord := (recordOf_start start).registerAll calls
  refine ⟨firstsOf_iff.2 hrecord.targets_eq, fun target backend => hrecord.get_eq_ok_iff,
    fun target error => hrecord.get_eq_error_iff, ⟨length_answers _ calls, fun i call hcall => ?_⟩,
    fun policy system target files => generate_eq_ok_iff policy system,
    fun policy system targets => ⟨fun error => hrecord.generateAll_eq_error_iff policy system,
      fun results => generateAll_eq_ok_iff policy system⟩⟩
  refine ⟨(start.registry.registerAll (calls.take i)).2.find? call.target, ?_, fun backend => ?_⟩
  · rw [getElem?_answers, hcall, Option.map_some]
  · exact ((recordOf_start start).registerAll (calls.take i)).find?_eq_some_iff

/-- A backend that takes the place of the usual one for Java. -/
def stubBackend : Backend where
  target := .java
  layout := .combined
  generate _ _ := ⟨[("stub.txt", "stub")]⟩

def stubCalls : List Backend := [Target.java.backend, Target.kotlin.backend, stubBackend]

theorem registrations_are_recorded_stub :
    (Start.empty.registry.registerAll stubCalls).2.get .java = .ok stubBackend ∧
      (Start.empty.registry.registerAll stubCalls).1[2]? = some (some Target.java.backend) ∧
      (Start.empty.registry.registerAll stubCalls).2.generate .usual .java ⟨none, []⟩ = .ok ⟨[("stub.txt", "stub")]⟩ ∧
      (Start.empty.registry.registerAll stubCalls).2.generateAll .usual [.kotlin, .cSharp, .java, .typeScript]
        ⟨none, []⟩ = .error (.unregistered .cSharp) := by
  obtain ⟨-, hget, -, ⟨-, hanswers⟩, hgenerate, hall⟩ := registrations_are_recorded .empty stubCalls rfl
  obtain ⟨answer, hanswer, hreplaced⟩ := hanswers 2 stubBackend rfl
  have hfirst : answer = some Target.java.backend :=
    (hreplaced Target.java.backend).2 ⟨[], [Target.kotlin.backend], rfl, rfl, by simp [Target.backend, stubBackend]⟩
  have hjava := (hget .java stubBackend).2 ⟨[Target.java.backend, Target.kotlin.backend], [], rfl, rfl, by simp⟩
  refine ⟨hjava, hfirst ▸ hanswer, (hgenerate _ _ _ _).2 ⟨stubBackend, hjava, rfl⟩,
    ((hall _ _ _).1 _).2 ⟨[.kotlin], .cSharp, [.java, .typeScript], rfl, ?_, ?_, rfl⟩⟩
  · simp [IsRegistered, Start.backends, stubCalls, Target.backend]
  · simp [IsRegistered, Start.backends, stubCalls, Target.backend, stubBackend]

end TypeBindings.Registry
