import Mathlib.Data.List.Forall2
import TypeBindings.Command.Settings
import TypeBindings.Proofs.Failure
import TypeBindings.Proofs.Sorting

/-!
# Arguments come before the configuration

Each setting is decided by itself (`Decides`): by the command line if it says anything about it, else by the
configuration that applies, else by what is usual. So what the command line says comes out the same whatever the
configuration is (`Decides.eq_of_given`).

There are no settings if the configuration cannot be loaded (`Config.Fails`) or the arguments are refused under it
(`Refused`): because nothing gives a source, an argument names no target, or one names no policy. Of several reasons the
first one in this order is the error.
-/

namespace TypeBindings

/-! ## Names -/

/-- A text that names a target: its name or another one that is understood, in capital or small letters. -/
def Target.IsNamed (text : String) (target : Target) : Prop :=
  Text.lower text ∈ target.name :: target.aliases

instance (text : String) (target : Target) : Decidable (Target.IsNamed text target) :=
  inferInstanceAs (Decidable (_ ∈ _))

/-- A text that names a policy, in capital or small letters. -/
def ComponentPolicy.IsNamed (text : String) (policy : ComponentPolicy) : Prop :=
  policy.name = Text.lower text

/-- What is found by a condition that only one element can meet. -/
theorem find?_eq_some_iff_of_unique {α : Type} {xs : List α} {p : α → Bool} {a : α}
    (h : ∀ a b, p a = true → p b = true → a = b) : xs.find? p = some a ↔ a ∈ xs ∧ p a = true := by
  constructor
  · intro hfind
    exact ⟨List.mem_of_find?_eq_some hfind, List.find?_some hfind⟩
  · rintro ⟨hmem, hp⟩
    obtain ⟨b, hb⟩ := Option.isSome_iff_exists.1 (List.find?_isSome.2 ⟨a, hmem, hp⟩)
    rw [hb, h b a (List.find?_some hb) hp]

theorem Target.eq_of_shared_name {a b : Target} {word : String} (ha : word ∈ a.name :: a.aliases)
    (hb : word ∈ b.name :: b.aliases) : a = b := by
  have hapart : ∀ a b : Target, a = b ∨ ∀ word ∈ a.name :: a.aliases, word ∉ b.name :: b.aliases := by
    intro a b
    cases a <;> cases b <;> decide
  exact (hapart a b).resolve_right fun h => h word ha hb

theorem Target.parse_eq_ok_iff {text : String} {target : Target} :
    Target.parse text = .ok target ↔ Target.IsNamed text target := by
  have hunique : ∀ a b : Target, (a.name :: a.aliases).contains (Text.lower text) = true →
      (b.name :: b.aliases).contains (Text.lower text) = true → a = b := fun a b ha hb =>
    eq_of_shared_name (List.contains_iff_mem.1 ha) (List.contains_iff_mem.1 hb)
  have hall : target ∈ Target.all := by cases target <;> decide
  rw [parse, elim_eq_ok_iff, ofName?, find?_eq_some_iff_of_unique hunique, List.contains_iff_mem]
  exact and_iff_right hall

theorem ComponentPolicy.parse_eq_ok_iff {text : String} {policy : ComponentPolicy} :
    ComponentPolicy.parse text = .ok policy ↔ ComponentPolicy.IsNamed text policy := by
  have hname : ∀ a b : ComponentPolicy, a.name = b.name → a = b := by
    intro a b
    cases a <;> cases b <;> decide
  have hunique : ∀ a b : ComponentPolicy, decide (a.name = Text.lower text) = true →
      decide (b.name = Text.lower text) = true → a = b := fun a b ha hb =>
    hname a b ((of_decide_eq_true ha).trans (of_decide_eq_true hb).symm)
  have hall : policy ∈ all := by cases policy <;> decide
  rw [parse, elim_eq_ok_iff, ofName?, find?_eq_some_iff_of_unique hunique, decide_eq_true_iff]
  exact and_iff_right hall

/-- A text that names no target is the error. -/
theorem Target.parse_eq_error_iff {text : String} {error : GenerateError} :
    Target.parse text = .error error ↔ (∀ target, ¬Target.IsNamed text target) ∧ error = .unknownTarget text := by
  simp only [← Target.parse_eq_ok_iff]
  exact elim_eq_error_iff_forall

theorem ComponentPolicy.parse_eq_error_iff {text : String} {error : GenerateError} :
    ComponentPolicy.parse text = .error error ↔
      (∀ policy, ¬ComponentPolicy.IsNamed text policy) ∧ error = .unknownPolicy text := by
  simp only [← ComponentPolicy.parse_eq_ok_iff]
  exact elim_eq_error_iff_forall

/-! ## The configuration that applies -/

namespace Config

/-- The file of the configuration that applies: the one that is named, or else the one of the usual name in the working
directory if it is there. -/
def file? (disk : Disk) (named : Option Path) (directory : Path) : Option Path :=
  named.or (if disk.isFile (directory.join usualName) then some (directory.join usualName) else none)

/-- The configuration that applies; without a file it has nothing in it. -/
inductive Applies (disk : Disk) (named : Option Path) (directory : Path) : Config → Prop
  | nothing (absent : file? disk named directory = none) : Applies disk named directory {}
  | loaded {path : Path} {config : Config} (file : file? disk named directory = some path)
      (loads : load disk path = .ok config) : Applies disk named directory config

/-- The configuration that applies cannot be loaded. -/
def Fails (disk : Disk) (named : Option Path) (directory : Path) (error : ConfigError) : Prop :=
  ∃ path, file? disk named directory = some path ∧ load disk path = .error error

variable {disk : Disk} {named : Option Path} {directory : Path}

theorem discover_eq : discover disk named directory = (file? disk named directory).elim (.ok {}) (load disk) := by
  unfold discover file?
  cases named with
  | some path => rfl
  | none =>
    rw [Option.none_or]
    by_cases h : disk.isFile (directory.join usualName) = true
    · simp [h]
    · simp [h]

theorem discover_eq_ok_iff {config : Config} :
    discover disk named directory = .ok config ↔ Applies disk named directory config := by
  rw [discover_eq]
  constructor
  · intro h
    cases hfile : file? disk named directory with
    | none =>
      rw [hfile] at h
      cases h
      exact .nothing hfile
    | some path =>
      rw [hfile] at h
      exact .loaded hfile h
  · intro h
    cases h with
    | nothing habsent => rw [habsent, Option.elim_none]
    | loaded hfile hloads => rw [hfile, Option.elim_some, hloads]

theorem discover_eq_error_iff {error : ConfigError} :
    discover disk named directory = .error error ↔ Fails disk named directory error := by
  rw [discover_eq, Fails]
  cases file? disk named directory with
  | none => simp
  | some path => simp

end Config

/-! ## One setting -/

/-- A setting that is decided by what is given, else by what is configured, else by what is usual. What is given is
understood by `reads`. -/
inductive Decides {α β : Type} (reads : α → β → Prop) (given : Option α) (configured usual : Option β) : β → Prop
  | given {a : α} {b : β} (here : given = some a) (means : reads a b) : Decides reads given configured usual b
  | configured {b : β} (silent : given = none) (here : configured = some b) : Decides reads given configured usual b
  | usual {b : β} (silent : given = none) (unset : configured = none) (here : usual = some b) :
      Decides reads given configured usual b

section Deciding

variable {α β : Type} {reads : α → β → Prop} {given : Option α} {configured usual : Option β} {b : β}

/-- **What is given comes out the same** whatever is configured. -/
theorem Decides.eq_of_given {configured' usual' : Option β} {b' : β}
    (h : Decides reads given configured usual b) (hreads : Relator.RightUnique reads) (hgiven : given.isSome = true)
    (h' : Decides reads given configured' usual' b') : b = b' := by
  cases h with
  | given here means =>
    cases h' with
    | given here' means' =>
      cases Option.some.inj (here.symm.trans here')
      exact hreads means means'
    | configured hsilent _ => cases hsilent.symm.trans here
    | usual hsilent _ _ => cases hsilent.symm.trans here
  | configured hsilent _ =>
    rw [hsilent] at hgiven
    cases hgiven
  | usual hsilent _ _ =>
    rw [hsilent] at hgiven
    cases hgiven

theorem decides_some_iff {a : α} : Decides reads (some a) configured usual b ↔ reads a b := by
  constructor
  · intro h
    cases h with
    | given here means =>
      cases here
      exact means
    | configured hsilent _ => cases hsilent
    | usual hsilent _ _ => cases hsilent
  · intro means
    exact .given rfl means

theorem decides_none_iff : Decides reads none configured usual b ↔ configured.or usual = some b := by
  constructor
  · intro h
    cases h with
    | given here _ => cases here
    | configured _ here => rw [here, Option.some_or]
    | usual _ hunset here => rw [hunset, here, Option.none_or]
  · intro h
    cases configured with
    | some c => exact .configured rfl h
    | none => exact .usual rfl rfl h

/-- A value is taken from the first place that has one. -/
theorem decides_eq_iff {given : Option β} :
    Decides (· = ·) given configured usual b ↔ given.or (configured.or usual) = some b := by
  cases given with
  | some a => rw [decides_some_iff, Option.some_or, Option.some_inj]
  | none => rw [decides_none_iff, Option.none_or]

end Deciding

namespace Settings

/-! ## All settings -/

/-- The source that the command line gives: a built-in system comes before a file. -/
def sourceArgument (args : GenerateArguments) : Option Source :=
  (args.builtin.map Source.builtin).or (args.input.map Source.file)

/-- The targets that the command line gives, if it gives any. -/
def targetArguments (args : GenerateArguments) : Option (List String) :=
  if args.targets = [] then none else some args.targets

/-- Settings that arguments and a configuration decide on, each one by itself. -/
structure Decided (args : GenerateArguments) (config : Config) (settings : Settings) : Prop where
  source : Decides (· = ·) (sourceArgument args) (config.input.map Source.file) none settings.source
  targets : ∃ chosen,
    Decides (List.Forall₂ Target.IsNamed) (targetArguments args) config.targets (some Target.all) chosen ∧
      FirstsOf chosen settings.targets
  policy : Decides ComponentPolicy.IsNamed args.policy config.policy (some .usual) settings.policy
  output : Decides (· = ·) args.output config.output (some defaultOutput) settings.output

/-- The arguments or the configuration give a source. -/
def GivesSource (args : GenerateArguments) (config : Config) : Prop :=
  args.builtin.isSome = true ∨ args.input.isSome = true ∨ config.input.isSome = true

/-- Why there are no settings under a configuration. Each reason counts only if those before it do not hold. -/
inductive Refused (args : GenerateArguments) (config : Config) : CommandError → Prop
  | source (silent : ¬GivesSource args config) : Refused args config .noSource
  | target {earlier later : List String} {name : String} (source : GivesSource args config)
      (split : args.targets = earlier ++ name :: later)
      (known : ∀ other ∈ earlier, ∃ target, Target.IsNamed other target)
      (unknown : ∀ target, ¬Target.IsNamed name target) : Refused args config (.generate (.unknownTarget name))
  | policy {name : String} (source : GivesSource args config)
      (known : ∀ other ∈ args.targets, ∃ target, Target.IsNamed other target) (given : args.policy = some name)
      (unknown : ∀ policy, ¬ComponentPolicy.IsNamed name policy) :
      Refused args config (.generate (.unknownPolicy name))

variable {args : GenerateArguments} {config : Config}

theorem source?_eq_some_iff {source : Source} : source? args config = some source ↔
    Decides (· = ·) (sourceArgument args) (config.input.map Source.file) none source := by
  rw [decides_eq_iff, source?, sourceArgument]
  cases args.builtin with
  | some name => rfl
  | none =>
    cases args.input with
    | some path => rfl
    | none => simp

theorem isSome_source?_iff : (source? args config).isSome = true ↔ GivesSource args config := by
  rw [source?, GivesSource]
  cases args.builtin with
  | some name => simp
  | none =>
    cases args.input with
    | some path => simp
    | none => simp

theorem chooseTargets_eq_ok_iff {chosen : List Target} : chooseTargets args.targets config = .ok chosen ↔
    Decides (List.Forall₂ Target.IsNamed) (targetArguments args) config.targets (some Target.all) chosen := by
  unfold chooseTargets targetArguments
  by_cases hempty : args.targets = []
  · rw [if_pos (by simp [hempty]), if_pos hempty, decides_none_iff, Option.or_some]
    simp
  · rw [if_neg (by simpa using hempty), if_neg hempty, decides_some_iff, mapM_eq_ok_iff]
    simp only [Target.parse_eq_ok_iff]

theorem succeeds_chooseTargets_iff : Succeeds (chooseTargets args.targets config) ↔
    ∀ other ∈ args.targets, ∃ target, Target.IsNamed other target := by
  unfold chooseTargets
  by_cases hempty : args.targets = []
  · simp [hempty, succeeds_ok]
  · rw [if_neg (by simpa using hempty), succeeds_mapM]
    simp only [Succeeds, Target.parse_eq_ok_iff]

/-- The first argument that names no target is the error. -/
theorem chooseTargets_eq_error_iff {error : GenerateError} : chooseTargets args.targets config = .error error ↔
    ∃ earlier name later, args.targets = earlier ++ name :: later ∧
      (∀ other ∈ earlier, ∃ target, Target.IsNamed other target) ∧ (∀ target, ¬Target.IsNamed name target) ∧
      error = .unknownTarget name := by
  unfold chooseTargets
  by_cases hempty : args.targets = []
  · simp [hempty]
  · rw [if_neg (by simpa using hempty), mapM_eq_error_iff]
    simp only [Succeeds, Target.parse_eq_ok_iff, Target.parse_eq_error_iff]

theorem choosePolicy_eq_ok_iff {policy : ComponentPolicy} : choosePolicy args.policy config = .ok policy ↔
    Decides ComponentPolicy.IsNamed args.policy config.policy (some .usual) policy := by
  cases args.policy with
  | some name => rw [choosePolicy, ComponentPolicy.parse_eq_ok_iff, decides_some_iff]
  | none =>
    rw [choosePolicy, decides_none_iff, Option.or_some]
    simp

theorem choosePolicy_eq_error_iff {error : GenerateError} : choosePolicy args.policy config = .error error ↔
    ∃ name, args.policy = some name ∧ (∀ policy, ¬ComponentPolicy.IsNamed name policy) ∧
      error = .unknownPolicy name := by
  cases args.policy with
  | some name => simp [choosePolicy, ComponentPolicy.parse_eq_error_iff]
  | none => simp [choosePolicy]

/-- **The settings under a configuration are decided one by one.** -/
theorem ofConfig_eq_ok_iff {settings : Settings} :
    ofConfig args config = .ok settings ↔ Decided args config settings := by
  have houtput : ∀ output, Decides (· = ·) args.output config.output (some defaultOutput) output ↔
      (args.output.or config.output).getD defaultOutput = output := by
    intro output
    rw [decides_eq_iff, ← Option.or_assoc, Option.or_some, Option.some_inj]
  unfold ofConfig
  simp only [bind_eq_ok_iff, elim_eq_ok_iff, mapError_eq_ok_iff, source?_eq_some_iff, chooseTargets_eq_ok_iff,
    choosePolicy_eq_ok_iff]
  constructor
  · rintro ⟨source, hsource, chosen, htargets, policy, hpolicy, h⟩
    cases h
    exact ⟨hsource, ⟨chosen, htargets, firstsOf_distinct chosen⟩, hpolicy, (houtput _).2 rfl⟩
  · rintro ⟨hsource, ⟨chosen, htargets, hfirsts⟩, hpolicy, houtput'⟩
    refine ⟨_, hsource, chosen, htargets, _, hpolicy, ?_⟩
    rw [(houtput _).1 houtput', ← firstsOf_iff.1 hfirsts]
    rfl

/-- **Under a configuration the first reason that holds is the error.** -/
theorem ofConfig_eq_error_iff {error : CommandError} :
    ofConfig args config = .error error ↔ Refused args config error := by
  unfold ofConfig
  simp only [bind_eq_error_iff, elim_eq_ok_iff, elim_eq_error_iff, mapError_eq_ok_iff, mapError_eq_error_iff,
    chooseTargets_eq_error_iff, choosePolicy_eq_error_iff]
  constructor
  · rintro (⟨hnone, rfl⟩ | ⟨source, hsource, hrest⟩)
    · refine .source fun hgives => ?_
      have hsome := isSome_source?_iff.2 hgives
      rw [hnone] at hsome
      cases hsome
    · have hgives : GivesSource args config := isSome_source?_iff.1 (by rw [hsource, Option.isSome_some])
      rcases hrest with ⟨_, ⟨earlier, name, later, hsplit, hknown, hunknown, rfl⟩, rfl⟩ | ⟨chosen, hchosen, hrest⟩
      · exact .target hgives hsplit hknown hunknown
      · have hknown := succeeds_chooseTargets_iff.1 ⟨chosen, hchosen⟩
        rcases hrest with ⟨_, ⟨name, hgiven, hunknown, rfl⟩, rfl⟩ | ⟨_, _, hend⟩
        · exact .policy hgives hknown hgiven hunknown
        · cases hend
  · intro h
    cases h with
    | source hsilent =>
      exact .inl ⟨Option.not_isSome_iff_eq_none.1 fun hsome => hsilent (isSome_source?_iff.1 hsome), rfl⟩
    | target hgives hsplit hknown hunknown =>
      obtain ⟨source, hsource⟩ := Option.isSome_iff_exists.1 (isSome_source?_iff.2 hgives)
      exact .inr ⟨source, hsource, .inl ⟨_, ⟨_, _, _, hsplit, hknown, hunknown, rfl⟩, rfl⟩⟩
    | policy hgives hknown hgiven hunknown =>
      obtain ⟨source, hsource⟩ := Option.isSome_iff_exists.1 (isSome_source?_iff.2 hgives)
      obtain ⟨chosen, hchosen⟩ := succeeds_chooseTargets_iff.2 hknown
      exact .inr ⟨source, hsource, .inr ⟨chosen, hchosen, .inl ⟨_, ⟨_, hgiven, hunknown, rfl⟩, rfl⟩⟩⟩

theorem resolve_eq_ok_iff {disk : Disk} {directory : Path} {settings : Settings} :
    resolve disk args directory = .ok settings ↔
      ∃ config, Config.Applies disk args.config directory config ∧ Decided args config settings := by
  unfold resolve
  simp only [bind_eq_ok_iff, mapError_eq_ok_iff, Config.discover_eq_ok_iff, ofConfig_eq_ok_iff]

theorem resolve_eq_error_iff {disk : Disk} {directory : Path} {error : CommandError} :
    resolve disk args directory = .error error ↔
      (∃ fault, Config.Fails disk args.config directory fault ∧ error = .config fault) ∨
        ∃ config, Config.Applies disk args.config directory config ∧ Refused args config error := by
  unfold resolve
  simp only [bind_eq_error_iff, mapError_eq_ok_iff, mapError_eq_error_iff, Config.discover_eq_ok_iff,
    Config.discover_eq_error_iff, ofConfig_eq_error_iff]

theorem resolve_of_applies {disk : Disk} {directory : Path} (h : Config.Applies disk args.config directory config) :
    resolve disk args directory = ofConfig args config := by
  rw [resolve, Config.discover_eq_ok_iff.2 h]
  rfl

/-! ## Two configurations -/

/-- Settings that agree in all that the command line says something about. -/
structure AgreeWhereGiven (args : GenerateArguments) (a b : Settings) : Prop where
  source : (sourceArgument args).isSome = true → a.source = b.source
  targets : args.targets ≠ [] → a.targets = b.targets
  policy : args.policy.isSome = true → a.policy = b.policy
  output : args.output.isSome = true → a.output = b.output

theorem Decided.agree {named : Option Path} {config' : Config} {a b : Settings} (ha : Decided args config a)
    (hb : Decided { args with config := named } config' b) : AgreeWhereGiven args a b where
  source hgiven := ha.source.eq_of_given (fun _ _ _ h h' => h.symm.trans h') hgiven hb.source
  targets hgiven := by
    obtain ⟨chosen, hchosen, hfirsts⟩ := ha.targets
    obtain ⟨chosen', hchosen', hfirsts'⟩ := hb.targets
    have hunique : Relator.RightUnique Target.IsNamed := fun _ _ _ h h' => Target.eq_of_shared_name h h'
    have hsome : (targetArguments args).isSome = true := by simpa [targetArguments] using hgiven
    have hsame := hchosen.eq_of_given hunique.forall₂ hsome hchosen'
    rw [firstsOf_iff.1 hfirsts, firstsOf_iff.1 hfirsts', hsame]
  policy hgiven := by
    refine ha.policy.eq_of_given (fun name policy policy' h h' => ?_) hgiven hb.policy
    have hparse := (ComponentPolicy.parse_eq_ok_iff.2 h).symm.trans (ComponentPolicy.parse_eq_ok_iff.2 h')
    exact Except.ok.inj hparse
  output hgiven := ha.output.eq_of_given (fun _ _ _ h h' => h.symm.trans h') hgiven hb.output

/-- With a source on the command line the configuration has no say in what is refused. -/
theorem Refused.of_given {named : Option Path} {config' : Config} {error : CommandError}
    (hgiven : (sourceArgument args).isSome = true) (h : Refused args config error) :
    Refused { args with config := named } config' error := by
  have hsource : args.builtin.isSome = true ∨ args.input.isSome = true := by
    simpa [sourceArgument] using hgiven
  have hgives : GivesSource { args with config := named } config' := hsource.imp_right Or.inl
  cases h with
  | source hsilent => exact absurd (hsource.imp_right Or.inl) hsilent
  | target _ hsplit hknown hunknown => exact .target hgives hsplit hknown hunknown
  | policy _ hknown hgiven hunknown => exact .policy hgives hknown hgiven hunknown

/-- **What the command line says comes before the configuration, setting by setting.** Settings are refused exactly if
the configuration that applies cannot be loaded or, in this order, no source is given, an argument names no target, or
the argument for the policy names none. Else each setting is decided by itself, and the targets are the different ones
that are chosen, in the order in which they first come. Under any two configurations that load, what the command line
says comes out the same, and with a source on the command line the same is refused. -/
theorem arguments_come_first (disk : Disk) (args : GenerateArguments) (directory : Path) :
    (∀ error, resolve disk args directory = .error error ↔
      (∃ fault, Config.Fails disk args.config directory fault ∧ error = .config fault) ∨
        ∃ config, Config.Applies disk args.config directory config ∧ Refused args config error) ∧
    (∀ settings, resolve disk args directory = .ok settings ↔
      ∃ config, Config.Applies disk args.config directory config ∧ Decided args config settings) ∧
    ∀ (disk' : Disk) (directory' : Path) (named' : Option Path) (config config' : Config),
      Config.Applies disk args.config directory config → Config.Applies disk' named' directory' config' →
        (∀ settings settings', resolve disk args directory = .ok settings →
          resolve disk' { args with config := named' } directory' = .ok settings' →
            AgreeWhereGiven args settings settings') ∧
        ((sourceArgument args).isSome = true → ∀ error, resolve disk args directory = .error error ↔
          resolve disk' { args with config := named' } directory' = .error error) := by
  refine ⟨fun error => resolve_eq_error_iff, fun settings => resolve_eq_ok_iff,
    fun disk' directory' named' config config' happlies happlies' => ⟨fun settings settings' h h' => ?_,
      fun hgiven error => ?_⟩⟩
  · obtain ⟨_, -, hdecided⟩ := resolve_eq_ok_iff.1 h
    obtain ⟨_, -, hdecided'⟩ := resolve_eq_ok_iff.1 h'
    exact hdecided.agree hdecided'
  · rw [resolve_of_applies happlies, resolve_of_applies happlies', ofConfig_eq_error_iff, ofConfig_eq_error_iff]
    exact ⟨Refused.of_given hgiven, Refused.of_given hgiven⟩

/-- A directory with a configuration of the usual name and another one that has to be named. -/
def twoConfigs : Disk where
  home := ["work"]
  entries := [(["work"], .directory),
    (["work", "typegen.config.json"],
      .file "\x7b\"output\":\"out\",\"targets\":[\"java\"],\"componentPolicy\":\"emit\"\x7d".toUTF8),
    (["work", "other.json"], .file "\x7b\"input\":\"in\",\"componentPolicy\":\"suppress\"\x7d".toUTF8)]

/-- A built-in system and three names for two targets. -/
def threeNames : GenerateArguments where
  builtin := some "chat"
  targets := ["ts", "Java", "TypeScript"]

def settingsOfUsual : Settings where
  source := .builtin "chat"
  output := ⟨"./out"⟩
  targets := [.typeScript, .java]
  policy := .emit

def settingsOfOther : Settings where
  source := .builtin "chat"
  output := defaultOutput
  targets := [.typeScript, .java]
  policy := .suppress

/-- The two configurations decide on the output and the policy, and have no say in the source and the targets. -/
theorem arguments_come_first_two_configs :
    resolve twoConfigs threeNames ⟨"."⟩ = .ok settingsOfUsual ∧
    resolve twoConfigs { threeNames with config := some ⟨"other.json"⟩ } ⟨"."⟩ = .ok settingsOfOther ∧
    AgreeWhereGiven threeNames settingsOfUsual settingsOfOther ∧
    resolve twoConfigs { threeNames with targets := ["ts", "cobol", "ada"] } ⟨"."⟩ =
      .error (.generate (.unknownTarget "cobol")) := by
  have hloads : (Config.load twoConfigs ⟨"./typegen.config.json"⟩).toOption =
        some { output := some ⟨"./out"⟩, targets := some [.java], policy := some .emit } ∧
      (Config.load twoConfigs ⟨"other.json"⟩).toOption =
        some { input := some ⟨"in"⟩, policy := some .suppress } := by decide +kernel
  have husual : Config.Applies twoConfigs none ⟨"."⟩ _ := .loaded rfl (eq_ok_of_toOption hloads.1)
  have hnamed : Config.Applies twoConfigs (some ⟨"other.json"⟩) ⟨"."⟩ _ := .loaded rfl (eq_ok_of_toOption hloads.2)
  have hnames : List.Forall₂ Target.IsNamed threeNames.targets [.typeScript, .java, .typeScript] :=
    .cons (by decide) (.cons (by decide) (.cons (by decide) .nil))
  have hfirsts : FirstsOf [Target.typeScript, .java, .typeScript] [.typeScript, .java] := firstsOf_iff.2 (by decide)
  obtain ⟨-, hdecided, htwo⟩ := arguments_come_first twoConfigs threeNames ⟨"."⟩
  have husual' := (hdecided settingsOfUsual).2
    ⟨_, husual, .given rfl rfl, ⟨_, .given rfl hnames, hfirsts⟩, .configured rfl rfl, .configured rfl rfl⟩
  have hother := ((arguments_come_first twoConfigs { threeNames with config := some ⟨"other.json"⟩ } ⟨"."⟩).2.1
    settingsOfOther).2
    ⟨_, hnamed, .given rfl rfl, ⟨_, .given rfl hnames, hfirsts⟩, .configured rfl rfl, .usual rfl rfl rfl⟩
  refine ⟨husual', hother, (htwo _ _ _ _ _ husual hnamed).1 _ _ husual' hother, ?_⟩
  refine ((arguments_come_first _ { threeNames with targets := ["ts", "cobol", "ada"] } _).1 _).2 (.inr ⟨_, husual, ?_⟩)
  refine .target (.inl rfl) (show _ = ["ts"] ++ "cobol" :: ["ada"] from rfl) (fun word hword => ?_) (fun target => ?_)
  · cases List.mem_singleton.1 hword
    exact ⟨.typeScript, by decide⟩
  · cases target <;> decide

end Settings

end TypeBindings
