import Mathlib.Data.List.Find
import TypeBindings.Proofs.Ownership

/-!
# Sealed unions in Java

The declaration of a union permits all its components, but that of a record implements one interface: a record that
several unions list implements the first of them (`Java.implements_iff`, `TypeSystem.unionOf?_eq_some_iff`). So the two
sides match for a union and its component if and only if no union before it lists the component
(`Java.permitted_implements_iff_first`), and they do not for the second of two unions with a record in common
(`Java.second_union_not_implemented`).
-/

namespace TypeBindings

/-! ## The first union that lists a name -/

/-- A definition that lists a name, with none before it that does. -/
def TypeSystem.FirstToList (s : TypeSystem) (name : String) (u : Definition) : Prop :=
  ∃ before after, s.definitions = before ++ u :: after ∧ name ∈ u.components ∧ ∀ v ∈ before, name ∉ v.components

namespace TypeSystem

variable {s : TypeSystem} {d : Definition}

/-- Where names are distinct, a definition that lists the name of a record has another name. -/
theorem name_ne_of_mem_components (hnames : (s.definitions.map (·.name)).Nodup) {u : Definition}
    (hd : d ∈ s.definitions) (hrecord : d.components = []) (hu : u ∈ s.definitions) (h : d.name ∈ u.components) :
    u.name ≠ d.name := by
  intro hname
  obtain rfl : u = d := List.inj_on_of_nodup_map hnames hu hd hname
  rw [hrecord] at h
  cases h

/-- **The union of a record is the first that lists it.** -/
theorem unionOf?_eq_some_iff (hnames : (s.definitions.map (·.name)).Nodup) (hd : d ∈ s.definitions)
    (hrecord : d.components = []) {u : Definition} : s.unionOf? d.name = some u ↔ s.FirstToList d.name u := by
  -- a union that lists the record is never the record itself, so asking for the name among the components is enough
  have hlists : ∀ v ∈ s.definitions, lists d.name v = decide (d.name ∈ v.components) := by
    intro v hv
    rw [Bool.eq_iff_iff, lists_iff, decide_eq_true_iff]
    exact ⟨fun h => h.2, fun h => ⟨name_ne_of_mem_components hnames hd hrecord hv h, h⟩⟩
  unfold unionOf? FirstToList
  rw [List.find?_congr hlists, List.find?_eq_some_iff_append]
  simp only [decide_eq_true_iff, Bool.not_eq_true', decide_eq_false_iff_not]
  constructor
  · rintro ⟨hu, before, after, hsplit, hbefore⟩
    exact ⟨before, after, hsplit, hu, hbefore⟩
  · rintro ⟨before, after, hsplit, hu, hbefore⟩
    exact ⟨hu, before, after, hsplit, hbefore⟩

end TypeSystem

namespace Java

/-! ## What a declaration permits and implements -/

/-- The line that opens the declaration of a union permits what the text names. -/
def Permits (s : TypeSystem) (d : Definition) (text : String) : Prop :=
  ⟨0, "public sealed interface " ++ d.name ++ " permits " ++ text ++ " \x7b"⟩ ∈ (declaration s d).lines

/-- What stands before the interfaces of a record, on the line that has them. -/
def recordFront (d : Definition) : String :=
  if d.properties.isEmpty then "public record " ++ d.name ++ "()" else ")"

/-- The declaration of a record implements what the text names. -/
def Implements (s : TypeSystem) (d : Definition) (text : String) : Prop :=
  ⟨0, recordFront d ++ (" implements " ++ text ++ " \x7b")⟩ ∈ (declaration s d).lines

/-- A union permits its components. -/
theorem permits_components (s : TypeSystem) {d : Definition} {name : String} (h : name ∈ d.components) :
    Permits s d (Text.joinWith ", " d.components) := by
  obtain ⟨_, body, _⟩ := d
  cases body with
  | record _ => cases h
  | enumeration _ => cases h
  | union components =>
    have hne : components.isEmpty = false := List.isEmpty_eq_false_iff.2 (List.ne_nil_of_mem h)
    refine List.mem_append_right _ ?_
    simp [bodyLines, hne, Definition.components]

theorem depth_of_mem_propertyLines {last : Bool} {p : Property} {line : Line} (h : line ∈ propertyLines last p) :
    line.depth = 1 := by
  unfold propertyLines documented at h
  rcases List.mem_append.1 h with h | h
  · split at h
    · cases h
    · obtain ⟨text, -, rfl⟩ := List.mem_map.1 h
      rfl
  · cases List.mem_singleton.1 h
    rfl

theorem depth_of_mem_componentLines : ∀ {properties : List Property} {line : Line}, line ∈ componentLines properties →
    line.depth = 1
  | [], _, h => by cases h
  | [_], _, h => depth_of_mem_propertyLines h
  | _ :: next :: rest, _, h => by
    rcases List.mem_append.1 h with h | h
    · exact depth_of_mem_propertyLines h
    · exact @depth_of_mem_componentLines (next :: rest) _ h

theorem head?_recordFront_append (d : Definition) (tail : String) :
    (recordFront d ++ tail).toList.head? = some 'p' ∨ (recordFront d ++ tail).toList.head? = some ')' := by
  unfold recordFront
  split
  · exact .inl (by simp)
  · exact .inr (by simp)

/-- No comment of a definition begins as the line with the interfaces of a record does. -/
theorem not_mem_documented (d : Definition) (tail : String) (description : Option String) :
    ⟨0, recordFront d ++ tail⟩ ∉ documented Comment.block 0 description := by
  intro h
  unfold documented at h
  split at h
  · cases h
  · obtain ⟨text, htext, hline⟩ := List.mem_map.1 h
    obtain rfl : text = recordFront d ++ tail := congrArg Line.text hline
    rcases Comment.head?_of_mem_block htext with hcomment | hcomment <;>
      rcases head?_recordFront_append d tail with hfront | hfront <;>
        rw [hfront] at hcomment <;> exact absurd hcomment (by decide)

/-- Of the lines of a record, the one that begins as the line with its interfaces is that line. -/
theorem mem_lines_iff (s : TypeSystem) {d : Definition} {r : Record} (hd : d.body = .record r) (tail : String) :
    ⟨0, recordFront d ++ tail⟩ ∈ (declaration s d).lines ↔ tail = recordTail s d := by
  have hproperties : d.properties = r.properties := by rw [Definition.properties, hd]
  have hclosing : recordFront d ++ tail ≠ "\x7d" := by
    intro h
    rcases head?_recordFront_append d tail with hfront | hfront <;> rw [h] at hfront <;> exact absurd hfront (by decide)
  have hlines : (⟨0, recordFront d ++ tail⟩ : Line) ∈ (declaration s d).lines ↔
      (⟨0, recordFront d ++ tail⟩ : Line) ∈
        (if r.properties.isEmpty then [⟨0, "public record " ++ d.name ++ "()" ++ recordTail s d⟩]
          else ⟨0, "public record " ++ d.name ++ "("⟩ :: componentLines r.properties ++
            [⟨0, ")" ++ recordTail s d⟩]) := by
    unfold declaration bodyLines
    cases hbase : d.base? <;>
      simp only [hd, List.mem_append, not_mem_documented d tail d.description, false_or, or_false, List.mem_singleton,
        List.not_mem_nil, Line.mk.injEq, hclosing, and_false, Nat.zero_ne_one, false_and]
  rw [hlines, recordFront, hproperties]
  split
  · simp
  · -- the other lines begin with a keyword or stand deeper
    have hcomponents : (⟨0, ")" ++ tail⟩ : Line) ∉ componentLines r.properties := by
      intro h
      cases depth_of_mem_componentLines h
    have hopening : ")" ++ tail ≠ "public record " ++ d.name ++ "(" := by
      intro h
      have hhead := congrArg (fun text => text.toList.head?) h
      simp at hhead
    simp [hcomponents, hopening]

/-- **A record implements the union that owns it, and nothing else.** -/
theorem implements_iff (s : TypeSystem) {d : Definition} {r : Record} (hd : d.body = .record r) {owner : String}
    (howner : owner? s d = some owner) (text : String) : Implements s d text ↔ text = owner := by
  unfold Implements
  rw [mem_lines_iff s hd, recordTail, howner]
  simp

/-! ## The two sides -/

theorem owner?_of_unionOf? {package : Option String} {definitions : List Definition} {d u : Definition} {r : Record}
    (hmem : d ∈ (TypeSystem.ofDefinitions package definitions).definitions) (hd : d.body = .record r)
    (hu : (TypeSystem.ofDefinitions package definitions).unionOf? d.name = some u) :
    owner? (TypeSystem.ofDefinitions package definitions) d = some u.name := by
  have hmarked : d.componentOnly = true := by
    rw [← TypeSystem.marked_ofDefinitions package definitions d hmem, TypeSystem.componentOnly_mark_iff]
    exact ⟨⟨r, hd⟩, .inr (TypeSystem.mem_listedNames_iff.2 ⟨u, hu⟩)⟩
  rw [owner?, if_pos hmarked, hu, Option.map_some]

/-- **A union and its component match if the union is the first that lists the component.** The declaration of the
union permits all its components. That of the component implements one union only, the first that lists it. -/
theorem permitted_implements_iff_first (package : Option String) (definitions : List Definition)
    (hnames : (definitions.map (·.name)).Nodup) :
    let s := TypeSystem.ofDefinitions package definitions
    ∀ union ∈ s.definitions, ∀ d ∈ s.definitions, (∃ r, d.body = .record r) → d.name ∈ union.components →
      Target.Declares .java s .emit union ∧ Target.Declares .java s .emit d ∧
      Permits s union (Text.joinWith ", " union.components) ∧
      (∃ owner ∈ s.definitions, ∀ text, Implements s d text ↔ text = owner.name) ∧
      (Implements s d union.name ↔ s.FirstToList d.name union) := by
  intro s union hunion d hd hrecord hname
  obtain ⟨r, hr⟩ := hrecord
  have hnone : d.components = [] := by rw [Definition.components, hr]
  have hdistinct : (s.definitions.map (·.name)).Nodup := by
    have hsame : s.definitions.map (·.name) = definitions.map (·.name) := by simp [s, TypeSystem.ofDefinitions]
    rwa [hsame]
  -- some union is found for the record, and all declarations are there
  have hlists : TypeSystem.lists d.name union = true :=
    TypeSystem.lists_iff.2 ⟨TypeSystem.name_ne_of_mem_components hdistinct hd hnone hunion hname, hname⟩
  obtain ⟨owner, howner⟩ := TypeSystem.mem_listedNames_iff.1 (TypeSystem.mem_listedNames.2 ⟨union, hunion, hlists⟩)
  have himplements := implements_iff s hr (owner?_of_unionOf? hd hr howner)
  have hmem := (TypeSystem.unionOf?_eq_some howner).1
  refine ⟨Target.declares_of_eligible .java (List.mem_filter.2 ⟨hunion, rfl⟩),
    Target.declares_of_eligible .java (List.mem_filter.2 ⟨hd, rfl⟩), permits_components s hname,
    ⟨owner, hmem, himplements⟩, ?_⟩
  rw [himplements, ← TypeSystem.unionOf?_eq_some_iff hdistinct hd hnone, howner, Option.some_inj]
  exact ⟨fun h => (List.inj_on_of_nodup_map hdistinct hunion hmem h).symm, fun h => congrArg _ h.symm⟩

/-- Two unions with a record in common. -/
def commonRecord : List Definition :=
  [.union "First" ["Common"], .union "Second" ["Common"], .record "Common" []]

/-- The record with its mark. -/
def commonMarked : Definition where
  name := "Common"
  body := .record { properties := [], componentOnly := true }

theorem permitted_implements_iff_first_common :
    let s := TypeSystem.ofDefinitions none commonRecord
    (commonRecord.map (·.name)).Nodup ∧ Definition.union "First" ["Common"] ∈ s.definitions ∧
      commonMarked ∈ s.definitions ∧ Permits s (.union "First" ["Common"]) "Common" ∧
      Implements s commonMarked "First" ∧ s.FirstToList "Common" (.union "First" ["Common"]) := by
  intro s
  have hfirst : Definition.union "First" ["Common"] ∈ s.definitions := by decide
  have hcommon : commonMarked ∈ s.definitions := by decide
  have hlisted : s.FirstToList "Common" (.union "First" ["Common"]) :=
    ⟨[], _, rfl, List.mem_singleton_self _, List.forall_mem_nil _⟩
  obtain ⟨-, -, hpermits, -, himplements⟩ := permitted_implements_iff_first none commonRecord (by decide) _ hfirst
    commonMarked hcommon ⟨_, rfl⟩ (List.mem_singleton_self _)
  exact ⟨by decide, hfirst, hcommon, hpermits, himplements.2 hlisted, hlisted⟩

/-- **The second of two unions permits the record that they have in common,** and the record does not implement it. -/
theorem second_union_not_implemented :
    let s := TypeSystem.ofDefinitions none commonRecord
    (commonRecord.map (·.name)).Nodup ∧ Definition.union "Second" ["Common"] ∈ s.definitions ∧
      commonMarked ∈ s.definitions ∧ Permits s (.union "Second" ["Common"]) "Common" ∧
      ¬ ∃ names, "Second" ∈ names ∧ Implements s commonMarked (Text.joinWith ", " names) := by
  intro s
  refine ⟨by decide, by decide, by decide, permits_components s (List.mem_singleton_self _), ?_⟩
  rintro ⟨names, hsecond, himplements⟩
  have howner : owner? s commonMarked = some "First" := by decide
  obtain ⟨before, after, hwithin⟩ : Text.Within "Second" (Text.joinWith ", " names) := Text.within_joinWith hsecond
  rw [(implements_iff s rfl howner _).1 himplements] at hwithin
  have hlength := congrArg String.length hwithin
  simp only [String.length_append] at hlength
  have hshort : "First".length = 5 := rfl
  have hlong : "Second".length = 6 := rfl
  omega

end Java

end TypeBindings
