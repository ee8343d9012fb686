import TypeBindings.Proofs.Breaches

/-!
# Validation finds the breaches

`Reports P findings` says that a list of findings tells of the breaches with `P`: of each once and in order. It holds of
a single finding (`reports_of_iff`), of findings one after the other (`Reports.append`), and of those that a walk along
a list gives (`reports_zipIdx`). So each rule reports its breaches, and validation reports them all
(`reports_findings`, `validate_reports_breaches`).
-/

namespace TypeBindings

def Breach.label (b : Breach) : String × Site :=
  (b.code, b.site)

def Finding.label (finding : Finding) : String × Site :=
  (finding.offence.code, finding.site)

/-- The findings tell of the breaches with `P`, of each once and in order. -/
def Reports (P : Breach → Prop) (findings : List Finding) : Prop :=
  ∃ breaches : List Breach, breaches.Pairwise Breach.Before ∧ (∀ b, b ∈ breaches ↔ P b) ∧
    findings.map Finding.label = breaches.map Breach.label

section Reports

variable {P Q : Breach → Prop} {xs ys : List Finding}

theorem Reports.congr (h : Reports P xs) (hiff : ∀ b, P b ↔ Q b) : Reports Q xs := by
  obtain ⟨breaches, hpairwise, hmem, hlabel⟩ := h
  exact ⟨breaches, hpairwise, fun b => (hmem b).trans (hiff b), hlabel⟩

theorem reports_nil : Reports (fun _ => False) [] :=
  ⟨[], .nil, fun b => by simp, rfl⟩

theorem reports_singleton {b : Breach} {f : Finding} (h : f.label = b.label) : Reports (fun b' => b' = b) [f] :=
  ⟨[b], List.pairwise_singleton _ _, fun b' => List.mem_singleton, by simp [h]⟩

/-- One finding if a condition holds, and none if not. -/
theorem reports_of_iff (b : Breach) {p : Prop} (hno : ¬p → xs = []) (hyes : p → ∃ f, xs = [f] ∧ f.label = b.label) :
    Reports (fun b' => b' = b ∧ p) xs := by
  by_cases hp : p
  · obtain ⟨f, rfl, hlabel⟩ := hyes hp
    exact (reports_singleton hlabel).congr fun b' => by simp [hp]
  · rw [hno hp]
    exact reports_nil.congr fun b' => by simp [hp]

theorem Reports.append (hxs : Reports P xs) (hys : Reports Q ys) (hbefore : ∀ a b, P a → Q b → Breach.Before a b) :
    Reports (fun b => P b ∨ Q b) (xs ++ ys) := by
  obtain ⟨as, hpairwise, hmem, hlabel⟩ := hxs
  obtain ⟨bs, hpairwise', hmem', hlabel'⟩ := hys
  refine ⟨as ++ bs, ?_, fun b => by rw [List.mem_append, hmem, hmem'], ?_⟩
  · rw [List.pairwise_append]
    exact ⟨hpairwise, hpairwise', fun a ha b hb => hbefore a b ((hmem a).1 ha) ((hmem' b).1 hb)⟩
  · rw [List.map_append, List.map_append, hlabel, hlabel']

/-- **A walk along a list** reports what its steps report, if the steps come in order. -/
theorem reports_zipIdx {α : Type} {R : Nat → α → Breach → Prop} {f : α × Nat → List Finding} (items : List α)
    (hstep : ∀ i x, items[i]? = some x → Reports (R i x) (f (x, i)))
    (hbefore : ∀ i j x y a b, i < j → R i x a → R j y b → Breach.Before a b) :
    Reports (fun b => ∃ i x, items[i]? = some x ∧ R i x b) (items.zipIdx.flatMap f) := by
  -- the last element is the last step
  induction items using List.reverseRecOn with
  | nil => exact reports_nil.congr fun b => by simp
  | append_singleton items x ih =>
    have hitems : ∀ (i : Nat) (y : α), items[i]? = some y → (items ++ [x])[i]? = some y := by
      intro i y hy
      rwa [List.getElem?_append_left (List.getElem?_eq_some_iff.1 hy).1]
    have hlast : (items ++ [x])[items.length]? = some x := by simp
    rw [List.zipIdx_append, List.flatMap_append]
    have hnew : Reports (R items.length x) (([x].zipIdx (0 + items.length)).flatMap f) := by
      simpa using hstep items.length x hlast
    refine ((ih fun i y hy => hstep i y (hitems i y hy)).append hnew ?_).congr fun b => ?_
    · rintro a b ⟨i, y, hy, ha⟩ hb
      exact hbefore i items.length y x a b (List.getElem?_eq_some_iff.1 hy).1 ha hb
    · constructor
      · rintro (⟨i, y, hy, hb⟩ | hb)
        · exact ⟨i, y, hitems i y hy, hb⟩
        · exact ⟨items.length, x, hlast, hb⟩
      · rintro ⟨i, y, hy, hb⟩
        rcases Nat.lt_or_ge i items.length with hi | hi
        · rw [List.getElem?_append_left hi] at hy
          exact .inl ⟨i, y, hy, hb⟩
        · have hlt := (List.getElem?_eq_some_iff.1 hy).1
          rw [List.length_append, List.length_singleton] at hlt
          obtain rfl : i = items.length := by omega
          rw [hlast] at hy
          cases hy
          exact .inr hb

/-- A walk that looks at one thing in each element. -/
theorem reports_each {α : Type} {p : α → Prop} {f : α × Nat → List Finding} (breach : Nat → Breach) (items : List α)
    (hstep : ∀ i x, items[i]? = some x → Reports (fun b => b = breach i ∧ p x) (f (x, i)))
    (hbefore : ∀ i j, i < j → Breach.Before (breach i) (breach j)) :
    Reports (fun b => ∃ i x, items[i]? = some x ∧ b = breach i ∧ p x) (items.zipIdx.flatMap f) := by
  refine reports_zipIdx items hstep ?_
  rintro i j x y _ _ hij ⟨rfl, _⟩ ⟨rfl, _⟩
  exact hbefore i j hij

end Reports

/-- Breaches of one rule come in the order of the definitions. -/
theorem Breach.Before.of_type_lt {a b : Breach} {i j : Nat} {part part' : List Nat} (hrule : a.rule = b.rule)
    (ha : a.place = i :: part) (hb : b.place = j :: part') (h : i < j) : Before a b := by
  refine .inr ⟨hrule, ?_⟩
  rw [ha, hb, List.cons_lt_cons_iff]
  exact .inl h

namespace TypeSystem

variable (s : TypeSystem)

/-! ## Rule by rule -/

theorem reports_duplicateTypes : Reports (fun b => b.rule = 0 ∧ b.IsIn s) s.duplicateTypes := by
  have hindex := NameIndex.isIndexOf_ofSystem s
  refine ⟨(NameIndex.ofSystem s).repeats.map fun r => .repeatedName r.first r.place, ?_, fun b => ?_, ?_⟩
  · rw [List.pairwise_map]
    refine (NameIndex.pairwise_repeats hindex).imp fun {a b} hbefore => .inr ⟨rfl, ?_⟩
    simp only [Breach.place, List.cons_lt_cons_iff]
    rcases hbefore with hlt | ⟨heq, hlt⟩
    · exact .inl hlt
    · exact .inr ⟨heq, .inl hlt⟩
  · rw [List.mem_map]
    constructor
    · rintro ⟨r, hr, rfl⟩
      exact ⟨rfl, .repeatedName ((NameIndex.mem_repeats hindex).1 hr)⟩
    · rintro ⟨hrule, hb⟩
      cases hb with
      | @repeatedName r hr => exact ⟨r, (NameIndex.mem_repeats hindex).2 hr, rfl⟩
      | _ => simp [Breach.rule] at hrule
  · simp only [duplicateTypes, NameIndex.repeats, List.map_flatMap, List.map_map]
    rfl

theorem reports_undefinedReferences (type : Nat) (d : Definition) (property : Nat) (p : Property) :
    Reports (fun b => b = .undefinedReference type property ∧ ∃ name, p.shape.Mentions name ∧ name ∉ s.names)
      (undefinedReferences (NameIndex.ofSystem s) type d property p) := by
  simp only [← Shape.mem_references_iff, ← NameIndex.contains_iff]
  unfold undefinedReferences
  -- a shape refers to one name at most, so there is one finding at most
  rcases p.shape.references_eq with hnil | ⟨name, hname⟩
  · rw [hnil]
    exact reports_nil.congr fun b => by simp
  · rw [hname]
    refine reports_of_iff _ (fun hno => ?_) fun hyes => ?_
    · simpa using hno
    · obtain ⟨name', hmem, hundefined⟩ := hyes
      rw [List.mem_singleton] at hmem
      subst hmem
      rw [List.filter_cons_of_pos (by simp [hundefined])]
      exact ⟨_, rfl, rfl⟩

theorem reports_undefinedParent (type : Nat) (d : Definition) :
    Reports (fun b => b = .undefinedParent type ∧ ∃ parent, d.base? = some parent ∧ parent ∉ s.names)
      (undefinedParent (NameIndex.ofSystem s) type d) := by
  simp only [← NameIndex.contains_iff]
  unfold undefinedParent
  refine reports_of_iff _ (fun hno => ?_) fun hyes => ?_
  · cases hbase : d.base? with
    | none => rfl
    | some parent => simpa [hbase] using hno
  · obtain ⟨parent, hbase, hundefined⟩ := hyes
    simp only [hbase, if_neg hundefined]
    exact ⟨_, rfl, rfl⟩

theorem reports_propertyReferences (type : Nat) (d : Definition) :
    Reports (fun b => ∃ property p, d.properties[property]? = some p ∧
        b = .undefinedReference type property ∧ ∃ name, p.shape.Mentions name ∧ name ∉ s.names)
      (d.properties.zipIdx.flatMap fun (p, property) =>
        undefinedReferences (NameIndex.ofSystem s) type d property p) :=
  reports_each _ d.properties (fun property p _ => s.reports_undefinedReferences type d property p)
    fun i j hij => .inr ⟨rfl, by simp [Breach.place, List.cons_lt_cons_iff, hij]⟩

theorem reports_undefinedNames : Reports (fun b => b.rule = 1 ∧ b.IsIn s) s.undefinedNames := by
  refine (reports_zipIdx s.definitions (fun type d _ =>
    (s.reports_propertyReferences type d).append (s.reports_undefinedParent type d) ?_) ?_).congr fun b => ?_
  · rintro _ _ ⟨property, p, _, rfl, _⟩ ⟨rfl, _⟩
    exact .inr ⟨rfl, by simp [Breach.place, List.cons_lt_cons_iff]⟩
  · rintro i j d e a b hij (⟨_, _, _, rfl, _⟩ | ⟨rfl, _⟩) (⟨_, _, _, rfl, _⟩ | ⟨rfl, _⟩) <;>
      exact .of_type_lt rfl rfl rfl hij
  · constructor
    · rintro ⟨type, d, hd, ⟨property, p, hp, rfl, name, hmentions, hname⟩ | ⟨rfl, parent, hparent, hname⟩⟩
      · exact ⟨rfl, .undefinedReference hd hp hmentions hname⟩
      · exact ⟨rfl, .undefinedParent hd hparent hname⟩
    · rintro ⟨hrule, hb⟩
      cases hb with
      | undefinedReference hd hp hmentions hname =>
        exact ⟨_, _, hd, .inl ⟨_, _, hp, rfl, _, hmentions, hname⟩⟩
      | undefinedParent hd hparent hname => exact ⟨_, _, hd, .inr ⟨rfl, _, hparent, hname⟩⟩
      | _ => simp [Breach.rule] at hrule

/-- What can be wrong with the component at the place `n` of a union. -/
def ComponentBreach (type n : Nat) (component : String) (b : Breach) : Prop :=
  (b = .undefinedComponent type n ∧ s.find? component = none) ∨
    (b = .nestedUnion type n ∧ ∃ first, s.find? component = some first ∧ first.isUnion = true)

theorem reports_componentFindings (type : Nat) (union : String) (n : Nat) (component : String) :
    Reports (s.ComponentBreach type n component)
      (componentFindings s (NameIndex.ofSystem s) type union component) := by
  unfold componentFindings ComponentBreach
  rw [NameIndex.resolve?_eq_find?]
  cases hfind : s.find? component with
  | none =>
    exact (reports_singleton (b := .undefinedComponent type n) rfl).congr fun b => by simp
  | some first =>
    have hone : Reports (fun b => b = .nestedUnion type n ∧ first.isUnion = true)
        (if first.isUnion then [⟨.nestedUnion union component, .parent type⟩] else []) :=
      reports_of_iff _ (fun hno => if_neg hno) fun hyes => ⟨_, if_pos hyes, rfl⟩
    exact hone.congr fun b => by simp

theorem reports_components (type : Nat) (union : String) (components : List String) :
    Reports (fun b => ∃ n component, components[n]? = some component ∧ s.ComponentBreach type n component b)
      (components.flatMap (componentFindings s (NameIndex.ofSystem s) type union)) := by
  have hnumbered : components.flatMap (componentFindings s (NameIndex.ofSystem s) type union) =
      components.zipIdx.flatMap fun item => componentFindings s (NameIndex.ofSystem s) type union item.1 := by
    conv_lhs => rw [← List.zipIdx_map_fst 0 components, List.flatMap_map]
  rw [hnumbered]
  refine reports_zipIdx components (fun n component _ => s.reports_componentFindings type union n component) ?_
  rintro i j c e a b hij (⟨rfl, _⟩ | ⟨rfl, _⟩) (⟨rfl, _⟩ | ⟨rfl, _⟩) <;>
    exact .inr ⟨rfl, by simp [Breach.place, List.cons_lt_cons_iff, hij]⟩

/-- What is wrong with a definition as a union. -/
theorem reports_union (type : Nat) (d : Definition) :
    Reports (fun b => (b = .emptyUnion type ∧ d.body = .union []) ∨
        ∃ n component, d.components[n]? = some component ∧ s.ComponentBreach type n component b)
      (match d.body with
        | .union [] => [⟨.emptyUnion d.name, .parent type⟩]
        | .union components => components.flatMap (componentFindings s (NameIndex.ofSystem s) type d.name)
        | _ => []) := by
  obtain ⟨name, body, description⟩ := d
  cases body with
  | record _ => exact reports_nil.congr fun b => by simp [Definition.components]
  | enumeration _ => exact reports_nil.congr fun b => by simp [Definition.components]
  | union components =>
    cases components with
    | nil =>
      exact (reports_singleton (b := .emptyUnion type) rfl).congr fun b => by simp [Definition.components]
    | cons component rest =>
      exact (s.reports_components type name (component :: rest)).congr fun b => by simp [Definition.components]

theorem reports_unionFindings : Reports (fun b => b.rule = 2 ∧ b.IsIn s) s.unionFindings := by
  refine (reports_zipIdx s.definitions (fun type d _ => s.reports_union type d) ?_).congr fun b => ?_
  · rintro i j d e a b hij (⟨rfl, _⟩ | ⟨_, _, _, ⟨rfl, _⟩ | ⟨rfl, _⟩⟩) (⟨rfl, _⟩ | ⟨_, _, _, ⟨rfl, _⟩ | ⟨rfl, _⟩⟩) <;>
      exact .of_type_lt rfl rfl rfl hij
  · constructor
    · rintro ⟨type, d, hd, ⟨rfl, hbody⟩ | ⟨n, component, hn, ⟨rfl, hfind⟩ | ⟨rfl, first, hfind, hunion⟩⟩⟩
      · exact ⟨rfl, .emptyUnion hd hbody⟩
      · exact ⟨rfl, .undefinedComponent hd hn hfind⟩
      · exact ⟨rfl, .nestedUnion hd hn hfind hunion⟩
    · rintro ⟨hrule, hb⟩
      cases hb with
      | emptyUnion hd hbody => exact ⟨_, _, hd, .inl ⟨rfl, hbody⟩⟩
      | undefinedComponent hd hn hfind => exact ⟨_, _, hd, .inr ⟨_, _, hn, .inl ⟨rfl, hfind⟩⟩⟩
      | nestedUnion hd hn hfind hunion => exact ⟨_, _, hd, .inr ⟨_, _, hn, .inr ⟨rfl, _, hfind, hunion⟩⟩⟩
      | _ => simp [Breach.rule] at hrule

theorem reports_propertyKinds (type : Nat) (d : Definition) :
    Reports (fun b => ∃ property p, d.properties[property]? = some p ∧ b = .unknownKind type property ∧
        p.shape.HasUnknownPart)
      (d.properties.zipIdx.flatMap fun (p, property) =>
        if p.shape.hasUnknown then [⟨.unknownKind d.name p.name, .propertyShape type property⟩] else []) := by
  simp only [← Shape.hasUnknown_iff]
  exact reports_each _ d.properties
    (fun property p _ => reports_of_iff _ (fun hno => if_neg hno) fun hyes => ⟨_, if_pos hyes, rfl⟩)
    fun i j hij => .inr ⟨rfl, by simp [Breach.place, List.cons_lt_cons_iff, hij]⟩

theorem reports_unknownKinds : Reports (fun b => b.rule = 3 ∧ b.IsIn s) s.unknownKinds := by
  refine (reports_zipIdx s.definitions (fun type d _ => reports_propertyKinds type d) ?_).congr fun b => ?_
  · rintro i j d e a b hij ⟨_, _, _, rfl, _⟩ ⟨_, _, _, rfl, _⟩
    exact .of_type_lt rfl rfl rfl hij
  · constructor
    · rintro ⟨type, d, hd, property, p, hp, rfl, hpart⟩
      exact ⟨rfl, .unknownKind hd hp hpart⟩
    · rintro ⟨hrule, hb⟩
      cases hb with
      | unknownKind hd hp hpart => exact ⟨_, _, hd, _, _, hp, rfl, hpart⟩
      | _ => simp [Breach.rule] at hrule

/-- One name is looked at. -/
theorem reports_badName (named : Named) (name : String) {site : Site} {b : Breach}
    (hcode : b.code = "W_INVALID_IDENTIFIER") (hsite : b.site = site) :
    Reports (fun b' => b' = b ∧ ¬Text.IsWord name) (badName named name site) := by
  rw [← Text.isWord_iff]
  refine reports_of_iff _ (fun hno => if_pos (not_not.1 hno)) fun hyes => ⟨_, if_neg hyes, ?_⟩
  rw [Breach.label, hcode, hsite]
  rfl

theorem reports_propertyNames (type : Nat) (d : Definition) :
    Reports (fun b => ∃ property p, d.properties[property]? = some p ∧ b = .badPropertyName type property ∧
        ¬Text.IsWord p.name)
      (d.properties.zipIdx.flatMap fun (p, property) => badName .property p.name (.propertyName type property)) :=
  reports_each _ d.properties (fun property p _ => reports_badName .property p.name rfl rfl)
    fun i j hij => .inr ⟨rfl, by simp [Breach.place, List.cons_lt_cons_iff, hij]⟩

theorem reports_values (type : Nat) (d : Definition) :
    Reports (fun b => ∃ n value, d.values[n]? = some value ∧ b = .badValue type n ∧ ¬Text.IsWord value)
      (d.values.zipIdx.flatMap fun (value, n) => badName .value value (.value type n)) :=
  reports_each _ d.values (fun n value _ => reports_badName .value value rfl rfl)
    fun i j hij => .inr ⟨rfl, by simp [Breach.place, List.cons_lt_cons_iff, hij]⟩

theorem reports_badNames : Reports (fun b => b.rule = 4 ∧ b.IsIn s) s.badNames := by
  refine (reports_zipIdx s.definitions (fun type d _ =>
    ((reports_badName (b := .badTypeName type) .type d.name rfl rfl).append (reports_propertyNames type d) ?_).append
      (reports_values type d) ?_) ?_).congr fun b => ?_
  · rintro _ _ ⟨rfl, _⟩ ⟨_, _, _, rfl, _⟩
    exact .inr ⟨rfl, by simp [Breach.place, List.cons_lt_cons_iff]⟩
  · rintro _ _ (⟨rfl, _⟩ | ⟨_, _, _, rfl, _⟩) ⟨_, _, _, rfl, _⟩ <;>
      exact .inr ⟨rfl, by simp [Breach.place, List.cons_lt_cons_iff]⟩
  · rintro i j d e a b hij ((⟨rfl, _⟩ | ⟨_, _, _, rfl, _⟩) | ⟨_, _, _, rfl, _⟩)
      ((⟨rfl, _⟩ | ⟨_, _, _, rfl, _⟩) | ⟨_, _, _, rfl, _⟩) <;> exact .of_type_lt rfl rfl rfl hij
  · constructor
    · rintro ⟨type, d, hd, (⟨rfl, hname⟩ | ⟨property, p, hp, rfl, hname⟩) | ⟨n, value, hvalue, rfl, hname⟩⟩
      · exact ⟨rfl, .badTypeName hd hname⟩
      · exact ⟨rfl, .badPropertyName hd hp hname⟩
      · exact ⟨rfl, .badValue hd hvalue hname⟩
    · rintro ⟨hrule, hb⟩
      cases hb with
      | badTypeName hd hname => exact ⟨_, _, hd, .inl (.inl ⟨rfl, hname⟩)⟩
      | badPropertyName hd hp hname => exact ⟨_, _, hd, .inl (.inr ⟨_, _, hp, rfl, hname⟩)⟩
      | badValue hd hvalue hname => exact ⟨_, _, hd, .inr ⟨_, _, hvalue, rfl, hname⟩⟩
      | _ => simp [Breach.rule] at hrule

/-! ## All rules -/

/-- **Validation finds the breaches**: each once, rule by rule and in order. -/
theorem reports_findings : Reports (fun b => b.IsIn s) s.findings := by
  have hall := (((s.reports_duplicateTypes.append s.reports_undefinedNames ?_).append s.reports_unionFindings ?_).append
    s.reports_unknownKinds ?_).append s.reports_badNames ?_
  · refine hall.congr fun b => ⟨fun h => ?_, fun h => ?_⟩
    · rcases h with (((h | h) | h) | h) | h <;> exact h.2
    · cases b <;> simp [Breach.rule, h]
  -- what is left is that the breaches of a rule come before those of the rules behind it
  all_goals
    intro a b ha hb
    refine .inl ?_
    grind

/-- The entries of a report tell of the breaches, each with its code, the file and the path of its place. -/
theorem exists_breaches (file : String) :
    ∃ breaches : List Breach, breaches.Pairwise Breach.Before ∧ (∀ b, b ∈ breaches ↔ b.IsIn s) ∧
      ((s.validate file).entries.map fun entry => (entry.code, entry.file, entry.path)) =
        breaches.map fun b => (b.code, file, b.site.path) := by
  obtain ⟨breaches, hpairwise, hmem, hlabel⟩ := s.reports_findings
  refine ⟨breaches, hpairwise, hmem, ?_⟩
  have hwords := congrArg (List.map fun label : String × Site => (label.1, file, label.2.path)) hlabel
  rw [List.map_map, List.map_map] at hwords
  rw [entries_validate, List.map_map]
  exact hwords

variable {s}

end TypeSystem

end TypeBindings
