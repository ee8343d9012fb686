import TypeBindings.TypeSystem

/-!
# Marks on components

Marking changes nothing but the mark of a record (`mark_eq_or`), so names and components stay, and with them the names
that unions list (`listedNames_map_mark`). A marked system is therefore one that marking leaves alone
(`marked_ofDefinitions`), and so is what is left of it when the marked records are taken out
(`Marked.ofDefinitions_unmarked`).
-/

namespace TypeBindings

/-- Only records are marked, and records have no components. -/
theorem Definition.components_of_componentOnly {d : Definition} (h : d.componentOnly = true) : d.components = [] := by
  unfold Definition.componentOnly at h
  unfold Definition.components
  split at h
  · rename_i hb
    rw [hb]
  · cases h

namespace TypeSystem

/-! ## One mark -/

/-- Marking leaves a definition alone, or it marks a record whose name is listed. -/
theorem mark_eq_or (listed : List String) (d : Definition) :
    mark listed d = d ∨ ∃ r, d.body = .record r ∧ d.name ∈ listed ∧
      mark listed d = { d with body := .record { r with componentOnly := true } } := by
  unfold mark
  split
  · rename_i r hr
    split
    · rename_i hname
      exact Or.inr ⟨r, hr, hname, rfl⟩
    · exact Or.inl rfl
  · exact Or.inl rfl

@[simp] theorem name_mark (listed : List String) (d : Definition) : (mark listed d).name = d.name := by
  rcases mark_eq_or listed d with h | ⟨r, _, _, h⟩
  · rw [h]
  · rw [h]

@[simp] theorem components_mark (listed : List String) (d : Definition) :
    (mark listed d).components = d.components := by
  rcases mark_eq_or listed d with h | ⟨r, hr, _, h⟩
  · rw [h]
  · rw [h]
    unfold Definition.components
    rw [hr]

/-- A record whose name is listed is marked afterwards. -/
theorem mark_of_listed {listed : List String} {d : Definition} {r : Record} (hr : d.body = .record r)
    (h : d.name ∈ listed) : mark listed d = { d with body := .record { r with componentOnly := true } } := by
  unfold mark
  rw [hr]
  exact if_pos h

theorem mark_mark (listed : List String) (d : Definition) : mark listed (mark listed d) = mark listed d := by
  rcases mark_eq_or listed d with h | ⟨r, _, hname, h⟩
  · rw [h, h]
  · rw [h]
    exact mark_of_listed (r := { r with componentOnly := true }) rfl hname

/-! ## The marks of a system -/

theorem listedNames_map_mark (listed : List String) (definitions : List Definition) :
    listedNames (definitions.map (mark listed)) = listedNames definitions := by
  simp only [listedNames, List.flatMap_map, components_mark, name_mark]

/-- A system in which every record that a union lists is marked already. -/
def Marked (s : TypeSystem) : Prop :=
  ∀ d ∈ s.definitions, mark (listedNames s.definitions) d = d

theorem Marked.ofDefinitions_eq {s : TypeSystem} (h : s.Marked) : ofDefinitions s.package s.definitions = s := by
  have hmap : s.definitions.map (mark (listedNames s.definitions)) = s.definitions :=
    (List.map_congr_left h).trans (List.map_id' _)
  unfold ofDefinitions
  rw [hmap]

/-- **Marking once is enough.** -/
theorem marked_ofDefinitions (package : Option String) (definitions : List Definition) :
    (ofDefinitions package definitions).Marked := by
  intro d hd
  obtain ⟨d', _, rfl⟩ := List.mem_map.1 hd
  have hlisted : listedNames (ofDefinitions package definitions).definitions = listedNames definitions :=
    listedNames_map_mark _ _
  rw [hlisted]
  exact mark_mark _ d'

/-! ## Without the marked records -/

/-- The definitions that are no mere components. -/
def unmarked (definitions : List Definition) : List Definition :=
  definitions.filter fun d => !d.componentOnly

/-- No union is taken out, so the same names are listed. -/
theorem listedNames_unmarked (definitions : List Definition) :
    listedNames (unmarked definitions) = listedNames definitions := by
  induction definitions with
  | nil => rfl
  | cons d rest ih =>
    unfold listedNames unmarked at *
    cases hd : d.componentOnly with
    | true =>
      rw [List.filter_cons_of_neg (by simp [hd]), ih, List.flatMap_cons,
        Definition.components_of_componentOnly hd, List.filter_nil, List.nil_append]
    | false => rw [List.filter_cons_of_pos (by simp [hd]), List.flatMap_cons, List.flatMap_cons, ih]

/-- **Taking the marked records out of a marked system marks nothing new.** -/
theorem Marked.ofDefinitions_unmarked {s : TypeSystem} (h : s.Marked) :
    ofDefinitions s.package (unmarked s.definitions) = ⟨s.package, unmarked s.definitions⟩ := by
  apply Marked.ofDefinitions_eq (s := ⟨s.package, unmarked s.definitions⟩)
  intro d hd
  rw [listedNames_unmarked]
  exact h d (List.mem_filter.1 hd).1

end TypeSystem

end TypeBindings
