import TypeBindings.Json.Reader.Value

/-!
# Objects without repeated keys

In a canonical value no object has a key twice (`distinctKeys_canonical`), and so it is in every value that is read from
a text (`distinctKeys_of_parse`). The reason is that members are put in one by one into a list that is sorted by key,
and in such a list a key is found before its place is passed.
-/

namespace TypeBindings.Json

/-- A value in which no object has a key twice, at any depth. -/
inductive DistinctKeys : Json → Prop
  | null : DistinctKeys .null
  | bool (b : Bool) : DistinctKeys (.bool b)
  | num (n : Number) : DistinctKeys (.num n)
  | str (s : String) : DistinctKeys (.str s)
  | arr {items : List Json} (inside : ∀ item ∈ items, DistinctKeys item) : DistinctKeys (.arr items)
  | obj {members : List (String × Json)} (keys : (members.map Prod.fst).Nodup)
      (inside : ∀ member ∈ members, DistinctKeys member.2) : DistinctKeys (.obj members)

theorem DistinctKeys.keys {members : List (String × Json)} (h : DistinctKeys (.obj members)) :
    (members.map Prod.fst).Nodup := by
  cases h with
  | obj keys _ => exact keys

theorem DistinctKeys.item {items : List Json} (h : DistinctKeys (.arr items)) {item : Json} (hi : item ∈ items) :
    DistinctKeys item := by
  cases h with
  | arr inside => exact inside item hi

theorem mem_of_lookup_eq_some {key : String} {value : Json} : ∀ {members : List (String × Json)},
    members.lookup key = some value → (key, value) ∈ members
  | [], h => by cases h
  | (name, first) :: rest, h => by
    rw [List.lookup_cons] at h
    split at h
    · rename_i hname
      cases Option.some.inj h
      rw [beq_iff_eq.1 hname]
      exact List.mem_cons_self
    · exact List.mem_cons_of_mem _ (mem_of_lookup_eq_some h)

theorem DistinctKeys.member {members : List (String × Json)} (h : DistinctKeys (.obj members)) {key : String}
    {value : Json} (hv : members.lookup key = some value) : DistinctKeys value := by
  cases h with
  | obj _ inside => exact inside _ (mem_of_lookup_eq_some hv)

/-! ## Sorted members -/

/-- Members in the order of their keys, which are all different. -/
def SortedMembers (members : List (String × Json)) : Prop :=
  members.Pairwise fun a b => a.1 < b.1

theorem SortedMembers.nodup {members : List (String × Json)} (h : SortedMembers members) :
    (members.map Prod.fst).Nodup := by
  rw [List.Nodup, List.pairwise_map]
  apply h.imp
  intro a b hlt heq
  rw [heq] at hlt
  exact String.lt_irrefl _ hlt

theorem mem_addMember {key : String} {value : Json} {p : String × Json} : ∀ {members : List (String × Json)},
    p ∈ addMember key value members → p = (key, value) ∨ p ∈ members
  | [], h => Or.inl (List.mem_singleton.1 h)
  | (k, v) :: rest, h => by
    rw [addMember] at h
    split at h
    · exact Or.inr h
    · split at h
      · exact List.mem_cons.1 h
      · rcases List.mem_cons.1 h with h | h
        · exact Or.inr (h ▸ List.mem_cons_self)
        · exact (mem_addMember h).imp_right (List.mem_cons_of_mem _)

theorem sortedMembers_addMember {key : String} {value : Json} : ∀ {members : List (String × Json)},
    SortedMembers members → SortedMembers (addMember key value members)
  | [], _ => List.pairwise_singleton _ _
  | (k, v) :: rest, h => by
    obtain ⟨hfirst, hrest⟩ := List.pairwise_cons.1 h
    rw [addMember]
    split
    · exact h
    · rename_i hne
      split
      · rename_i hlt
        refine List.pairwise_cons.2 ⟨fun p hp => ?_, h⟩
        rcases List.mem_cons.1 hp with rfl | hp
        · exact hlt
        · exact String.lt_trans hlt (hfirst p hp)
      · rename_i hge
        -- the key is neither the first one nor before it, so it comes after it
        have hlt : k < key := Decidable.byContradiction fun hnot =>
          hne (String.le_antisymm (String.not_lt.1 hnot) (String.not_lt.1 hge))
        refine List.pairwise_cons.2 ⟨fun p hp => ?_, sortedMembers_addMember hrest⟩
        rcases mem_addMember hp with rfl | hp
        · exact hlt
        · exact hfirst p hp

/-! ## Canonical values -/

theorem sortedMembers_canonicalMembers : ∀ members : List (String × Json), SortedMembers (canonicalMembers members)
  | [] => List.Pairwise.nil
  | (_, _) :: rest => by
    rw [canonicalMembers]
    exact sortedMembers_addMember (sortedMembers_canonicalMembers rest)

mutual

/-- **A canonical value has no key twice in an object.** -/
theorem distinctKeys_canonical : ∀ value : Json, DistinctKeys value.canonical
  | .null => .null
  | .bool b => .bool b
  | .num n => .num n
  | .str s => .str s
  | .arr items => .arr (distinctKeys_canonicalItems items)
  | .obj members => .obj (sortedMembers_canonicalMembers members).nodup (distinctKeys_canonicalMembers members)

theorem distinctKeys_canonicalItems : ∀ (items : List Json), ∀ item ∈ canonicalItems items, DistinctKeys item
  | [], _, h => by cases h
  | first :: rest, item, h => by
    rcases List.mem_cons.1 h with rfl | h
    · exact distinctKeys_canonical first
    · exact distinctKeys_canonicalItems rest item h

theorem distinctKeys_canonicalMembers : ∀ (members : List (String × Json)), ∀ member ∈ canonicalMembers members,
    DistinctKeys member.2
  | [], _, h => by cases h
  | (key, value) :: rest, member, h => by
    rw [canonicalMembers] at h
    rcases mem_addMember h with rfl | h
    · exact distinctKeys_canonical value
    · exact distinctKeys_canonicalMembers rest member h

end

theorem distinctKeys_of_parse {text : String} {value : Json} (h : parse text = .ok value) : DistinctKeys value := by
  unfold parse at h
  cases hr : Reader.value.run text with
  | error fault =>
    rw [hr] at h
    cases h
  | ok raw =>
    rw [hr] at h
    cases h
    exact distinctKeys_canonical raw

end TypeBindings.Json
