import TypeBindings.Wire.Read

/-!
# What readers give

`Yields P reader` says that whatever the reader gives satisfies `P`, wherever it stands in a text. The lemmas follow the
readers: a loop over the items of a list gives items of the kind its item reader gives, and a record read member by
member keeps what every one of its fields keeps.
-/

namespace TypeBindings.Json.Reader

variable {α β σ : Type} {P : α → Prop} {Q : β → Prop}

/-- Whatever a reader gives satisfies `P`. -/
def Yields (P : α → Prop) (reader : Reader α) : Prop :=
  ∀ bounds cursor value after, reader bounds cursor = .ok (value, after) → P value

/-! ## Steps -/

theorem yields_pure {a : α} (h : P a) : Yields P (pure a : Reader α) := by
  intro bounds cursor value after he
  cases he
  exact h

theorem yields_bind {x : Reader α} {f : α → Reader β} (hx : Yields P x) (hf : ∀ a, P a → Yields Q (f a)) :
    Yields Q (x >>= f) := by
  intro bounds cursor value after he
  change (x bounds cursor >>= fun p => f p.1 bounds p.2) = _ at he
  cases h : x bounds cursor with
  | error fault => rw [h] at he; cases he
  | ok p => rw [h] at he; exact hf p.1 (hx _ _ _ _ h) _ _ _ _ he

/-- A step whose result does not matter. -/
theorem yields_after {x : Reader α} {f : α → Reader β} (hf : ∀ a, Yields Q (f a)) : Yields Q (x >>= f) :=
  yields_bind (P := fun _ => True) (fun _ _ _ _ _ => trivial) fun a _ => hf a

theorem yields_map {x : Reader α} {f : α → β} (hx : Yields (fun a => Q (f a)) x) : Yields Q (f <$> x) := by
  rw [← bind_pure_comp]
  exact yields_bind hx fun _ => yields_pure

theorem yields_failAt (place : Position) (cause : Cause) : Yields P (failAt place cause : Reader α) := by
  intro bounds cursor value after he
  cases he

theorem yields_failHere (cause : Cause) : Yields P (failHere cause : Reader α) :=
  yields_after fun _ => yields_failAt _ cause

theorem yields_failNext (error : GrammarError) : Yields P (failNext error : Reader α) :=
  yields_after fun _ => yields_failAt _ _

theorem yields_unexpected (expected : String) : Yields P (unexpected expected : Reader α) := by
  refine yields_after fun found => ?_
  cases found with
  | none => exact yields_after fun _ => yields_failHere _
  | some value => exact yields_failHere _

theorem yields_nested {inner : Reader α} (h : Yields P inner) : Yields P (nested inner) := by
  refine yields_after fun bounds => ?_
  split
  · exact yields_failNext _
  · exact yields_after fun _ => fun bounds cursor => h _ cursor

/-! ## Lists -/

/-- The loop over the items of a list gives items of the kind that its item reader gives. -/
theorem yields_itemsFrom {item : Reader α} (h : Yields P item) : ∀ (steps : Nat) (first : Bool),
    Yields (fun items => ∀ i ∈ items, P i) (itemsFrom item steps first)
  | 0, _ => yields_failHere _
  | steps + 1, first => by
    refine yields_after fun more => ?_
    split
    · refine yields_bind h fun head hhead => ?_
      refine yields_bind (yields_itemsFrom h steps false) fun tail htail => ?_
      exact yields_pure (List.forall_mem_cons.2 ⟨hhead, htail⟩)
    · exact yields_after fun _ => yields_pure nofun

theorem yields_sequence {item : Reader α} (h : Yields P item) :
    Yields (fun items => ∀ i ∈ items, P i) (sequence item) := by
  refine yields_after fun token => ?_
  split
  · exact yields_nested (yields_after fun bounds => yields_itemsFrom h _ true)
  · exact yields_unexpected _

/-! ## Records -/

section Records

variable {I : σ → Prop}

/-- The loop over the members of an object keeps what every step keeps. -/
theorem yields_membersFrom {step : σ → String → Reader σ} (h : ∀ state key, I state → Yields I (step state key)) :
    ∀ (steps : Nat) (first : Bool) (state : σ), I state → Yields I (membersFrom step steps first state)
  | 0, _, _, _ => yields_failHere _
  | steps + 1, first, state, hstate => by
    refine yields_after fun more => ?_
    split
    · refine yields_after fun _ => yields_after fun key => ?_
      refine yields_bind (h state key hstate) fun next hnext => ?_
      exact yields_membersFrom h steps false next hnext
    · exact yields_after fun _ => yields_pure hstate

theorem yields_failAfterKey (error : ShapeError) : Yields P (failAfterKey error : Reader α) := by
  refine yields_after fun token => ?_
  split
  · exact yields_after fun _ => yields_failHere _
  · exact yields_failHere _

theorem yields_member {fields : List (Field σ)} (h : ∀ field ∈ fields, ∀ draft, I draft → Yields I (field.read draft))
    (closed : Bool) (draft : σ) (key : String) (hdraft : I draft) : Yields I (member fields closed draft key) := by
  unfold member
  split
  · rename_i field hfield
    split
    · exact yields_failAfterKey _
    · exact yields_after fun _ => h field (List.mem_of_find?_eq_some hfield) draft hdraft
  · split
    · exact yields_failAfterKey _
    · exact yields_after fun _ => yields_after fun _ => yields_pure hdraft

theorem yields_itemFields (name : String) (total : Nat) : ∀ {fields : List (Field σ)},
    (∀ field ∈ fields, ∀ draft, I draft → Yields I (field.read draft)) →
      ∀ (index : Nat) (draft : σ), I draft → Yields I (itemFields name total fields index draft)
  | [], _, _, _, hdraft => yields_pure hdraft
  | field :: rest, h, index, draft, hdraft => by
    have hrest := yields_itemFields name total fun other ho => h other (List.mem_cons_of_mem _ ho)
    refine yields_after fun more => ?_
    split
    · refine yields_bind (h field List.mem_cons_self draft hdraft) fun next hnext => ?_
      exact hrest (index + 1) next hnext
    · split
      · exact hrest (index + 1) draft hdraft
      · exact yields_after fun _ => yields_failHere _

theorem yields_field {key : String} {get : σ → Option α} {set : σ → α → σ} {value : Reader α} {optional : Bool}
    (hvalue : Yields P value) (hset : ∀ draft a, I draft → P a → I (set draft a)) (draft : σ) (hdraft : I draft) :
    Yields I ((Field.of key get set value optional).read draft) :=
  yields_bind hvalue fun a ha => yields_pure (hset draft a hdraft ha)

/-- What a draft becomes at the end of its record. -/
theorem yields_finish {draft : σ} {finish : σ → Except ShapeError α}
    (hfinish : ∀ value, finish draft = .ok value → P value) :
    Yields P (match finish draft with
      | .ok value => (return value : Reader α)
      | .error error => failHere (.shape error)) := by
  split
  · rename_i value hvalue
    exact yields_pure (hfinish value hvalue)
  · exact yields_failHere _

/-- **A record has what its draft has**, if the draft has it at first and every field keeps it. -/
theorem yields_record (name : String) {fields : List (Field σ)} {draft : σ} {finish : σ → Except ShapeError α}
    (closed : Bool) (hdraft : I draft) (hfields : ∀ field ∈ fields, ∀ draft, I draft → Yields I (field.read draft))
    (hfinish : ∀ draft value, I draft → finish draft = .ok value → P value) :
    Yields P (record name fields draft finish closed) := by
  unfold record
  refine yields_after fun token => ?_
  split
  · refine yields_bind (yields_nested (yields_after fun bounds => ?_))
      fun draft hdraft => yields_finish fun value => hfinish draft value hdraft
    exact yields_membersFrom (yields_member hfields closed) _ true draft hdraft
  · refine yields_bind (yields_nested ?_) fun draft hdraft => yields_finish fun value => hfinish draft value hdraft
    refine yields_bind (yields_itemFields name _ hfields 0 draft hdraft) fun next hnext => ?_
    exact yields_after fun _ => yields_pure hnext
  · exact yields_bind (yields_unexpected _) fun draft hdraft => yields_finish fun value => hfinish draft value hdraft

end Records

/-- What is read from a whole text is what the reader gives. -/
theorem Yields.run {reader : Reader α} (h : Yields P reader) {text : String} {value : α}
    (hr : reader.run text = .ok value) : P value := by
  have hfirst : ∀ x : Except Fault (α × Cursor), (do let p ← x; return p.1) = .ok value →
      ∃ after, x = .ok (value, after) := by
    rintro (fault | ⟨a, after⟩) he
    · cases he
    · cases he
      exact ⟨after, rfl⟩
  obtain ⟨after, hx⟩ := hfirst _ hr
  refine yields_bind h (fun value hvalue => ?_) _ _ _ _ hx
  refine yields_after fun token => ?_
  cases token with
  | none => exact yields_pure hvalue
  | some _ => exact yields_failNext _

end TypeBindings.Json.Reader
