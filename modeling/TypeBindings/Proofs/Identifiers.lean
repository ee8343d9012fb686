import Mathlib
import TypeBindings.Proofs.Components
import TypeBindings.Proofs.FreeNames

/-!
# Identifiers

`constantName` and `pascalName` make an identifier of any text: it begins with a capital letter or an underscore, and
capital letters, digits and underscores follow in the one case (`spelled_constantName`) and letters and digits in the
other (`spelled_pascalName`). For constant names this is what every character that is added keeps
(`inConstant_add`). A text without letters and digits has nothing to make a name of, and its constant name is a single
underscore (`constantName_eq_underscore_iff`). The other name still has the letters and digits that it was made of, so
two texts have the same one exactly if they have the same `letters` (`pascalName_eq_iff`). A number behind an identifier
leaves it one (`Spelled.suffix`).
-/

namespace TypeBindings

/-! ## Spelling -/

namespace Text

/-- The first character of a text has one property, and all that follow have another. -/
def Spelled (first later : Char → Bool) (text : String) : Prop :=
  ∃ c rest, text.toList = c :: rest ∧ first c = true ∧ ∀ d ∈ rest, later d = true

section Spelled

variable {first later : Char → Bool} {text : String}

theorem spelled_iff : (match text.toList with
    | [] => false
    | c :: rest => first c && rest.all later) = true ↔ Spelled first later text := by
  unfold Spelled
  split
  · rename_i hnil
    simp [hnil]
  · rename_i c rest hcons
    rw [hcons, Bool.and_eq_true, List.all_eq_true]
    constructor
    · rintro ⟨hc, hrest⟩
      exact ⟨c, rest, rfl, hc, hrest⟩
    · rintro ⟨_, _, heq, hc, hrest⟩
      cases heq
      exact ⟨hc, hrest⟩

theorem isWord_iff_spelled : isWord text = true ↔ Spelled startsWord inWord text :=
  spelled_iff

theorem isIdentifier_iff_spelled :
    isIdentifier text = true ↔ Spelled (fun c => startsWord c || c == '$') (fun c => inWord c || c == '$') text :=
  spelled_iff

theorem Spelled.mono {first' later' : Char → Bool} (h : Spelled first later text)
    (hfirst : ∀ c, first c = true → first' c = true) (hlater : ∀ c, later c = true → later' c = true) :
    Spelled first' later' text := by
  obtain ⟨c, rest, htext, hc, hrest⟩ := h
  exact ⟨c, rest, htext, hfirst c hc, fun d hd => hlater d (hrest d hd)⟩

theorem Spelled.append {tail : String} (h : Spelled first later text) (htail : ∀ d ∈ tail.toList, later d = true) :
    Spelled first later (text ++ tail) := by
  obtain ⟨c, rest, htext, hc, hrest⟩ := h
  refine ⟨c, rest ++ tail.toList, ?_, hc, ?_⟩
  · rw [String.toList_append, htext, List.cons_append]
  · exact List.forall_mem_append.2 ⟨hrest, htail⟩

theorem inWord_of_isDigit {c : Char} (h : c.isDigit = true) : inWord c = true := by
  simp [inWord, Char.isAlphanum, h]

/-- A number behind an underscore keeps a text of word characters one. -/
theorem Spelled.suffix (h : Spelled first later text) (hlater : ∀ c, inWord c = true → later c = true) (n : Nat) :
    Spelled first later (text ++ "_" ++ toString n) := by
  refine (h.append fun d hd => ?_).append fun d hd => ?_
  · cases List.mem_singleton.1 hd
    exact hlater '_' rfl
  · exact hlater d (inWord_of_isDigit (Naming.isDigit_of_mem_toString hd))

end Spelled

theorem isIdentifier_of_isWord {text : String} (h : isWord text = true) : isIdentifier text = true := by
  rw [isIdentifier_iff_spelled]
  refine (isWord_iff_spelled.1 h).mono (fun c hc => ?_) fun c hc => ?_
  · rw [hc, Bool.true_or]
  · rw [hc, Bool.true_or]

theorem inWord_of_startsWord {c : Char} (h : startsWord c = true) : inWord c = true := by
  simp only [startsWord, Bool.or_eq_true] at h
  rcases h with h | h
  · simp [inWord, Char.isAlphanum, h]
  · simp [inWord, h]

/-- The characters of an identifier. -/
theorem word_or_dollar_of_mem {text : String} (h : isIdentifier text = true) {c : Char} (hc : c ∈ text.toList) :
    (inWord c || c == '$') = true := by
  obtain ⟨first, rest, htext, hfirst, hrest⟩ := isIdentifier_iff_spelled.1 h
  rw [htext] at hc
  rcases List.mem_cons.1 hc with rfl | hc
  · simp only [Bool.or_eq_true] at hfirst ⊢
    exact hfirst.imp_left inWord_of_startsWord
  · exact hrest c hc

end Text

namespace Naming

open Text (Spelled startsWord inWord)

/-! ## Characters of names -/

/-- A character of a constant name. -/
def inConstant (c : Char) : Bool :=
  c.isUpper || c.isDigit || c == '_'

/-- A character that a name made of a text begins with. -/
def opensName (c : Char) : Bool :=
  c.isUpper || c == '_'

theorem isLower_of_isDigit {c : Char} (h : c.isDigit = true) : c.isLower = false := by
  simp only [Char.isDigit, Char.isLower, Bool.and_eq_true, decide_eq_true_eq, Bool.and_eq_false_iff,
    decide_eq_false_iff_not, UInt32.le_iff_toNat_le] at h ⊢
  have hnine : '9'.val.toNat = 57 := rfl
  have ha : 'a'.val.toNat = 97 := rfl
  omega

theorem isLower_of_inConstant {c : Char} (h : inConstant c = true) : c.isLower = false := by
  simp only [inConstant, Bool.or_eq_true, beq_iff_eq] at h
  rcases h with (hupper | hdigit) | rfl
  · exact Bool.eq_false_iff.2 (Char.not_isLower_of_isUpper hupper)
  · exact isLower_of_isDigit hdigit
  · rfl

theorem inConstant_of_opensName {c : Char} (h : opensName c = true) : inConstant c = true := by
  simp only [opensName, Bool.or_eq_true] at h
  rcases h with h | h
  · simp [inConstant, h]
  · simp [inConstant, h]

theorem startsWord_of_opensName {c : Char} (h : opensName c = true) : startsWord c = true := by
  simp only [opensName, Bool.or_eq_true] at h
  rcases h with h | h
  · simp [startsWord, Char.isAlpha, h]
  · simp [startsWord, h]

theorem inWord_of_inConstant {c : Char} (h : inConstant c = true) : inWord c = true := by
  simp only [inConstant, Bool.or_eq_true] at h
  rcases h with (h | h) | h
  · simp [inWord, Char.isAlphanum, Char.isAlpha, h]
  · simp [inWord, Char.isAlphanum, h]
  · simp [inWord, h]

/-- A letter or digit made a capital is a capital letter or a digit. -/
theorem toUpper_of_isAlphanum {c : Char} (h : c.isAlphanum = true) :
    c.toUpper.isUpper = true ∨ c.toUpper.isDigit = true := by
  rw [Char.isAlphanum, Bool.or_eq_true] at h
  rcases h with hletter | hdigit
  · exact .inl (by rw [Char.isUpper_toUpper_eq_isAlpha, hletter])
  · rw [Char.toUpper_eq_of_not_isLower (Bool.eq_false_iff.1 (isLower_of_isDigit hdigit))]
    exact .inr hdigit

theorem inConstant_toUpper {c : Char} (h : c.isAlphanum = true) : inConstant c.toUpper = true := by
  rcases toUpper_of_isAlphanum h with h | h
  · simp [inConstant, h]
  · simp [inConstant, h]

theorem toUpper_ne_underscore {c : Char} (h : c.isAlphanum = true) : c.toUpper ≠ '_' := by
  intro heq
  rcases toUpper_of_isAlphanum h with h | h
  · rw [heq] at h
    exact absurd h (by decide)
  · rw [heq] at h
    exact absurd h (by decide)

theorem isAlphanum_toUpper {c : Char} (h : c.isAlphanum = true) : c.toUpper.isAlphanum = true := by
  rcases toUpper_of_isAlphanum h with h | h
  · simp [Char.isAlphanum, Char.isAlpha, h]
  · simp [Char.isAlphanum, h]

/-! ## Identifiers of letters and digits -/

/-- **An identifier is made** of characters that may follow, if the first of them is none that has to be made a
capital. -/
theorem spelled_identifierOf {later : Char → Bool} {cs : List Char} (hhead : ∀ c ∈ cs.head?, inConstant c = true)
    (hlater : ∀ c ∈ cs, later c = true) : Spelled opensName later (identifierOf cs) := by
  cases cs with
  | nil => exact ⟨'_', [], rfl, rfl, List.forall_mem_nil _⟩
  | cons c rest =>
    have hc : inConstant c = true := hhead c rfl
    unfold identifierOf
    dsimp only
    split
    · exact ⟨'_', c :: rest, String.toList_ofList, rfl, hlater⟩
    · rename_i hdigit
      refine ⟨c, rest, String.toList_ofList, ?_, fun d hd => hlater d (List.mem_cons_of_mem _ hd)⟩
      rw [Bool.not_eq_true] at hdigit
      rw [inConstant, hdigit, Bool.or_false] at hc
      exact hc

/-- The identifier is a single underscore if there is nothing to make it of. -/
theorem identifierOf_eq_underscore_iff {cs : List Char} : identifierOf cs = "_" ↔ cs = [] ∨ cs = ['_'] := by
  cases cs with
  | nil => exact ⟨fun _ => .inl rfl, fun _ => rfl⟩
  | cons c rest =>
    unfold identifierOf
    dsimp only
    split
    · rename_i hdigit
      constructor
      · intro h
        have hlength := congrArg (fun text => text.toList.length) h
        simp at hlength
      · rintro (h | h)
        · cases h
        · cases h
          cases hdigit
    · constructor
      · intro h
        have hlist := congrArg String.toList h
        rw [String.toList_ofList] at hlist
        exact .inr hlist
      · rintro (h | h)
        · cases h
        · rw [h]

/-! ## Constant names -/

/-- One more character keeps the draft of a constant name one. -/
theorem inConstant_add {draft : ConstantDraft} (h : ∀ d ∈ draft.reversed, inConstant d = true) (c : Char) :
    ∀ d ∈ (draft.add c).reversed, inConstant d = true := by
  unfold ConstantDraft.add
  split
  · rename_i hc
    refine List.forall_mem_cons.2 ⟨inConstant_toUpper hc, ?_⟩
    split
    · exact List.forall_mem_cons.2 ⟨rfl, h⟩
    · exact h
  · dsimp only
    split
    · exact h
    · exact List.forall_mem_cons.2 ⟨rfl, h⟩

theorem inConstant_foldl_add : ∀ (cs : List Char) (draft : ConstantDraft), (∀ d ∈ draft.reversed, inConstant d = true) →
    ∀ d ∈ (cs.foldl ConstantDraft.add draft).reversed, inConstant d = true
  | [], _, h => h
  | c :: cs, draft, h => inConstant_foldl_add cs (draft.add c) (inConstant_add h c)

/-- **Constant names** are made of capital letters, digits and underscores. -/
theorem spelled_constantName (value : String) : Spelled opensName inConstant (constantName value) := by
  have hdraft : ∀ d ∈ (value.toList.foldl ConstantDraft.add {}).reversed, inConstant d = true :=
    inConstant_foldl_add _ _ (List.forall_mem_nil _)
  have hkept : ∀ d ∈ ((value.toList.foldl ConstantDraft.add {}).reversed.dropWhile (· = '_')).reverse,
      inConstant d = true := by
    intro d hd
    exact hdraft d ((List.dropWhile_sublist _).subset (List.mem_reverse.1 hd))
  exact spelled_identifierOf (fun c hc => hkept c (List.mem_of_mem_head? hc)) hkept

/-- One more character leaves a draft blank if it is no letter or digit. -/
theorem blank_add_iff (draft : ConstantDraft) (c : Char) :
    (∀ d ∈ (draft.add c).reversed, d = '_') ↔ (∀ d ∈ draft.reversed, d = '_') ∧ c.isAlphanum = false := by
  unfold ConstantDraft.add
  split
  · rename_i hc
    constructor
    · intro h
      exact absurd (h _ List.mem_cons_self) (toUpper_ne_underscore hc)
    · rintro ⟨-, hnot⟩
      rw [hc] at hnot
      cases hnot
  · rename_i hc
    rw [Bool.not_eq_true] at hc
    dsimp only
    split
    · simp [hc]
    · simp [hc]

theorem blank_foldl_add_iff : ∀ {cs : List Char} {draft : ConstantDraft},
    (∀ d ∈ (cs.foldl ConstantDraft.add draft).reversed, d = '_') ↔
      (∀ d ∈ draft.reversed, d = '_') ∧ ∀ c ∈ cs, c.isAlphanum = false
  | [], draft => by simp
  | c :: cs, draft => by
    rw [List.foldl_cons, blank_foldl_add_iff, blank_add_iff, List.forall_mem_cons, and_assoc]

/-- **The constant name of a text is a single underscore if the text has no letter and no digit.** -/
theorem constantName_eq_underscore_iff {value : String} :
    constantName value = "_" ↔ ∀ c ∈ value.toList, c.isAlphanum = false := by
  have hblank : (∀ d ∈ (value.toList.foldl ConstantDraft.add {}).reversed, d = '_') ↔
      ∀ c ∈ value.toList, c.isAlphanum = false := by
    rw [blank_foldl_add_iff]
    simp
  -- what is left of the draft does not end in an underscore
  have hend : ((value.toList.foldl ConstantDraft.add {}).reversed.dropWhile (· = '_')).reverse ≠ ['_'] := by
    intro h
    have hrest := congrArg List.reverse h
    rw [List.reverse_reverse] at hrest
    have hhead := List.head?_dropWhile_not (fun c : Char => decide (c = '_'))
      (value.toList.foldl ConstantDraft.add {}).reversed
    rw [hrest] at hhead
    simp at hhead
  have hname : constantName value =
      identifierOf ((value.toList.foldl ConstantDraft.add {}).reversed.dropWhile (· = '_')).reverse := rfl
  rw [hname, identifierOf_eq_underscore_iff, or_iff_left hend, List.reverse_eq_nil_iff, List.dropWhile_eq_nil_iff,
    ← hblank]
  simp

/-! ## Names of words -/

theorem isAlphanum_of_mem_words {cs word : List Char} (h : word ∈ words cs) : ∀ c ∈ word, c.isAlphanum = true := by
  intro c hc
  have hnot := Text.not_isSep_of_mem_pieces (List.mem_filter.1 h).1 c hc
  rwa [Bool.not_eq_false'] at hnot

theorem isAlphanum_of_mem_capitalWord {word : List Char} (h : ∀ c ∈ word, c.isAlphanum = true) :
    ∀ c ∈ capitalWord word, c.isAlphanum = true := by
  cases word with
  | nil => exact h
  | cons c rest =>
    obtain ⟨hc, hrest⟩ := List.forall_mem_cons.1 h
    exact List.forall_mem_cons.2 ⟨isAlphanum_toUpper hc, hrest⟩

/-- Words put together begin with the capital of the first one. -/
theorem inConstant_head?_capitalWords (cs : List Char) :
    ∀ c ∈ ((words cs).flatMap capitalWord).head?, inConstant c = true := by
  cases hwords : words cs with
  | nil => simp
  | cons word rest =>
    have hmem : word ∈ words cs := hwords ▸ List.mem_cons_self
    cases word with
    | nil => exact absurd (List.mem_filter.1 hmem).2 (by simp)
    | cons d ds =>
      intro c hc
      cases hc
      exact inConstant_toUpper (isAlphanum_of_mem_words hmem d List.mem_cons_self)

/-- The letters and digits of a text, with a capital letter at the beginning of every run of them. -/
def letters (text : String) : List Char :=
  (words text.toList).flatMap capitalWord

theorem isAlphanum_of_mem_letters {text : String} : ∀ c ∈ letters text, c.isAlphanum = true := by
  intro c hc
  obtain ⟨word, hword, hc⟩ := List.mem_flatMap.1 hc
  exact isAlphanum_of_mem_capitalWord (isAlphanum_of_mem_words hword) c hc

/-- **Names of words** begin with a capital letter or an underscore, and only letters and digits follow. -/
theorem spelled_pascalName_isAlphanum (value : String) : Spelled opensName Char.isAlphanum (pascalName value) :=
  spelled_identifierOf (inConstant_head?_capitalWords _) isAlphanum_of_mem_letters

theorem spelled_pascalName (value : String) : Spelled opensName inWord (pascalName value) :=
  (spelled_pascalName_isAlphanum value).mono (fun _ h => h) fun c hc => by rw [inWord, hc, Bool.true_or]

/-- The letters and digits that an identifier was made of are still there. -/
theorem filter_identifierOf {cs : List Char} (h : ∀ c ∈ cs, c.isAlphanum = true) :
    (identifierOf cs).toList.filter Char.isAlphanum = cs := by
  have hkept : cs.filter Char.isAlphanum = cs := List.filter_eq_self.2 h
  cases cs with
  | nil => rfl
  | cons c rest =>
    unfold identifierOf
    dsimp only
    split
    · rw [String.toList_ofList, List.filter_cons_of_neg (by decide), hkept]
    · rw [String.toList_ofList, hkept]

/-- **Texts have one name of words if they have the same letters.** -/
theorem pascalName_eq_iff {a b : String} : pascalName a = pascalName b ↔ letters a = letters b := by
  constructor
  · intro h
    have hfilter := congrArg (fun name => name.toList.filter Char.isAlphanum) h
    have hletters : ∀ text, (pascalName text).toList.filter Char.isAlphanum = letters text :=
      fun text => filter_identifierOf isAlphanum_of_mem_letters
    simpa only [hletters] using hfilter
  · intro h
    exact congrArg identifierOf h

end Naming

end TypeBindings
