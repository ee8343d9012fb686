import Mathlib.Data.List.Nodup
import TypeBindings.Proofs.Literals
import TypeBindings.Proofs.RecordLines

/-!
# Quoted keys

A key of TypeScript and a field of Kotlin are the text itself where it is a good name, and the text in quotes where it
is not. What is in quotes can be read back and is itself no good name, so different texts are always written differently
(`TypeScript.key_injective`, `Kotlin.fieldName_injective`), and the fields of a record, and the members of an
enumeration, have different names if the properties and the values do (`keys_stay_apart`).
-/

namespace TypeBindings

/-- Keeping some texts and quoting the others keeps texts apart, if quoting does and never gives a text that is kept. -/
theorem injective_keep_or_quote {keep : String → Bool} {quote : String → String} (hquote : Function.Injective quote)
    (hnot : ∀ text, keep (quote text) = false) :
    Function.Injective fun text => if keep text then text else quote text := by
  intro a b h
  dsimp only at h
  split at h
  · rename_i ha
    split at h
    · exact h
    · rw [h, hnot] at ha
      cases ha
  · split at h
    · rename_i hb
      rw [← h, hnot] at hb
      cases hb
    · exact hquote h

namespace TypeScript

theorem not_isIdentifier_singleQuoted (text : String) : Text.isIdentifier (Literal.singleQuoted text) = false := by
  unfold Text.isIdentifier
  rw [Literal.singleQuoted_eq, String.toList_ofList]
  rfl

theorem key_injective : Function.Injective key :=
  injective_keep_or_quote Literal.singleQuoted_injective not_isIdentifier_singleQuoted

end TypeScript

namespace Kotlin

theorem quoted_injective : Function.Injective fun text : String => "`" ++ text ++ "`" := by
  intro a b h
  exact (String.append_right_inj _).1 ((String.append_left_inj _).1 h)

theorem not_isPlainName_quoted (text : String) : isPlainName ("`" ++ text ++ "`") = false := by
  have hword : Text.isWord ("`" ++ text ++ "`") = false := by
    unfold Text.isWord
    rw [String.toList_append, String.toList_append]
    rfl
  rw [isPlainName, hword, Bool.false_and]

theorem fieldName_injective : Function.Injective fieldName :=
  injective_keep_or_quote quoted_injective not_isPlainName_quoted

end Kotlin

/-- A function that keeps texts apart gives distinct fields to distinct properties. -/
theorem nodup_of_injective {name : String → String} (hname : Function.Injective name) {properties : List Property}
    (h : (properties.map (·.name)).Nodup) : (properties.map fun p => name p.name).Nodup := by
  rw [← map_map_name]
  exact h.map hname

/-- **Keys of TypeScript and fields of Kotlin stay apart.** Different texts have different keys and different fields. So
the declaration of a record with distinct property names has distinct keys in TypeScript and distinct fields in Kotlin,
one for each property, and that of an enumeration with distinct values has distinct keys in TypeScript, one for each
value. -/
theorem keys_stay_apart :
    Function.Injective TypeScript.key ∧ Function.Injective Kotlin.fieldName ∧
    (∀ (s : TypeSystem) (d : Definition) (r : Record), d.body = .record r → (r.properties.map (·.name)).Nodup →
      ((TypeScript.declaration s d).lines = documented Comment.block 0 d.description ++
          TypeScript.recordLines d r.properties (TypeScript.fieldNames r.properties) ∧
        (TypeScript.fieldNames r.properties).length = r.properties.length ∧
        (TypeScript.fieldNames r.properties).Nodup) ∧
      ((Kotlin.declaration s d).lines = documented Comment.block 0 d.description ++
          Kotlin.recordLines s d r.properties (Kotlin.fieldNames r.properties) ∧
        (Kotlin.fieldNames r.properties).length = r.properties.length ∧ (Kotlin.fieldNames r.properties).Nodup)) ∧
    ∀ (s : TypeSystem) (d : Definition) (values : List String), d.body = .enumeration values → values.Nodup →
      (TypeScript.declaration s d).lines = documented Comment.block 0 d.description ++
          TypeScript.enumLines d.name values (values.map TypeScript.key) ∧
        (values.map TypeScript.key).Nodup := by
  refine ⟨TypeScript.key_injective, Kotlin.fieldName_injective, fun s d r hd hnames => ?_,
    fun s d values hd hvalues => ?_⟩
  · exact ⟨⟨TypeScript.lines_record s hd, List.length_map _, nodup_of_injective TypeScript.key_injective hnames⟩,
      ⟨Kotlin.lines_record s hd, List.length_map _, nodup_of_injective Kotlin.fieldName_injective hnames⟩⟩
  · exact ⟨TypeScript.lines_enumeration s hd, hvalues.map TypeScript.key_injective⟩

/-- Texts of which some look like the keys of others. -/
def lookalikes : List String :=
  ["its", "it's", "it\\'s", "'its'", "'it\\'s'", "`its`", "val", "`val`"]

/-- A record with a property for each of the texts. -/
def lookalikeRecord : Definition :=
  .record "Lookalikes" (lookalikes.map fun name => ⟨name, .primitive "string", true, none⟩)

theorem keys_stay_apart_lookalikes :
    lookalikeRecord.body = .record ⟨lookalikeRecord.properties, none, false⟩ ∧
      (lookalikeRecord.properties.map (·.name)).Nodup ∧
      (TypeScript.fieldNames lookalikeRecord.properties = ["its", "'it\\'s'", "'it\\\\\\'s'", "'\\'its\\''",
          "'\\'it\\\\\\'s\\''", "'`its`'", "val", "'`val`'"] ∧
        (TypeScript.fieldNames lookalikeRecord.properties).Nodup) ∧
      (Kotlin.fieldNames lookalikeRecord.properties = ["its", "`it's`", "`it\\'s`", "`'its'`", "`'it\\'s'`", "``its``",
          "`val`", "``val``"] ∧
        (Kotlin.fieldNames lookalikeRecord.properties).Nodup) ∧
      (lookalikes.Nodup ∧ (lookalikes.map TypeScript.key).Nodup) := by
  obtain ⟨-, -, hrecord, henum⟩ := keys_stay_apart
  have hnames : (lookalikeRecord.properties.map (·.name)).Nodup := by decide
  have hvalues : lookalikes.Nodup := by decide
  obtain ⟨⟨-, -, hkeys⟩, ⟨-, -, hfields⟩⟩ := hrecord ⟨none, [lookalikeRecord]⟩ lookalikeRecord
    ⟨lookalikeRecord.properties, none, false⟩ rfl hnames
  obtain ⟨-, hmembers⟩ := henum ⟨none, []⟩ (.enumeration "Lookalikes" lookalikes) lookalikes rfl hvalues
  exact ⟨rfl, hnames, ⟨by decide +kernel, hkeys⟩, ⟨by decide +kernel, hfields⟩, hvalues, hmembers⟩

end TypeBindings
