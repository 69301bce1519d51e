import TagGrid.Json.Encode
import TagGrid.Proofs.Json.Tags

/-! # What serializers make of values and dictionaries

The serializer of trees makes the trees of the encoding, and the serializer of text makes
the text of these trees without any tree.
-/

namespace TagGrid

namespace Value

open Json

mutual

theorem serialize_tree (v : Value) : v.serialize treeSerializer = v.toJson := by
  cases v with
  | list items =>
    rw [serialize, serializeItems_tree items, toJson]
    rfl
  | bool b => rfl
  | marker | remove | na | number n | str s | uri s | ref r | date d | time t | dateTime t
  | bin m | coord c | symbol s | typed t => rfl
termination_by sizeOf v

theorem serializeItems_tree (items : List Value) :
    serializeItems treeSerializer items = toJsonItems items := by
  cases items with
  | nil => rfl
  | cons v items =>
    rw [serializeItems, serialize_tree v, serializeItems_tree items, toJsonItems]
termination_by sizeOf items

end

end Value

theorem Dict.serialize_tree (d : Dict) : d.serialize Json.treeSerializer = d.toJson := by
  unfold serialize toJson Json.ofTags
  simp only [Value.serialize_tree]
  rfl

namespace Json

theorem itemsText_eq (items : List Json) :
    itemsText items = [','].intercalate (items.map text) := by
  induction items with
  | nil => rfl
  | cons item items ih =>
    cases items with
    | nil => simp [itemsText]
    | cons next rest => simp [itemsText, ih]

theorem membersText_eq (members : List (String × Json)) :
    membersText members = [','].intercalate (members.map fun m => strText m.1 ++ ':' :: m.2.text) := by
  induction members with
  | nil => rfl
  | cons m members ih =>
    cases members with
    | nil => simp [membersText]
    | cons next rest => simp [membersText, ih]

end Json

namespace Value

open Json

mutual

theorem serialize_text (v : Value) : v.serialize textSerializer = v.toJson.text := by
  cases v with
  | list items =>
    rw [serialize, serializeItems_text items, toJson, text, itemsText_eq]
    rfl
  | bool b => cases b <;> rfl
  | marker | remove | na | number n | str s | uri s | ref r | date d | time t | dateTime t
  | bin m | coord c | symbol s | typed t => rfl
termination_by sizeOf v

theorem serializeItems_text (items : List Value) :
    serializeItems textSerializer items = (toJsonItems items).map text := by
  cases items with
  | nil => rfl
  | cons v items =>
    rw [serializeItems, serialize_text v, serializeItems_text items, toJsonItems, List.map_cons]
termination_by sizeOf items

end

theorem toJsonText_eq (v : Value) : v.toJsonText = v.toJson.compact := by
  unfold toJsonText Json.compact
  rw [serialize_text]

end Value

/-- The members of a dictionary have distinct names, so all of them stay in the tree. -/
theorem Dict.toJson_eq (d : Dict) : d.toJson = .object (Json.ofTags d.entries) := by
  have hdistinct : (([] ++ Json.ofTags d.entries).map Prod.fst).Nodup :=
    Json.nodup_ofTags d.nodup_names
  unfold toJson
  rw [Json.setMembers_distinct hdistinct]
  rfl

theorem Dict.toJsonText_eq (d : Dict) : d.toJsonText = d.toJson.compact := by
  unfold toJsonText Json.compact serialize
  rw [toJson_eq, Json.text, Json.membersText_eq]
  simp only [Json.textSerializer, Json.ofTags, List.map_map, Function.comp_def]
  simp only [← Value.serialize_text]
  rfl

end TagGrid
