import Mathlib.Data.List.Nodup
import TagGrid.Proofs.Json.Strings

/-! # Reading values and tags back from JSON trees

The members of an object are kept by their names. No two tags of a dictionary share one, so
all of them are found again, except that a tag can lose its place to the member that the
encoding puts before the tags itself.
-/

namespace TagGrid.Json

variable {members added : List (String × Json)} {name : String} {tree : Json}

/-! ## Members of an object -/

theorem setMember_new (hnew : name ∉ members.map Prod.fst) :
    setMember members name tree = members ++ [(name, tree)] := by
  unfold setMember
  rw [if_neg]
  intro hany
  obtain ⟨m, hm, heq⟩ := List.any_eq_true.1 hany
  exact hnew (List.mem_map.2 ⟨m, hm, eq_of_beq heq⟩)

/-- Members of distinct names stay in the order in which they are given. -/
theorem setMembers_distinct (h : ((members ++ added).map Prod.fst).Nodup) :
    setMembers members added = members ++ added := by
  induction added generalizing members with
  | nil =>
    rw [List.append_nil]
    rfl
  | cons m added ih =>
    have hassoc : members ++ [m] ++ added = members ++ m :: added := by
      rw [List.append_assoc]
      rfl
    have hnew : m.1 ∉ members.map Prod.fst := by
      intro hmem
      rw [List.map_append, List.map_cons] at h
      exact List.disjoint_of_nodup_append h hmem List.mem_cons_self
    have hstep : setMembers members (m :: added) = setMembers (members ++ [m]) added := by
      unfold setMembers
      rw [List.foldl_cons, setMember_new hnew]
    rw [hstep, ih (hassoc ▸ h), hassoc]

theorem member?_of_mem (h : (members.map Prod.fst).Nodup) (hmem : (name, tree) ∈ members) :
    member? members name = some tree := by
  have hfind := find?_of_mem h hmem
  unfold member?
  rw [hfind]
  rfl

theorem member?_absent (h : name ∉ members.map Prod.fst) : member? members name = none := by
  unfold member?
  rw [List.find?_eq_none.2]
  · rfl
  · intro m hm heq
    exact h (List.mem_map.2 ⟨m, hm, eq_of_beq heq⟩)

theorem ofTags_names (tags : List (TagName × Value)) :
    (ofTags tags).map Prod.fst = (tags.map Prod.fst).map TagName.text := by
  unfold ofTags
  rw [List.map_map, List.map_map]
  rfl

theorem nodup_ofTags {tags : List (TagName × Value)} (h : (tags.map Prod.fst).Nodup) :
    ((ofTags tags).map Prod.fst).Nodup := by
  rw [ofTags_names]
  exact h.map TagName.text_injective

/-! ## Values -/

mutual

/-- A value without a late year is decoded from its tree. -/
theorem decodeValue_toJson (v : Value) (hyears : v.yearsFit = true) :
    decodeValue v.toJson = .ok (some v) := by
  cases v with
  | bool b => rfl
  | list items =>
    have hitems := decodeItems_toJsonItems items hyears
    rw [Value.toJson, decodeValue, hitems]
    rfl
  | marker | remove | na | number n | str s | uri s | ref r | date d | time t | dateTime t
  | bin m | coord c | symbol s | typed t =>
    have hread := decodeStr_jsonChars hyears nofun nofun
    rw [Value.toJson, decodeValue, hread]
    · rfl
    · nofun
    · nofun
termination_by sizeOf v

theorem decodeItems_toJsonItems (items : List Value)
    (hyears : Value.everyItem Value.yearFits items = true) :
    decodeItems (Value.toJsonItems items) = .ok items := by
  cases items with
  | nil => rfl
  | cons v items =>
    obtain ⟨hv, hitems⟩ := Bool.and_eq_true_iff.1 hyears
    have hread := decodeValue_toJson v hv
    have hrest := decodeItems_toJsonItems items hitems
    rw [Value.toJsonItems, decodeItems, hread, hrest]
    rfl
termination_by sizeOf items

end

/-! ## Tags -/

/-- One member of an object as a tag of a dictionary. -/
def decodeTag (skipped : Option String) (d : Dict) (m : String × Json) : Except Fault Dict :=
  if skipped = some m.1 then .ok d
  else
    match decodeValue m.2 with
    | .error fault => .error fault
    | .ok value => checked (d.addOption? m.1 value)

theorem decodeTag_toJson {skipped : Option String} {d : Dict} {e : TagName × Value}
    (hyears : e.2.yearsFit = true) (hkept : skipped ≠ some e.1.text) :
    decodeTag skipped d (e.1.text, e.2.toJson) = .ok (d.set e.1 e.2) := by
  have hread := decodeValue_toJson e.2 hyears
  unfold decodeTag
  rw [if_neg hkept, hread]
  simp only [Dict.addOption?_text]
  rfl

theorem foldlM_decodeTag {skipped : Option String} {entries : List (TagName × Value)}
    (hyears : ∀ e ∈ entries, e.2.yearsFit = true)
    (hkept : ∀ e ∈ entries, skipped ≠ some e.1.text) (before : Dict) :
    (ofTags entries).foldlM (decodeTag skipped) before =
      .ok (entries.foldl (fun d e => d.set e.1 e.2) before) := by
  induction entries generalizing before with
  | nil => rfl
  | cons e entries ih =>
    have htag : decodeTag skipped before (e.1.text, e.2.toJson) = .ok (before.set e.1 e.2) :=
      decodeTag_toJson (hyears e List.mem_cons_self) (hkept e List.mem_cons_self)
    have hrest := ih (fun d hd => hyears d (List.mem_cons_of_mem _ hd))
      (fun d hd => hkept d (List.mem_cons_of_mem _ hd)) (before.set e.1 e.2)
    unfold ofTags at hrest ⊢
    rw [List.map_cons, List.foldlM_cons, htag]
    exact hrest

theorem ne_of_has_eq_false {d : Dict} (h : d.has name = false) :
    ∀ e ∈ d.entries, e.1.text ≠ name := by
  intro e he heq
  have hhas := Dict.has_iff_mem.2 (List.mem_map.2 ⟨e, he, heq⟩)
  rw [h] at hhas
  cases hhas

/-- The tags behind a member of a name that none of them has are read without it. -/
theorem decodeTags_behind (tree : Json) {d : Dict} (hyears : d.everyValue Value.yearsFit = true)
    (habsent : d.has name = false) :
    setMembers [(name, tree)] (ofTags d.entries) = (name, tree) :: ofTags d.entries ∧
      decodeTags (some name) ((name, tree) :: ofTags d.entries) = .ok d := by
  have hne := ne_of_has_eq_false habsent
  constructor
  · apply setMembers_distinct
    rw [List.singleton_append, List.map_cons, List.nodup_cons]
    constructor
    · intro hmem
      rw [ofTags_names] at hmem
      obtain ⟨n, hn, hname⟩ := List.mem_map.1 hmem
      obtain ⟨e, he, rfl⟩ := List.mem_map.1 hn
      exact hne e he hname
    · exact nodup_ofTags d.nodup_names
  · have hkept : ∀ e ∈ d.entries, some name ≠ some e.1.text := by
      intro e he heq
      exact hne e he (Option.some.inj heq).symm
    have hskip : decodeTag (some name) .empty (name, tree) = .ok .empty := if_pos rfl
    have hrest := foldlM_decodeTag (List.all_eq_true.1 hyears) hkept .empty
    rw [Dict.foldl_set_empty] at hrest
    have hdecode : decodeTags (some name) ((name, tree) :: ofTags d.entries) =
        ((name, tree) :: ofTags d.entries).foldlM (decodeTag (some name)) .empty := rfl
    rw [hdecode, List.foldlM_cons, hskip]
    exact hrest

end TagGrid.Json
