import TagGrid.Json.Decode
import TagGrid.Proofs.Zinc.Tags

/-! # Reading encoded strings back

All kinds of value but two share one form, a mark and a colon with the contents behind
them. The contents are cut at the first space, comma or colon, and no part of a value that
stands before such a cut holds that character.
-/

namespace TagGrid.Json

open Text

variable {c mark : Char} {cs front back payload : List Char}

/-! ## Cutting contents -/

theorem splitOnce?_append (h : mark ∉ front) :
    splitOnce? mark (front ++ mark :: back) = some (front, back) := by
  induction front with
  | nil =>
    unfold splitOnce?
    exact if_pos rfl
  | cons c front ih =>
    obtain ⟨hc, hfront⟩ := not_or.1 (fun h' => h (List.mem_cons.2 h'))
    rw [List.cons_append]
    unfold splitOnce?
    rw [if_neg (fun heq => hc heq.symm), ih hfront]
    rfl

theorem splitOnce?_of_not_mem (h : mark ∉ cs) : splitOnce? mark cs = none := by
  induction cs with
  | nil => rfl
  | cons c cs ih =>
    obtain ⟨hc, hcs⟩ := not_or.1 (fun h' => h (List.mem_cons.2 h'))
    unfold splitOnce?
    rw [if_neg (fun heq => hc heq.symm), ih hcs]
    rfl

theorem trimBlanks_eq (h : ∀ c ∈ cs, isBlank c = false) : trimBlanks cs = cs := by
  have hstops {ds : List Char} (hds : ∀ c ∈ ds, isBlank c = false) : Stops isBlank ds := by
    intro c hc
    exact hds c (List.mem_of_mem_head? hc)
  have hreverse : ∀ c ∈ cs.reverse, isBlank c = false := by
    intro c hc
    exact h c (List.mem_reverse.1 hc)
  unfold trimBlanks
  rw [(hstops h).dropWhile_eq, (hstops hreverse).dropWhile_eq, List.reverse_reverse]

/-! ## Numbers -/

/-- The keywords of numbers are not decimals. -/
theorem decodeDouble?_text (x : Double) : decodeDouble? x.text = some x := by
  cases x with
  | nan => rfl
  | infinity negative =>
    cases negative with
    | true => rfl
    | false => rfl
  | finite negative grains h =>
    have hread := Double.read?_text (.finite negative grains h)
    obtain ⟨c, cs, hcs, hdigit⟩ := (Double.plainText_shortest h).exists_cons
    have hc : c ≠ 'I' ∧ c ≠ 'N' := by
      constructor
      · rintro rfl
        exact absurd hdigit (by decide)
      · rintro rfl
        exact absurd hdigit (by decide)
    have htext : Double.text (.finite negative grains h) =
        (if negative then ['-'] else []) ++ c :: cs := by
      rw [Double.text_finite, hcs]
    rw [htext] at hread ⊢
    unfold decodeDouble?
    rw [if_neg, if_neg, if_neg, hread]
    · cases negative with
      | true => simp
      | false => simp [hc.2]
    · cases negative with
      | true => simp [hc.1]
      | false =>
        intro heq
        obtain ⟨rfl, -⟩ := List.cons.inj heq
        exact absurd hdigit (by decide)
    · cases negative with
      | true => simp
      | false => simp [hc.1]

theorem space_not_mem_text (x : Double) : ' ' ∉ x.text := by
  intro hmem
  rcases Double.mem_text hmem with halphanum | hpoint | hdash
  · exact absurd halphanum (by decide)
  · exact absurd hpoint (by decide)
  · exact absurd hdash (by decide)

theorem decodeNumber_plain {n : Number} (hunit : n.unit = none) (text : String) :
    decodeNumber text n.value.text = .ok (.number n) := by
  unfold decodeNumber
  rw [splitOnce?_of_not_mem (space_not_mem_text n.value)]
  simp only [decodeDouble?_text]
  cases n
  cases hunit
  rfl

theorem decodeNumber_unit {n : Number} {unit : String} (hunit : n.unit = some unit)
    (text : String) :
    decodeNumber text (n.value.text ++ ' ' :: unit.toList) = .ok (.number n) := by
  obtain ⟨value, nunit, valid⟩ := n
  obtain ⟨hname, hfinite⟩ := valid unit hunit
  cases hunit
  unfold decodeNumber
  rw [splitOnce?_append (space_not_mem_text value)]
  simp only [decodeDouble?_text, String.ofList_toList, Number.withUnit?]
  rw [dif_pos hname, dif_pos hfinite]
  rfl

/-! ## Refs, coordinates and typed texts -/

theorem mark_not_mem {p : Char → Bool} (h : ∀ d ∈ cs, p d = true) (hmark : p mark = false) :
    mark ∉ cs := by
  intro hmem
  have hp := h mark hmem
  rw [hmark] at hp
  cases hp

theorem space_not_mem_id (r : Ref) : ' ' ∉ r.id.toList := mark_not_mem r.id_spec.2 rfl

theorem decodeRef_id {r : Ref} (hdis : r.dis = none) : decodeRef r.id.toList = .ok (.ref r) := by
  unfold decodeRef
  rw [splitOnce?_of_not_mem (space_not_mem_id r)]
  simp only [String.ofList_toList]
  rw [← hdis, r.ofId?_id]
  rfl

theorem decodeRef_dis {r : Ref} {dis : String} (hdis : r.dis = some dis) :
    decodeRef (r.id.toList ++ ' ' :: dis.toList) = .ok (.ref r) := by
  unfold decodeRef
  rw [splitOnce?_append (space_not_mem_id r)]
  simp only [String.ofList_toList]
  rw [← hdis, r.ofId?_id]
  rfl

theorem microText_contents (micro : Int) :
    ',' ∉ Coord.microText micro ∧ trimBlanks (Coord.microText micro) = Coord.microText micro := by
  refine ⟨Coord.comma_not_mem_microText micro, ?_⟩
  apply trimBlanks_eq
  intro c hc
  rcases Coord.mem_microText hc with hdigit | rfl | rfl
  · rw [isDigit_iff] at hdigit
    exact isBlank_eq_false (by omega) (by omega)
  · decide
  · decide

theorem decodeCoord_pairText (coord : Coord) (text : String) :
    decodeCoord text coord.pairText = .ok (.coord coord) := by
  obtain ⟨lat, lng, hlat, hlng, hdegrees⟩ := coord.exists_ofDegrees?_eq
  obtain ⟨hcomma, htrimLat⟩ := microText_contents coord.microLat
  obtain ⟨-, htrimLng⟩ := microText_contents coord.microLng
  unfold decodeCoord Coord.pairText
  rw [splitOnce?_append hcomma]
  simp only [htrimLat, htrimLng, hlat, hlng, hdegrees]
  rfl

theorem decodeTyped_parts (t : TypedText) (text : String) :
    decodeTyped text (t.typeName.toList ++ ':' :: t.text.toList) = .ok (.typed t) := by
  obtain ⟨c, cs, hname, -, hchars⟩ := t.exists_typeName_cons
  have hcolon : ':' ∉ t.typeName.toList := by
    rw [hname]
    exact mark_not_mem hchars rfl
  unfold decodeTyped
  rw [if_neg (by simp), splitOnce?_append hcolon]
  simp only [String.ofList_toList, t.ofParts?_parts]
  rfl

/-- Dates and times are written and read as in the Zinc format. -/
theorem decodeTemporal_zinc {v : Value} (hsafe : v.zincSafe = true) (text : String) :
    decodeTemporal v.kind text v.zinc = .ok v := by
  have hread : Zinc.toValue? (String.ofList v.zinc) = .ok (some v) := Zinc.toValue?_toZinc hsafe
  unfold decodeTemporal
  rw [hread]
  exact if_pos rfl

/-! ## Strings -/

/-- A text that does not look encoded is a string, and one that does is marked as one. -/
theorem decodeStr_str (s : String) :
    decodeStr (String.ofList (Value.str s).jsonChars) = .ok (.str s) := by
  by_cases hlooks : looksEncoded s.toList = true
  · have hmarked : (Value.str s).jsonChars = 's' :: ':' :: s.toList := if_pos hlooks
    have hdecode : decodeStr (String.ofList ('s' :: ':' :: s.toList)) =
        .ok (.str (String.ofList s.toList)) := by
      unfold decodeStr
      rw [String.toList_ofList]
      rfl
    rw [hmarked, hdecode, String.ofList_toList]
  · have hbare : (Value.str s).jsonChars = s.toList := if_neg hlooks
    rw [hbare, String.ofList_toList]
    unfold decodeStr
    exact if_neg hlooks

/-- Every mark leads to the reader of its kind. -/
theorem decodeStr_jsonChars {v : Value} (hyears : v.yearsFit = true)
    (hbool : ∀ b, v ≠ .bool b) (hlist : ∀ items, v ≠ .list items) :
    decodeStr (String.ofList v.jsonChars) = .ok v := by
  unfold decodeStr
  rw [String.toList_ofList]
  cases v with
  | bool b => exact absurd rfl (hbool b)
  | list items => exact absurd rfl (hlist items)
  | str s =>
    have hread := decodeStr_str s
    unfold decodeStr at hread
    rw [String.toList_ofList] at hread
    exact hread
  | marker => rfl
  | remove => rfl
  | na => rfl
  | number n =>
    cases hunit : n.unit with
    | none =>
      have htext : (Value.number n).jsonChars = 'n' :: ':' :: n.value.text := by
        simp [Value.jsonChars, hunit]
      rw [htext]
      exact decodeNumber_plain hunit _
    | some unit =>
      have htext : (Value.number n).jsonChars =
          'n' :: ':' :: (n.value.text ++ ' ' :: unit.toList) := by
        simp [Value.jsonChars, hunit]
      rw [htext]
      exact decodeNumber_unit hunit _
  | uri s => exact congrArg (fun s => Except.ok (Value.uri s)) String.ofList_toList
  | ref r =>
    cases hdis : r.dis with
    | none =>
      have htext : (Value.ref r).jsonChars = 'r' :: ':' :: r.id.toList := by
        simp [Value.jsonChars, hdis]
      rw [htext]
      exact decodeRef_id hdis
    | some dis =>
      have htext : (Value.ref r).jsonChars =
          'r' :: ':' :: (r.id.toList ++ ' ' :: dis.toList) := by
        simp [Value.jsonChars, hdis]
      rw [htext]
      exact decodeRef_dis hdis
  | date d =>
    have hsafe : (Value.date d).zincSafe = true := Bool.and_eq_true_iff.2 ⟨hyears, rfl⟩
    exact decodeTemporal_zinc hsafe _
  | time t =>
    have hsafe : (Value.time t).zincSafe = true := rfl
    exact decodeTemporal_zinc hsafe _
  | dateTime t =>
    have hsafe : (Value.dateTime t).zincSafe = true := Bool.and_eq_true_iff.2 ⟨hyears, rfl⟩
    exact decodeTemporal_zinc hsafe _
  | bin m =>
    have hread : (checked (MediaType.ofText? (String.ofList m.mime.toList))).map Value.bin =
        .ok (.bin m) := by
      rw [String.ofList_toList, m.ofText?_mime]
      rfl
    exact hread
  | coord c => exact decodeCoord_pairText c _
  | symbol s =>
    have hread : (checked (Symbol.ofName? (String.ofList s.name.toList))).map Value.symbol =
        .ok (.symbol s) := by
      rw [String.ofList_toList, s.ofName?_name]
      rfl
    exact hread
  | typed t => exact decodeTyped_parts t _

end TagGrid.Json
