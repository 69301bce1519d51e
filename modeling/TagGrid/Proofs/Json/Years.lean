import TagGrid.Proofs.Json.Tags
import TagGrid.Proofs.Zinc.Misread

/-! # Years of more than four digits

A date or a timestamp stands in JSON by its Zinc text and is read by the reader of that
format. It comes back from the one encoding exactly if it comes back from the other, which is
up to the year 9999. Nothing else is lost in JSON.
-/

namespace TagGrid

namespace Json

variable {kind : Kind} {text : String} {payload : List Char} {tree : Json} {v : Value}

theorem toValue?_of_decodeTemporal (h : decodeTemporal kind text payload = .ok v) :
    Zinc.toValue? (String.ofList payload) = .ok (some v) := by
  unfold decodeTemporal at h
  split at h
  · cases h
  · rename_i hread
    split_ifs at h
    cases h
    exact hread
  · cases h

theorem decodeStr_temporal {mark : Char}
    (hmark : (mark, kind) ∈ [('d', Kind.date), ('t', .dateTime)]) (payload : List Char) :
    decodeStr (String.ofList (mark :: ':' :: payload)) =
      decodeTemporal kind (String.ofList (mark :: ':' :: payload)) payload := by
  simp only [List.mem_cons, Prod.mk.injEq, List.not_mem_nil, or_false] at hmark
  unfold decodeStr
  rw [String.toList_ofList]
  rcases hmark with ⟨rfl, rfl⟩ | ⟨rfl, rfl⟩
  · rfl
  · rfl

/-- A value that is written as its Zinc text behind a mark is read as in Zinc. -/
theorem zincSafe_of_decodeValue {mark : Char}
    (hmark : (mark, v.kind) ∈ [('d', Kind.date), ('t', .dateTime)])
    (hchars : v.jsonChars = mark :: ':' :: v.zinc)
    (h : decodeValue v.toJson = .ok (some v)) : v.zincSafe = true := by
  have hjson : v.toJson = .str (String.ofList (mark :: ':' :: v.zinc)) := by
    rw [Value.toJson, hchars]
    · rintro b rfl
      simp [Value.kind] at hmark
    · rintro items rfl
      simp [Value.kind] at hmark
  rw [hjson, decodeValue, decodeStr_temporal hmark] at h
  generalize hdecode : decodeTemporal v.kind _ v.zinc = decoded at h
  cases decoded with
  | error fault => cases h
  | ok w =>
    obtain rfl : w = v := Option.some.inj (Except.ok.inj h)
    exact (Zinc.toValue?_toZinc_iff w).1 (toValue?_of_decodeTemporal hdecode)

mutual

/-- A value that is decoded from its tree has no late year. -/
theorem yearsFit_of_decodeValue (v : Value) (h : decodeValue v.toJson = .ok (some v)) :
    v.yearsFit = true := by
  cases v with
  | list items =>
    rw [Value.toJson, decodeValue] at h
    apply yearsFit_of_decodeItems items
    cases hitems : decodeItems (Value.toJsonItems items) with
    | error fault =>
      rw [hitems] at h
      cases h
    | ok decoded =>
      rw [hitems] at h
      cases h
      rfl
  | date d =>
    have hsafe : (Value.date d).zincSafe = true :=
      zincSafe_of_decodeValue List.mem_cons_self rfl h
    exact (Bool.and_eq_true_iff.1 hsafe).1
  | dateTime t =>
    have hsafe : (Value.dateTime t).zincSafe = true :=
      zincSafe_of_decodeValue (List.mem_cons_of_mem _ List.mem_cons_self) rfl h
    exact (Bool.and_eq_true_iff.1 hsafe).1
  | marker | remove | na | bool b | number n | str s | uri s | ref r | time t | bin m | coord c
  | symbol s | typed t => rfl
termination_by sizeOf v

theorem yearsFit_of_decodeItems (items : List Value)
    (h : decodeItems (Value.toJsonItems items) = .ok items) :
    Value.everyItem Value.yearFits items = true := by
  cases items with
  | nil => rfl
  | cons v items =>
    rw [Value.toJsonItems, decodeItems] at h
    split at h
    · cases h
    · cases h
    · rename_i w hvalue
      cases hitems : decodeItems (Value.toJsonItems items) with
      | error fault =>
        rw [hitems] at h
        cases h
      | ok decoded =>
        rw [hitems] at h
        cases h
        exact Bool.and_eq_true_iff.2
          ⟨yearsFit_of_decodeValue v hvalue, yearsFit_of_decodeItems items hitems⟩
termination_by sizeOf items

end

/-- The values without a late year are the values that come back from JSON. -/
theorem toValue?_toJson_iff (v : Value) :
    v.toJson.toValue? = .ok (some v) ↔ v.yearsFit = true := by
  unfold toValue?
  rw [mapError_eq_ok]
  exact ⟨yearsFit_of_decodeValue v, decodeValue_toJson v⟩

/-- Which values with a date come back, from Zinc and from JSON alike. -/
theorem reads_back_iff_year (v : Value) (d : Date) (hsafe : v.zincSafe = (d.yearFits && true))
    (hfits : v.yearsFit = d.yearFits) :
    (Zinc.toValue? v.toZinc = .ok (some v) ↔ d.year ≤ 9999) ∧
      (v.toJson.toValue? = .ok (some v) ↔ d.year ≤ 9999) := by
  rw [Zinc.toValue?_toZinc_iff, toValue?_toJson_iff, hsafe, hfits, Bool.and_true]
  exact ⟨decide_eq_true_iff, decide_eq_true_iff⟩

/-- Dates and timestamps come back up to the year 9999, and no later ones do. -/
theorem dates_read_back_iff (d : Date) (t : Timestamp) :
    ((Zinc.toValue? (Value.date d).toZinc = .ok (some (.date d)) ↔ d.year ≤ 9999) ∧
      ((Value.date d).toJson.toValue? = .ok (some (.date d)) ↔ d.year ≤ 9999)) ∧
    (Zinc.toValue? (Value.dateTime t).toZinc = .ok (some (.dateTime t)) ↔ t.date.year ≤ 9999) ∧
      ((Value.dateTime t).toJson.toValue? = .ok (some (.dateTime t)) ↔ t.date.year ≤ 9999) :=
  ⟨reads_back_iff_year (.date d) d rfl rfl, reads_back_iff_year (.dateTime t) t.date rfl rfl⟩

/-- The first day of the year 10000 comes back from neither encoding. -/
theorem year_10000_is_lost :
    ∃ d, Date.ofFields? 10000 1 1 = .ok d ∧
      Zinc.toValue? (Value.date d).toZinc ≠ .ok (some (.date d)) ∧
      (Value.date d).toJson.toValue? ≠ .ok (some (.date d)) := by
  refine ⟨⟨10000, 1, 1, by decide⟩, rfl, ?_, ?_⟩
  · intro h
    exact absurd ((Zinc.toValue?_toZinc_iff _).1 h) (by decide)
  · intro h
    exact absurd ((toValue?_toJson_iff _).1 h) (by decide)

end Json

end TagGrid
