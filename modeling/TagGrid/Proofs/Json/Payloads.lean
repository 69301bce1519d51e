import TagGrid.Proofs.Json.Strings

/-! # Payloads of encoded strings

Whatever is decoded from a string with a mark is of the kind of that mark. Five kinds are nothing
but the text behind it, and of these nothing is trimmed or overlooked: a string is decoded to such
a value exactly if it is its encoding, and is refused otherwise. Three kinds have no payload, and
there nobody looks whether one is given.
-/

namespace TagGrid

/-- The mark of a kind in encoded strings; booleans and lists are not strings. -/
def Kind.mark? : Kind → Option Char
  | .marker => 'm'
  | .remove => '-'
  | .na => 'z'
  | .number => 'n'
  | .str => 's'
  | .uri => 'u'
  | .ref => 'r'
  | .date => 'd'
  | .time => 'h'
  | .dateTime => 't'
  | .bin => 'b'
  | .coord => 'c'
  | .symbol => 'y'
  | .typed => 'x'
  | .bool | .list => none

theorem Kind.mark?_inj {k l : Kind} {mark : Char} (hk : k.mark? = some mark)
    (hl : l.mark? = some mark) : k = l := by
  cases k <;> cases hk <;> cases l <;> first | rfl | cases hl

/-- The kinds that are nothing but the text behind the mark. -/
def Kind.isText : Kind → Bool
  | .uri | .ref | .bin | .symbol | .typed => true
  | _ => false

/-- The kinds of a single value, which need no text. -/
def Kind.isBare : Kind → Bool
  | .marker | .remove | .na => true
  | _ => false

namespace Json

variable {s text : String} {v : Value} {kind : Kind} {mark : Char}
  {cs front back payload : List Char}

theorem eq_append_of_splitOnce? (h : splitOnce? mark cs = some (front, back)) :
    cs = front ++ mark :: back := by
  induction cs generalizing front with
  | nil => cases h
  | cons c cs ih =>
    rw [splitOnce?] at h
    split at h
    · cases h
      rename_i hc
      rw [hc]
      rfl
    · obtain ⟨⟨front', back'⟩, hsplit, hparts⟩ := Option.map_eq_some_iff.1 h
      cases hparts
      rw [ih hsplit]
      rfl

theorem exists_mark (h : looksEncoded cs = true) : ∃ mark payload, cs = mark :: ':' :: payload := by
  unfold looksEncoded at h
  split at h
  · exact ⟨_, _, rfl⟩
  · cases h

theorem of_checked_map {α : Type} {r : Except Violation α} {make : α → Value}
    (h : (checked r).map make = .ok v) : ∃ a, r = .ok a ∧ make a = v := by
  obtain ⟨a, ha, hmake⟩ := map_eq_ok h
  exact ⟨a, mapError_eq_ok.1 ha, hmake⟩

/-! ## The kind of what is decoded -/

theorem kind_of_decodeNumber (h : decodeNumber text payload = .ok v) : v.kind = .number := by
  unfold decodeNumber at h
  dsimp only at h
  split at h
  · cases h
  · split at h
    · obtain ⟨n, -, rfl⟩ := of_checked_map h
      rfl
    · cases h
      rfl

theorem kind_of_decodeTemporal (h : decodeTemporal kind text payload = .ok v) :
    v.kind = kind := by
  unfold decodeTemporal at h
  split at h
  · cases h
  · split at h
    · cases h
      assumption
    · cases h
  · cases h

theorem kind_of_decodeCoord (h : decodeCoord text payload = .ok v) : v.kind = .coord := by
  unfold decodeCoord at h
  split at h
  · cases h
  · split at h
    · obtain ⟨c, -, rfl⟩ := of_checked_map h
      rfl
    · cases h

/-! ## What a text keeps -/

theorem jsonChars_of_decodeRef (h : decodeRef payload = .ok v) :
    v.kind = .ref ∧ v.jsonChars = 'r' :: ':' :: payload := by
  unfold decodeRef at h
  obtain ⟨r, hr, rfl⟩ := of_checked_map h
  refine ⟨rfl, ?_⟩
  split at hr
  · rename_i id dis hsplit
    obtain ⟨hid, hdis⟩ := Ref.parts_of_ofId? hr
    rw [eq_append_of_splitOnce? hsplit]
    simp [Value.jsonChars, hid, hdis]
  · obtain ⟨hid, hdis⟩ := Ref.parts_of_ofId? hr
    simp [Value.jsonChars, hid, hdis]

theorem jsonChars_of_decodeTyped (h : decodeTyped text payload = .ok v) (hne : payload ≠ []) :
    v.kind = .typed ∧ v.jsonChars = 'x' :: ':' :: payload := by
  unfold decodeTyped at h
  rw [if_neg hne] at h
  split at h
  · cases h
  · rename_i typeName contents hsplit
    obtain ⟨t, ht, rfl⟩ := of_checked_map h
    obtain ⟨hname, htext⟩ := TypedText.parts_of_ofParts? ht
    refine ⟨rfl, ?_⟩
    rw [eq_append_of_splitOnce? hsplit]
    simp [Value.jsonChars, hname, htext]

/-- Of a value that is more than a text it is only the kind that the mark tells. -/
theorem marked_of_kind (hkind : v.kind = kind) (hmark : kind.mark? = some mark)
    (hother : kind.isText = false) :
    v.kind.mark? = some mark ∧ (v.kind.isText = true → v.jsonChars = cs) := by
  rw [hkind]
  refine ⟨hmark, fun htext => ?_⟩
  rw [hother] at htext
  cases htext

/-- The mark of a string tells the kind, and a kind of texts keeps all of the string. -/
theorem decodeStr_marked (hs : s.toList = mark :: ':' :: payload)
    (hlooks : looksEncoded s.toList = true) (hx : mark = 'x' → payload ≠ [])
    (h : decodeStr s = .ok v) :
    v.kind.mark? = some mark ∧ (v.kind.isText = true → v.jsonChars = s.toList) := by
  unfold decodeStr at h
  rw [if_pos hlooks, hs] at h
  rw [hs]
  dsimp only [List.drop] at h
  split at h
  case h_15 => cases h
  all_goals
    rename_i heq
    obtain ⟨rfl, -⟩ := List.cons.inj heq
  case h_1 | h_2 | h_3 | h_4 =>
    cases h
    exact marked_of_kind rfl rfl rfl
  case h_5 =>
    cases h
    exact ⟨rfl, fun _ => by simp [Value.jsonChars]⟩
  case h_6 => exact marked_of_kind (kind_of_decodeNumber h) rfl rfl
  case h_7 =>
    obtain ⟨hkind, hchars⟩ := jsonChars_of_decodeRef h
    rw [hkind]
    exact ⟨rfl, fun _ => hchars⟩
  case h_8 | h_9 | h_10 => exact marked_of_kind (kind_of_decodeTemporal h) rfl rfl
  case h_11 => exact marked_of_kind (kind_of_decodeCoord h) rfl rfl
  case h_12 =>
    obtain ⟨m, hm, rfl⟩ := of_checked_map h
    refine ⟨rfl, fun _ => ?_⟩
    simp [Value.jsonChars, MediaType.mime_of_ofText? hm]
  case h_13 =>
    obtain ⟨symbol, hsymbol, rfl⟩ := of_checked_map h
    refine ⟨rfl, fun _ => ?_⟩
    simp [Value.jsonChars, Symbol.name_of_ofName? hsymbol]
  case h_14 =>
    obtain ⟨hkind, hchars⟩ := jsonChars_of_decodeTyped h (hx rfl)
    rw [hkind]
    exact ⟨rfl, fun _ => hchars⟩

/-- The old spelling of an instruction to delete. -/
theorem decodeStr_legacy : decodeStr "x:" = .ok .remove := rfl

theorem exists_mark_of_decodeStr (h : decodeStr s = .ok v)
    (hkind : v.kind.isText = true ∨ v.kind.isBare = true) (hs : s ≠ "x:") :
    ∃ mark payload, s.toList = mark :: ':' :: payload ∧
      v.kind.mark? = some mark ∧ (v.kind.isText = true → v.jsonChars = s.toList) := by
  have hlooks : looksEncoded s.toList = true := by
    by_contra hlooks
    unfold decodeStr at h
    rw [if_neg hlooks] at h
    cases h
    rcases hkind with hkind | hkind
    · cases hkind
    · cases hkind
  obtain ⟨mark, payload, hchars⟩ := exists_mark hlooks
  refine ⟨mark, payload, hchars, decodeStr_marked hchars hlooks ?_ h⟩
  rintro rfl rfl
  exact hs (String.toList_inj.1 hchars)

/-- The strings that are decoded to a value of text are the encodings of that value. -/
theorem decodeStr_eq_ok_iff (htext : v.kind.isText = true) :
    decodeStr s = .ok v ↔ String.ofList v.jsonChars = s := by
  constructor
  · intro h
    have hs : s ≠ "x:" := by
      rintro rfl
      rw [decodeStr_legacy] at h
      cases h
      cases htext
    obtain ⟨mark, payload, -, -, hchars⟩ := exists_mark_of_decodeStr h (.inl htext) hs
    rw [hchars htext, String.ofList_toList]
  · rintro rfl
    cases v with
    | uri | ref | bin | symbol | typed => exact decodeStr_jsonChars rfl nofun nofun
    | _ => cases htext

/-- A value that needs no text is encoded as its mark alone. -/
theorem bare_eq_iff (h : decodeStr s = .ok v) (hbare : v.kind.isBare = true) (hs : s ≠ "x:") :
    String.ofList v.jsonChars = s ↔ s.length = 2 := by
  obtain ⟨mark, payload, hchars, hmark, -⟩ := exists_mark_of_decodeStr h (.inr hbare) hs
  have hmarked : v.jsonChars = [mark, ':'] := by
    cases v with
    | marker | remove | na =>
      cases hmark
      rfl
    | _ => cases hbare
  rw [← String.toList_inj, String.toList_ofList, hmarked, ← String.length_toList, hchars]
  simp

theorem looksEncoded_mark (h : kind.mark? = some mark) (payload : List Char) :
    looksEncoded (mark :: ':' :: payload) = true := by
  cases kind <;> cases h <;> rfl

/-- What stands behind the mark of a kind of texts is a text of that kind, or is refused. -/
theorem encoded_or_refused (hchars : s.toList = mark :: ':' :: payload)
    (hmark : kind.mark? = some mark) (htext : kind.isText = true) (hs : s ≠ "x:") :
    (∃ v : Value, v.kind = kind ∧ String.ofList v.jsonChars = s) ∨
      ∃ message, (Json.str s).toValue? = .error (.parse 0 message) := by
  cases hdecode : decodeStr s with
  | error fault =>
    right
    refine ⟨fault.message, ?_⟩
    rw [toValue?, decodeValue, hdecode]
    rfl
  | ok v =>
    left
    have hlooks : looksEncoded s.toList = true := by
      rw [hchars]
      exact looksEncoded_mark hmark payload
    have hx : mark = 'x' → payload ≠ [] := by
      rintro rfl rfl
      exact hs (String.toList_inj.1 hchars)
    obtain ⟨hmark', hkept⟩ := decodeStr_marked hchars hlooks hx hdecode
    obtain rfl := Kind.mark?_inj hmark hmark'
    refine ⟨v, rfl, ?_⟩
    rw [hkept htext, String.ofList_toList]

/-- Let a string be anything but the legacy `x:`. A URI, a ref, a media type, a symbol or a typed
text is decoded from its encoding and from nothing else, so no two strings are decoded to the same
one, and a payload that is none is refused as malformed. A marker, an instruction to delete and
the value for what is not available have no payload: of the strings that are decoded to one of
them it is the mark alone that is its encoding. -/
theorem payloads_are_kept (s : String) (hs : s ≠ "x:") :
    (∀ v : Value, v.kind.isText = true → (decodeStr s = .ok v ↔ String.ofList v.jsonChars = s)) ∧
    (∀ (t : String) (v : Value), v.kind.isText = true →
      decodeStr s = .ok v → decodeStr t = .ok v → s = t) ∧
    (∀ (kind : Kind) (mark : Char) (payload : List Char), s.toList = mark :: ':' :: payload →
      kind.mark? = some mark → kind.isText = true →
        (∃ v : Value, v.kind = kind ∧ String.ofList v.jsonChars = s) ∨
          ∃ message, (Json.str s).toValue? = .error (.parse 0 message)) ∧
    ∀ v : Value, v.kind.isBare = true → decodeStr s = .ok v →
      (String.ofList v.jsonChars = s ↔ s.length = 2) := by
  refine ⟨fun v => decodeStr_eq_ok_iff, fun t v htext hsv htv => ?_,
    fun kind mark payload hchars hmark htext => encoded_or_refused hchars hmark htext hs,
    fun v hbare h => bare_eq_iff h hbare hs⟩
  rw [← (decodeStr_eq_ok_iff htext).1 hsv, ← (decodeStr_eq_ok_iff htext).1 htv]

/-- A ref whose text to display has a space and a colon in it. -/
def displayedRef : Value := .ref ⟨"p1", some "Point 1: in", by decide⟩

theorem displayedRef_is_kept :
    (displayedRef.kind.isText = true ∧ decodeStr "r:p1 Point 1: in" = .ok displayedRef) ∧
    "r:p1 Point 1: in" = String.ofList displayedRef.jsonChars ∧
    ((∃ v : Value, v.kind = .ref ∧ String.ofList v.jsonChars = "r:p!") ∨
      ∃ message, (Json.str "r:p!").toValue? = .error (.parse 0 message)) ∧
    (Kind.isBare .marker = true ∧ decodeStr "m:" = .ok .marker ∧
      String.ofList Value.marker.jsonChars = "m:") := by
  obtain ⟨hiff, hinj, -, -⟩ := payloads_are_kept "r:p1 Point 1: in" (by decide)
  obtain ⟨-, -, hrefused, -⟩ := payloads_are_kept "r:p!" (by decide)
  obtain ⟨-, -, -, hbare⟩ := payloads_are_kept "m:" (by decide)
  have hread := (hiff displayedRef rfl).2 rfl
  have hsame := hinj (String.ofList displayedRef.jsonChars) displayedRef rfl hread hread
  have hmarked := hrefused .ref 'r' ['p', '!'] rfl rfl rfl
  have hmarker := (hbare .marker rfl rfl).2 rfl
  exact ⟨⟨rfl, hread⟩, hsame, hmarked, rfl, rfl, hmarker⟩

/-- What stands behind the mark of a marker is dropped. -/
theorem marker_payload_is_dropped :
    decodeStr "m:extra" = .ok .marker ∧ decodeStr "m:" = .ok .marker ∧
      String.ofList Value.marker.jsonChars ≠ "m:extra" :=
  ⟨rfl, rfl, by decide⟩

end Json

end TagGrid
