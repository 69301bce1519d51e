import TagGrid.Proofs.Value.Degrees
import TagGrid.Proofs.Zinc.Numbers
import TagGrid.Proofs.Zinc.Quoted
import TagGrid.Zinc.ValueText

/-! # Reading single values back

For each kind of value but lists, the reader takes from its text, and whatever can follow
it, exactly the value. Keywords, numbers and names end where what follows cannot go on
with them; quoted texts and contents in parentheses have an end of their own.
-/

namespace TagGrid

/-! ## The checks that values have passed -/

theorem Ref.ofId?_id (r : Ref) : ofId? r.id r.dis = .ok r := dif_pos r.valid

theorem MediaType.ofText?_mime (m : MediaType) : ofText? m.mime = .ok m := dif_pos m.valid

theorem Symbol.ofName?_name (s : Symbol) : ofName? s.name = .ok s := dif_pos s.valid

theorem TypedText.ofParts?_parts (t : TypedText) : ofParts? t.typeName t.text = .ok t :=
  dif_pos t.valid

theorem Ref.parts_of_ofId? {id : String} {dis : Option String} {r : Ref}
    (h : ofId? id dis = .ok r) : r.id = id ∧ r.dis = dis := by
  obtain ⟨-, rfl⟩ := dite_eq_ok h
  exact ⟨rfl, rfl⟩

theorem MediaType.mime_of_ofText? {mime : String} {m : MediaType} (h : ofText? mime = .ok m) :
    m.mime = mime := by
  obtain ⟨-, rfl⟩ := dite_eq_ok h
  rfl

theorem Symbol.name_of_ofName? {name : String} {s : Symbol} (h : ofName? name = .ok s) :
    s.name = name := by
  obtain ⟨-, rfl⟩ := dite_eq_ok h
  rfl

theorem TypedText.parts_of_ofParts? {typeName text : String} {t : TypedText}
    (h : ofParts? typeName text = .ok t) : t.typeName = typeName ∧ t.text = text := by
  obtain ⟨-, rfl⟩ := dite_eq_ok h
  exact ⟨rfl, rfl⟩

theorem Ref.id_spec (r : Ref) :
    r.id.toList ≠ [] ∧ ∀ c ∈ r.id.toList, isRefChar c = true := by
  have hvalid := r.valid
  simp only [isRefId, Bool.and_eq_true, Bool.not_eq_true', List.isEmpty_eq_false_iff,
    List.all_eq_true] at hvalid
  exact hvalid

theorem TypedText.exists_typeName_cons (t : TypedText) :
    ∃ c cs, t.typeName.toList = c :: cs ∧ c.isUpper = true ∧
      ∀ d ∈ c :: cs, Text.isNameChar d = true := by
  have hvalid := t.valid
  cases hname : t.typeName.toList with
  | nil => simp [hname, isTypeName] at hvalid
  | cons c cs =>
    simp only [hname, isTypeName, Bool.and_eq_true, List.all_eq_true] at hvalid
    obtain ⟨hupper, hchars⟩ := hvalid
    refine ⟨c, cs, rfl, hupper, ?_⟩
    intro d hd
    rcases List.mem_cons.1 hd with rfl | hd
    · exact Text.isNameChar_of_isAlpha (Text.isAlpha_of_isUpper hupper)
    · exact hchars d hd

namespace Zinc

open Text Outcome

variable {setting : Setting} {c : Char} {cs word rest : List Char}

/-! ## Which reader a first character calls -/

theorem readValue_cons (hc : c ≠ '[') (setting : Setting) (cs : List Char) :
    readValue setting (c :: cs) = readAtom setting (c :: cs) := by
  rw [readValue.eq_def]
  split
  · rename_i heq
    exact absurd (List.cons.inj heq).1 hc
  · rfl

theorem readValue_list (setting : Setting) (cs : List Char) :
    readValue setting ('[' :: cs) =
      (readItems setting cs).map fun items => some (.list items) := by
  rw [readValue.eq_def]
  rfl

/-- The characters that start a value by themselves. -/
theorem readAtom_cons (hc : c ∉ ['-', '"', '\x60', '@', '^']) (setting : Setting)
    (cs : List Char) : readAtom setting (c :: cs) =
      if c.isDigit then (readDigitLiteral (c :: cs)).map some
      else if c.isAlpha then readWordValue setting (c :: cs)
      else failHere (.valueStart c) (c :: cs) := by
  simp only [List.mem_cons, List.not_mem_nil, or_false, not_or] at hc
  unfold readAtom
  split <;> simp_all

theorem readValue_digit (hc : c.isDigit = true) (setting : Setting) (cs : List Char) :
    readValue setting (c :: cs) = (readDigitLiteral (c :: cs)).map some := by
  have hbracket : c ≠ '[' := by
    rintro rfl
    exact absurd hc (by decide)
  have hmark : c ∉ ['-', '"', '\x60', '@', '^'] := by
    intro hmem
    have hmarks : ['-', '"', '\x60', '@', '^'].any Char.isDigit = false := by decide
    exact List.any_eq_false.1 hmarks c hmem hc
  rw [readValue_cons hbracket, readAtom_cons hmark, if_pos hc]

theorem readValue_alpha (hc : c.isAlpha = true) (setting : Setting) (cs : List Char) :
    readValue setting (c :: cs) = readWordValue setting (c :: cs) := by
  have hbracket : c ≠ '[' := by
    rintro rfl
    exact absurd hc (by decide)
  have hmark : c ∉ ['-', '"', '\x60', '@', '^'] := by
    intro hmem
    have hmarks : ['-', '"', '\x60', '@', '^'].any Char.isAlpha = false := by decide
    exact List.any_eq_false.1 hmarks c hmem hc
  have hdigit : c.isDigit ≠ true := by
    rw [isAlpha_iff] at hc
    rw [ne_eq, isDigit_iff]
    omega
  rw [readValue_cons hbracket, readAtom_cons hmark, if_neg hdigit, if_pos hc]

/-! ## Words -/

theorem readWordValue_keyword {value : Option Value} (hword : ∀ c ∈ word, isNameChar c = true)
    (hkeyword : keyword? setting word = some value) (hrest : Stops isNameChar rest) :
    readWordValue setting (word ++ rest) = ok value rest := by
  simp only [readWordValue, Stops.takeWhile_append hword hrest,
    Stops.dropWhile_append hword hrest, hkeyword]

/-- A keyword is read as its value wherever a value can stand. -/
theorem readsBack_keyword {v : Value} (hc : c.isAlpha = true)
    (hword : (c :: cs).all isNameChar = true)
    (hkeyword : ∀ setting, keyword? setting (c :: cs) = some (some v)) :
    ReadsBack (c :: cs) v := by
  intro setting rest hrest
  rw [List.cons_append, readValue_alpha hc, ← List.cons_append]
  have hstops : Stops isNameChar rest := hrest.stops (by decide)
  exact readWordValue_keyword (List.all_eq_true.1 hword) (hkeyword setting) hstops

theorem readsBack_marker : ReadsBack ['M'] .marker :=
  readsBack_keyword rfl (by decide) fun _ => rfl

theorem readsBack_remove : ReadsBack ['R'] .remove :=
  readsBack_keyword rfl (by decide) fun _ => rfl

theorem readsBack_na : ReadsBack ['N', 'A'] .na :=
  readsBack_keyword rfl (by decide) fun _ => rfl

theorem readsBack_bool (b : Bool) : ReadsBack (Value.bool b).zinc (.bool b) := by
  cases b with
  | true => exact readsBack_keyword rfl (by decide) fun _ => rfl
  | false => exact readsBack_keyword rfl (by decide) fun _ => rfl

/-! ## Numbers -/

theorem readValue_dash (setting : Setting) (cs : List Char) :
    readValue setting ('-' :: cs) = (readNegative cs).map some := by
  rw [readValue_cons (by decide)]
  rfl

theorem unit_eq_none {n : Number} (h : n.value.isFinite = false) : n.unit = none := by
  cases hunit : n.unit with
  | none => rfl
  | some unit =>
    have hfinite := (n.valid unit hunit).2
    rw [h] at hfinite
    cases hfinite

theorem unitText_eq_nil {n : Number} (h : n.value.isFinite = false) : unitText n = [] := by
  unfold unitText
  rw [unit_eq_none h]

theorem number_eq_ofDouble {n : Number} (h : n.value.isFinite = false) :
    Value.number n = .ofDouble n.value := by
  have hunit := unit_eq_none h
  cases n
  cases hunit
  rfl

theorem readsBack_number {n : Number} (hsafe : n.zincSafe = true) :
    ReadsBack n.text (.number n) := by
  have htext : n.text = n.value.text ++ unitText n := rfl
  cases hvalue : n.value with
  | nan =>
    have hnot : n.value.isFinite = false := by rw [hvalue]; rfl
    rw [htext, number_eq_ofDouble hnot, unitText_eq_nil hnot, hvalue]
    exact readsBack_keyword rfl (by decide) fun _ => rfl
  | infinity negative =>
    have hnot : n.value.isFinite = false := by rw [hvalue]; rfl
    rw [htext, number_eq_ofDouble hnot, unitText_eq_nil hnot, hvalue]
    cases negative with
    | false => exact readsBack_keyword rfl (by decide) fun _ => rfl
    | true =>
      intro setting rest hrest
      have hstops : Stops Char.isAlphanum rest := hrest.stops (by decide)
      have hword : ∀ c ∈ ['I', 'N', 'F'], c.isAlphanum = true := List.all_eq_true.1 (by decide)
      show readValue setting ('-' :: (['I', 'N', 'F'] ++ rest)) = _
      rw [readValue_dash]
      show Outcome.map some
        (if (['I', 'N', 'F'] ++ rest).takeWhile Char.isAlphanum = ['I', 'N', 'F'] then _ else _) = _
      rw [Stops.takeWhile_append hword hstops, if_pos rfl]
      show ok _ ((['I', 'N', 'F'] ++ rest).dropWhile Char.isAlphanum) = _
      rw [Stops.dropWhile_append hword hstops]
  | finite negative grains h =>
    intro setting rest hrest
    have hplain := Double.plainText_shortest h
    obtain ⟨c, cs, hcs, hdigit⟩ := hplain.exists_cons
    rw [hcs] at hplain
    have hn : n.value.text = (if negative then ['-'] else []) ++ c :: cs := by
      rw [hvalue, Double.text_finite, hcs]
    rw [htext, List.append_assoc]
    cases negative with
    | false =>
      rw [hn]
      show readValue setting (c :: (cs ++ (unitText n ++ rest))) = _
      rw [readValue_digit hdigit, readDigitLiteral_number hn hplain hsafe hrest]
      rfl
    | true =>
      have hn : n.value.text = '-' :: (c :: cs) := hn
      rw [hn, List.cons_append, readValue_dash, readNegative_number hn hplain hsafe hrest]
      rfl

/-! ## Dates and times -/

theorem readsBack_of_readDigitLiteral {v : Value} {text : List Char}
    (hstart : ∃ c cs, text = c :: cs ∧ c.isDigit = true)
    (hread : ∀ rest, Follows rest → readDigitLiteral (text ++ rest) = ok v rest) :
    ReadsBack text v := by
  obtain ⟨c, cs, rfl, hc⟩ := hstart
  intro setting rest hrest
  rw [List.cons_append, readValue_digit hc, ← List.cons_append, hread rest hrest]
  rfl

theorem exists_decimalPadded_cons (width n : Nat) :
    ∃ c cs, decimalPadded width n = c :: cs ∧ c.isDigit = true := by
  have hdigits : ∀ c ∈ decimalPadded width n, c.isDigit = true := isDigit_of_mem_decimalPadded
  obtain ⟨c, cs, hcs⟩ := List.exists_cons_of_ne_nil (decimalPadded_ne_nil width n)
  rw [hcs] at hdigits
  exact ⟨c, cs, hcs, hdigits c List.mem_cons_self⟩

theorem exists_date_cons (d : Date) : ∃ c cs, d.text = c :: cs ∧ c.isDigit = true := by
  obtain ⟨c, cs, hcs, hc⟩ := exists_decimalPadded_cons 4 d.year
  unfold Date.text
  rw [hcs]
  exact ⟨c, _, rfl, hc⟩

theorem exists_time_cons (t : TimeOfDay) : ∃ c cs, t.text = c :: cs ∧ c.isDigit = true := by
  obtain ⟨c, cs, hcs, hc⟩ := exists_decimalPadded_cons 2 t.hour
  unfold TimeOfDay.text
  rw [hcs]
  exact ⟨c, _, rfl, hc⟩

theorem exists_dateTime_cons (t : Timestamp) : ∃ c cs, t.text = c :: cs ∧ c.isDigit = true := by
  obtain ⟨c, cs, hcs, hc⟩ := exists_date_cons t.date
  unfold Timestamp.text
  rw [hcs]
  exact ⟨c, _, rfl, hc⟩

theorem readsBack_date {d : Date} (h : d.yearFits = true) : ReadsBack d.text (.date d) := by
  apply readsBack_of_readDigitLiteral (exists_date_cons d)
  intro rest hrest
  exact readDigitLiteral_date (of_decide_eq_true h) hrest

theorem readsBack_time (t : TimeOfDay) : ReadsBack t.text (.time t) := by
  apply readsBack_of_readDigitLiteral (exists_time_cons t)
  intro rest hrest
  exact readDigitLiteral_time t hrest

theorem readsBack_dateTime {t : Timestamp} (h : t.date.yearFits = true) :
    ReadsBack t.text (.dateTime t) := by
  apply readsBack_of_readDigitLiteral (exists_dateTime_cons t)
  intro rest hrest
  exact readDigitLiteral_dateTime (of_decide_eq_true h) hrest

/-! ## Quoted texts and names behind a mark -/

theorem readsBack_str (s : String) : ReadsBack (strLiteral s) (.str s) := by
  intro setting rest _
  have hread := readStr_strLiteral s rest
  unfold strLiteral literal at *
  rw [List.cons_append, List.cons_append] at *
  rw [readValue_cons (by decide)]
  show (readStr _).map _ = _
  rw [hread]
  rfl

theorem readsBack_uri (s : String) : ReadsBack (uriLiteral s) (.uri s) := by
  intro setting rest _
  have hread := readUri_uriLiteral s rest
  unfold uriLiteral literal at *
  rw [List.cons_append, List.cons_append] at *
  rw [readValue_cons (by decide)]
  show (readUri _).map _ = _
  rw [hread]
  rfl

theorem readRef_of_none {r : Ref} (hdis : r.dis = none) (hrest : Follows rest) :
    readRef (r.id.toList ++ rest) = ok r rest := by
  obtain ⟨hne, hall⟩ := r.id_spec
  have hstops : Stops isRefChar rest := hrest.stops (by decide)
  simp only [readRef, Stops.takeWhile_append hall hstops, Stops.dropWhile_append hall hstops,
    hne, if_false, String.ofList_toList]
  split
  · exact absurd rfl (hrest.2 rfl)
  · rw [← hdis, Ref.ofId?_id]
    rfl

theorem readRef_of_some {r : Ref} {dis : String} (hdis : r.dis = some dis) (rest : List Char) :
    readRef (r.id.toList ++ (' ' :: strLiteral dis ++ rest)) = ok r rest := by
  obtain ⟨hne, hall⟩ := r.id_spec
  have hstops : Stops isRefChar (' ' :: strLiteral dis ++ rest) := Stops.cons rfl
  have hread := readStr_strLiteral dis rest
  simp only [readRef, Stops.takeWhile_append hall hstops, Stops.dropWhile_append hall hstops,
    hne, if_false, String.ofList_toList]
  unfold strLiteral literal at *
  simp only [List.cons_append] at *
  rw [hread, bind_ok, ← hdis, Ref.ofId?_id]
  rfl

theorem readsBack_ref (r : Ref) : ReadsBack (Value.ref r).zinc (.ref r) := by
  intro setting rest hrest
  simp only [Value.zinc, List.cons_append, List.append_assoc]
  rw [readValue_cons (by decide)]
  show (readRef _).map _ = _
  cases hdis : r.dis with
  | none =>
    show (readRef (r.id.toList ++ rest)).map _ = _
    rw [readRef_of_none hdis hrest]
    rfl
  | some dis =>
    show (readRef (r.id.toList ++ (' ' :: strLiteral dis ++ rest))).map _ = _
    rw [readRef_of_some hdis]
    rfl

theorem readSymbol_name (s : Symbol) (hrest : Follows rest) :
    readSymbol (s.name.toList ++ rest) = ok s rest := by
  have hvalid := s.valid
  simp only [isSymbolName, Bool.and_eq_true, List.all_eq_true] at hvalid
  have hall := hvalid.1.1.2
  have hstops : Stops isSymbolChar rest := hrest.stops (by decide)
  simp only [readSymbol, Stops.takeWhile_append hall hstops, Stops.dropWhile_append hall hstops,
    String.ofList_toList, Symbol.ofName?_name, check_ok]

theorem readsBack_symbol (s : Symbol) : ReadsBack (Value.symbol s).zinc (.symbol s) := by
  intro setting rest hrest
  simp only [Value.zinc, List.cons_append]
  rw [readValue_cons (by decide)]
  show (readSymbol _).map _ = _
  rw [readSymbol_name s hrest]
  rfl

/-! ## Contents in parentheses -/

theorem readWordValue_open (hword : ∀ c ∈ word, isNameChar c = true)
    (hkeyword : keyword? setting word = none) (contents : List Char) :
    readWordValue setting (word ++ '(' :: contents) =
      if word = ['B', 'i', 'n'] then (readMediaType contents).map fun m => some (.bin m)
      else if word = ['C'] then (readCoord contents).map fun c => some (.coord c)
      else if isCapitalized word then
        (readTypedText word contents).map fun t => some (.typed t)
      else failHere (.word (String.ofList word)) ('(' :: contents) := by
  have hstops : Stops isNameChar ('(' :: contents) := Stops.cons rfl
  simp only [readWordValue, Stops.takeWhile_append hword hstops,
    Stops.dropWhile_append hword hstops, hkeyword]

theorem closing_ok {α β : Type} {make : α → Except Violation β} {a : α} {b : β}
    (h : make a = .ok b) (rest : List Char) : closing (ok a (')' :: rest)) make = ok b rest := by
  simp only [closing, bind_ok, readChar_cons, h, check_ok]

theorem readMediaType_mime (m : MediaType) (rest : List Char) :
    readMediaType (strLiteral m.mime ++ ')' :: rest) = ok m rest := by
  have hread := readStr_strLiteral m.mime (')' :: rest)
  unfold strLiteral literal at *
  simp only [List.cons_append] at *
  unfold readMediaType
  simp only [hread]
  exact closing_ok m.ofText?_mime rest

theorem readsBack_bin (m : MediaType) : ReadsBack (Value.bin m).zinc (.bin m) := by
  intro setting rest _
  have htext : (Value.bin m).zinc ++ rest =
      ['B', 'i', 'n'] ++ '(' :: (strLiteral m.mime ++ ')' :: rest) := by
    simp [Value.zinc]
  have hkeyword : keyword? setting ['B', 'i', 'n'] = none := by cases setting <;> rfl
  rw [htext, List.cons_append, readValue_alpha (by decide), ← List.cons_append,
    readWordValue_open (List.all_eq_true.1 (by decide)) hkeyword, if_pos rfl, readMediaType_mime]
  rfl

theorem readDecimal_microText {micro : Int} {x : Double}
    (hread : Double.read? (Coord.microText micro) = some x) (hc : c = ',' ∨ c = ')') :
    readDecimal (Coord.microText micro ++ c :: rest) = ok x (c :: rest) := by
  have hparts : ∀ d ∈ Coord.microText micro,
      (d.isDigit || ['-', '+', '.', 'e', 'E'].contains d) = true := by
    intro d hd
    rcases Coord.mem_microText hd with h | rfl | rfl
    · rw [h, Bool.true_or]
    · rfl
    · rfl
  have hstops : Stops (fun d => d.isDigit || ['-', '+', '.', 'e', 'E'].contains d) (c :: rest) := by
    rcases hc with rfl | rfl
    · exact Stops.cons rfl
    · exact Stops.cons rfl
  have hskip : skipSpaces (Coord.microText micro ++ c :: rest) =
      Coord.microText micro ++ c :: rest := by
    apply skipSpaces_eq
    cases hcs : Coord.microText micro with
    | nil =>
      rcases hc with rfl | rfl
      · exact Stops.cons rfl
      · exact Stops.cons rfl
    | cons d ds =>
      have hd : d ∈ Coord.microText micro := by rw [hcs]; exact List.mem_cons_self
      apply Stops.cons
      rcases Coord.mem_microText hd with h | rfl | rfl
      · rw [isDigit_iff] at h
        exact isSpace_eq_false (by omega) (by omega)
      · rfl
      · rfl
  simp only [readDecimal, hskip, Stops.takeWhile_append hparts hstops,
    Stops.dropWhile_append hparts hstops, hread]

theorem readCoord_pairText (c : Coord) (rest : List Char) :
    readCoord (c.pairText ++ ')' :: rest) = ok c rest := by
  obtain ⟨lat, lng, hlat, hlng, hdegrees⟩ := c.exists_ofDegrees?_eq
  have htext : c.pairText ++ ')' :: rest =
      Coord.microText c.microLat ++ ',' :: (Coord.microText c.microLng ++ ')' :: rest) := by
    simp [Coord.pairText]
  rw [htext]
  simp only [readCoord, readDecimal_microText hlat (.inl rfl), bind_ok, readChar_cons,
    readDecimal_microText hlng (.inr rfl), map_ok]
  exact closing_ok hdegrees rest

theorem readsBack_coord (c : Coord) : ReadsBack (Value.coord c).zinc (.coord c) := by
  intro setting rest _
  have htext : (Value.coord c).zinc ++ rest = ['C'] ++ '(' :: (c.pairText ++ ')' :: rest) := by
    simp [Value.zinc, Coord.text]
  have hkeyword : keyword? setting ['C'] = none := by cases setting <;> rfl
  rw [htext, List.cons_append, readValue_alpha (by decide), ← List.cons_append,
    readWordValue_open (List.all_eq_true.1 (by decide)) hkeyword, if_neg (by decide), if_pos rfl,
    readCoord_pairText]
  rfl

/-- No keyword but the reserved words starts with a capital. -/
theorem keyword?_typeName (hupper : c.isUpper = true)
    (hreserved : reservedWords.contains (c :: cs) = false) (setting : Setting) :
    keyword? setting (c :: cs) = none := by
  simp only [reservedWords, List.contains_cons, List.contains_nil, Bool.or_false,
    Bool.or_eq_false_iff, beq_eq_false_iff_ne] at hreserved
  have hlower : c ≠ 't' ∧ c ≠ 'f' := by
    constructor
    · rintro rfl
      exact absurd hupper (by decide)
    · rintro rfl
      exact absurd hupper (by decide)
  simp [keyword?, hreserved, hlower]

theorem readTypedText_text (t : TypedText) (rest : List Char) :
    readTypedText t.typeName.toList (strLiteral t.text ++ ')' :: rest) = ok t rest := by
  unfold readTypedText
  rw [readStr_strLiteral]
  apply closing_ok
  rw [String.ofList_toList, t.ofParts?_parts]

theorem zinc_typed_append (t : TypedText) (rest : List Char) :
    (Value.typed t).zinc ++ rest =
      t.typeName.toList ++ '(' :: (strLiteral t.text ++ ')' :: rest) := by
  simp [Value.zinc]

theorem readsBack_typed {t : TypedText} (hsafe : t.zincSafe = true) :
    ReadsBack (Value.typed t).zinc (.typed t) := by
  intro setting rest _
  obtain ⟨c, cs, hname, hupper, hword⟩ := t.exists_typeName_cons
  have hread := readTypedText_text t rest
  simp only [TypedText.zincSafe, Bool.not_eq_true'] at hsafe
  rw [hname] at hread hsafe
  have halpha := isAlpha_of_isUpper hupper
  have hreserved : c :: cs ≠ ['B', 'i', 'n'] ∧ c :: cs ≠ ['C'] := by
    constructor
    · intro heq
      rw [heq] at hsafe
      cases hsafe
    · intro heq
      rw [heq] at hsafe
      cases hsafe
  have hcapital : isCapitalized (c :: cs) = true := hupper
  rw [zinc_typed_append, hname, List.cons_append, readValue_alpha halpha, ← List.cons_append,
    readWordValue_open hword (keyword?_typeName hupper hsafe setting), if_neg hreserved.1,
    if_neg hreserved.2, if_pos hcapital, hread]
  rfl

end Zinc

end TagGrid
