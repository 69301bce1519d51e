import TagGrid.Proofs.Reader.Sessions
import TagGrid.Proofs.Zinc.Tags

/-! # Values that are misread

A value that is not safe has a text that is read as another value or refused, alone and in
lists of any depth. The safe values are therefore all that come back from their texts.
-/

namespace TagGrid

theorem Timestamp.date_of_ofParts? {date : Date} {time : TimeOfDay} {zone : Zone} {offset : Int}
    {t : Timestamp} (h : ofParts? date time zone offset = .ok t) : t.date = date := by
  unfold ofParts? at h
  split_ifs at h
  cases h
  rfl

/-- The units that a number does not come back with. -/
theorem Number.zincSafe_iff {value : Double} {unit : String}
    {h : ∀ u, some unit = some u → isUnitName u.toList = true ∧ value.isFinite = true} :
    (⟨value, some unit, h⟩ : Number).zincSafe = true ↔
      ¬ (value = .zero false ∧ ['x'] <+: unit.toList) ∧
        ¬ ['e', '-'] <+: unit.toList ∧ ¬ ['E', '-'] <+: unit.toList := by
  simp [zincSafe, ← List.isPrefixOf_iff_prefix, and_assoc, imp_iff_not_or]

/-- A value as an item of a list, that list as an item of another one, and so on outwards.
Each level has the items in front of it and behind it. -/
def Value.nested (levels : List (List Value × List Value)) (v : Value) : Value :=
  levels.foldl (fun inner level => .list (level.1 ++ inner :: level.2)) v

theorem Value.everyItem_eq_all (p : Value → Bool) (items : List Value) :
    everyItem p items = items.all (everywhere p) := by
  induction items with
  | nil => rfl
  | cons v items ih => rw [everyItem, ih, List.all_cons]

theorem Value.zincSafe_list {items : List Value} :
    (Value.list items).zincSafe = items.all zincSafe := everyItem_eq_all _ items

theorem Value.zincSafe_nested {levels : List (List Value × List Value)} (v : Value)
    (hsafe : ∀ level ∈ levels, ∀ w ∈ level.1 ++ level.2, w.zincSafe = true) :
    (nested levels v).zincSafe = v.zincSafe := by
  induction levels generalizing v with
  | nil => rfl
  | cons level levels ih =>
    have hothers := ih (.list (level.1 ++ v :: level.2))
      fun level' hlevel' => hsafe level' (List.mem_cons_of_mem _ hlevel')
    have hlevel := hsafe level List.mem_cons_self
    have hlist : (Value.list (level.1 ++ v :: level.2)).zincSafe = v.zincSafe := by
      have hbefore : level.1.all zincSafe = true :=
        List.all_eq_true.2 fun w hw => hlevel w (List.mem_append_left _ hw)
      have hafter : level.2.all zincSafe = true :=
        List.all_eq_true.2 fun w hw => hlevel w (List.mem_append_right _ hw)
      rw [zincSafe_list, List.all_append, List.all_cons, hbefore, hafter, Bool.true_and,
        Bool.and_true]
    exact hothers.trans hlist

namespace Zinc

open Text Outcome DigitToken

variable {setting : Setting} {t u : DigitToken} {c : Char} {cs word rest : List Char}

/-- A text is not read as a value, wherever a value can stand. -/
def Misread (text : List Char) (v : Value) : Prop :=
  ∀ setting rest, Follows rest → Yields (· ≠ some v) (readValue setting (text ++ rest))

/-! ## Years -/

/-- Four digits write no year after 9999. -/
theorem yearFits_of_examineDate {d : Date} (h : examineDate cs = .ok d) : d.yearFits = true := by
  obtain ⟨y, m, day, hyear, -⟩ := examineDate_eq_ok.1 h
  have hlt := ofDigitChars_lt hyear.isDigit
  rw [hyear.length, hyear.value] at hlt
  rw [Date.yearFits, decide_eq_true_eq]
  omega

theorem date_of_examineClock {text : String} {date : Date} {parts : LocalInstant}
    (h : examineClock text date cs = .ok parts) : parts.date = date := by
  unfold examineClock at h
  split at h
  · obtain ⟨time, -, h⟩ := bind_eq_ok h
    cases h
    rfl
  · split at h
    · obtain ⟨offset, -, h⟩ := bind_eq_ok h
      obtain ⟨time, -, h⟩ := bind_eq_ok h
      cases h
      rfl
    · cases h

theorem yearFits_of_examineInstant {parts : LocalInstant} (h : examineInstant cs = .ok parts) :
    parts.date.yearFits = true := by
  unfold examineInstant at h
  simp only at h
  split at h
  · obtain ⟨date, hdate, h⟩ := bind_eq_ok h
    split at h
    · rw [date_of_examineClock h]
      exact yearFits_of_examineDate hdate
    · cases h
  · cases h

theorem yearFits_readTimestamp (text cs : List Char) :
    Yields (fun t => t.date.yearFits = true) (readTimestamp text cs) := by
  unfold readTimestamp
  refine Yields.bind (p := fun parts => parts.date.yearFits = true) ?_ fun parts cs hparts => ?_
  · exact Yields.examine fun parts hparts => yearFits_of_examineInstant hparts
  · refine Yields.last fun zone rest => Yields.check fun t ht => ?_
    rw [Timestamp.date_of_ofParts? ht]
    exact hparts

theorem yearFits_readDigitLiteral (cs : List Char) :
    Yields (fun v => v.yearFits = true) (readDigitLiteral cs) := by
  apply yields_readDigitLiteral
  · intro n
    rfl
  · intro t cs
    exact yields_readToken (fun _ hdate => yearFits_of_examineDate hdate) (fun _ => rfl)
      (yearFits_readTimestamp _ cs) fun _ _ => rfl

/-- A date or a timestamp of a late year starts with a digit. -/
theorem misread_of_digit {v : Value} {text : List Char}
    (hstart : ∃ c cs, text = c :: cs ∧ c.isDigit = true) (hlate : v.yearFits = false) :
    Misread text v := by
  obtain ⟨c, cs, rfl, hc⟩ := hstart
  intro setting rest _
  rw [List.cons_append, readValue_digit hc]
  apply (yearFits_readDigitLiteral _).map
  rintro w hw heq
  rw [Option.some.inj heq, hlate] at hw
  cases hw

/-! ## Type names that are words -/

theorem keyword?_ne_typed (t : TypedText) : keyword? setting word ≠ some (some (.typed t)) := by
  unfold keyword?
  split_ifs <;> simp [Value.ofDouble]

/-- The reserved words that are no keywords are the names of kinds with contents. -/
theorem eq_kind_of_reserved (hreserved : word ∈ reservedWords)
    (hkeyword : keyword? setting word = none) : word = ['B', 'i', 'n'] ∨ word = ['C'] := by
  simp only [reservedWords, List.mem_cons, List.not_mem_nil, or_false] at hreserved
  rcases hreserved with rfl | rfl | rfl | rfl | rfl | rfl | rfl | rfl | h
  all_goals first | exact h | cases hkeyword

theorem misread_typed {t : TypedText} (hreserved : t.zincSafe = false) :
    Misread (Value.typed t).zinc (.typed t) := by
  intro setting rest _
  obtain ⟨c, cs, hname, hupper, hword⟩ := t.exists_typeName_cons
  have hmem : c :: cs ∈ reservedWords := by simpa [TypedText.zincSafe, hname] using hreserved
  rw [zinc_typed_append, hname, List.cons_append, readValue_alpha (isAlpha_of_isUpper hupper),
    ← List.cons_append]
  cases hkeyword : keyword? setting (c :: cs) with
  | some value =>
    rw [readWordValue_keyword hword hkeyword (Stops.cons rfl)]
    rintro rfl
    exact keyword?_ne_typed t hkeyword
  | none =>
    rw [readWordValue_open hword hkeyword]
    rcases eq_kind_of_reserved hmem hkeyword with heq | heq
    · rw [heq, if_pos rfl]
      apply Yields.last
      intro m rest' hm
      cases hm
    · rw [heq, if_neg (by decide), if_pos rfl]
      apply Yields.last
      intro coord rest' hcoord
      cases hcoord

/-! ## Units that continue a number -/

theorem length_unit_step? {next : Option Char} (h : t.step? c next = some u) :
    u.unit.length ≤ t.unit.length + 1 := by
  have hpush : (t.push c).unit.length ≤ t.unit.length + 1 := by
    unfold push
    split <;> simp
  have hunit : (t.pushUnit c).unit.length ≤ t.unit.length + 1 := by simp [pushUnit]
  unfold step? at h
  -- What comes before the point, and the point itself, goes where the token is; letters go
  -- into the unit, except for the mark of an exponent.
  iterate 6
    obtain ⟨-, h⟩ | ⟨-, h⟩ := ite_eq_iff.1 h
    · cases h
      exact hpush
  obtain ⟨-, h⟩ | ⟨-, h⟩ := ite_eq_iff.1 h
  · obtain ⟨-, h⟩ | ⟨-, h⟩ := ite_eq_iff.1 h
    · cases h
      exact hpush
    · cases h
  obtain ⟨-, h⟩ | ⟨-, h⟩ := ite_eq_iff.1 h
  · cases h
    exact hpush
  obtain ⟨-, h⟩ | ⟨-, h⟩ := ite_eq_iff.1 h
  · cases h
    exact hunit
  obtain ⟨-, h⟩ | ⟨-, h⟩ := ite_eq_iff.1 h
  · obtain ⟨-, h⟩ | ⟨-, h⟩ := ite_eq_iff.1 h
    · cases h
      exact Nat.le_succ _
    · cases h
      exact hunit
  · cases h

/-- A token takes its unit from the text in front of what follows a value. -/
theorem length_unit_scan (t : DigitToken) (cs : List Char) (hrest : Follows rest) :
    (t.scan (cs ++ rest)).1.unit.length ≤ t.unit.length + cs.length := by
  induction cs generalizing t with
  | nil =>
    rw [List.nil_append, scan_follows hrest]
    exact Nat.le_refl _
  | cons c cs ih =>
    rw [List.cons_append, scan, List.length_cons]
    split
    · rename_i u hstep
      have hone := length_unit_step? hstep
      have hrun := ih u
      omega
    · simp only
      omega

/-- An exponent sign and a dash behind the value are lost to the unit. -/
theorem exists_scan_exponent (hunit : t.unit = []) (hexp : t.exponent = false)
    (hc : c = 'e' ∨ c = 'E') (cs : List Char) :
    ∃ u : DigitToken, u.unit = [] ∧ t.scan (c :: '-' :: cs) = u.scan cs := by
  obtain ⟨u, hu, hempty, hexponent⟩ : ∃ u : DigitToken,
      t.step? c (some '-') = some u ∧ u.unit = [] ∧ u.exponent = true := by
    refine ⟨{ t.push c with exponent := true }, ?_, ?_, rfl⟩
    · rcases hc with rfl | rfl <;> simp [step?, hunit, hexp]
    · simp [push, hunit]
  have hdash : u.step? '-' cs.head? = some (u.push '-') := by simp [step?, hexponent]
  refine ⟨u.push '-', ?_, ?_⟩
  · simp [push, hempty]
  · rw [scan_cons hu, scan_cons hdash]

theorem unitText_of_examineNumber {n : Number} (h : examineNumber t = .ok n) :
    unitText n = t.unit := by
  unfold examineNumber at h
  split at h
  · cases h
  · split at h
    · rename_i hempty
      cases h
      exact hempty.symm
    · unfold Number.withUnit? at h
      split_ifs at h
      · cases h
        exact String.toList_ofList
      · cases h
      · cases h

/-- The unit of a number is that of its token. -/
theorem unitText_readToken (t : DigitToken) (cs : List Char) :
    Yields (fun v => ∀ n ∈ v.number?, unitText n = t.unit) (readToken t cs) := by
  apply yields_readToken
  · intro date _ n hn
    cases hn
  · intro time n hn
    cases hn
  · apply Yields.of_forall
    intro timestamp n hn
    cases hn
  · intro n hexamine m hm
    cases hm
    exact unitText_of_examineNumber hexamine

theorem unitText_readHexNumber (cs : List Char) :
    Yields (fun v => ∀ n ∈ v.number?, unitText n = []) (readHexNumber cs) := by
  apply yields_readHexNumber
  intro k n hn
  obtain rfl := Option.some.inj hn
  rfl

/-- A zero with such a unit is read as a hexadecimal number, which has no unit. -/
theorem misread_zero {n : Number} (hvalue : n.value = .zero false)
    (hunit : (unitText n).head? = some 'x') : Misread n.text (.number n) := by
  intro setting rest _
  obtain ⟨us, hus⟩ : ∃ us, unitText n = 'x' :: us := List.head?_eq_some_iff.1 hunit
  have htext : n.text ++ rest = '0' :: 'x' :: (us ++ rest) := by
    show n.value.text ++ unitText n ++ rest = _
    rw [hvalue, hus]
    rfl
  rw [htext, readValue_digit rfl]
  show Yields _ ((readHexNumber (us ++ rest)).map some)
  apply (unitText_readHexNumber _).map
  rintro v hv heq
  have hempty := hv n (by rw [Option.some.inj heq]; rfl)
  rw [hus] at hempty
  cases hempty

/-- A token that takes the start of the unit into its body ends with a shorter unit. -/
theorem misread_token {n : Number} {us : List Char} (hempty : t = initial ∨ t = start '-')
    (hplain : PlainText cs) (hc : c = 'e' ∨ c = 'E') (hunit : unitText n = c :: '-' :: us)
    (hrest : Follows rest) :
    Yields (· ≠ some (.number n)) ((readToken (t.scan (cs ++ (unitText n ++ rest))).1
      (t.scan (cs ++ (unitText n ++ rest))).2).map some) := by
  have hstart : (t.advance cs 0 0).unit = [] ∧ (t.advance cs 0 0).exponent = false := by
    rcases hempty with rfl | rfl
    · exact ⟨rfl, rfl⟩
    · exact ⟨rfl, rfl⟩
  obtain ⟨u, hu, hscan⟩ := exists_scan_exponent hstart.1 hstart.2 hc (us ++ rest)
  have hscan' : t.scan (cs ++ (unitText n ++ rest)) = u.scan (us ++ rest) := by
    rw [scan_plain hplain, hunit]
    exact hscan
  have hlength := length_unit_scan u us hrest
  rw [hscan']
  apply (unitText_readToken _ _).map
  intro v hv heq
  have hsame := hv n (by rw [Option.some.inj heq]; rfl)
  rw [← hsame, hunit, hu] at hlength
  simp only [List.length_cons, List.length_nil] at hlength
  omega

/-- A unit that starts like a negative exponent is not the unit of what is read. -/
theorem misread_exponent {n : Number} {us : List Char} (hc : c = 'e' ∨ c = 'E')
    (hfinite : n.value.isFinite = true) (hunit : unitText n = c :: '-' :: us) :
    Misread n.text (.number n) := by
  intro setting rest hrest
  have htext : n.text = n.value.text ++ unitText n := rfl
  cases hvalue : n.value with
  | nan | infinity =>
    rw [hvalue] at hfinite
    cases hfinite
  | finite negative grains h =>
    have hplain := Double.plainText_shortest h
    obtain ⟨d, ds, hds, hdigit⟩ := hplain.exists_cons
    rw [hds] at hplain
    rw [htext, hvalue, Double.text_finite, hds]
    cases negative with
    | false =>
      have hx : d = '0' → (ds ++ (unitText n ++ rest)).head? ≠ some 'x' := by
        intro _
        cases ds with
        | nil =>
          rw [hunit]
          rcases hc with rfl | rfl <;> simp
        | cons e ds =>
          intro hx
          exact second_ne_of_plainText hplain hx
      show Yields _ (readValue setting (d :: ds ++ unitText n ++ rest))
      rw [List.append_assoc, List.cons_append, readValue_digit hdigit, readDigitLiteral_cons hdigit hx]
      exact misread_token (.inl rfl) hplain hc hunit hrest
    | true =>
      show Yields _ (readValue setting ('-' :: (d :: ds) ++ unitText n ++ rest))
      rw [List.append_assoc, List.cons_append, readValue_dash, List.cons_append,
        readNegative_digit hdigit, ← List.cons_append]
      exact misread_token (.inr rfl) hplain hc hunit hrest

theorem misread_number {n : Number} (hn : n.zincSafe = false) : Misread n.text (.number n) := by
  obtain ⟨value, unit, valid⟩ := n
  cases unit with
  | none => cases hn
  | some unit =>
    have hfinite := (valid unit rfl).2
    by_contra hread
    have hsafe : (⟨value, some unit, valid⟩ : Number).zincSafe = true := by
      rw [Number.zincSafe_iff]
      refine ⟨?_, ?_, ?_⟩
      · rintro ⟨hvalue, us, hus⟩
        have hunit : unit.toList.head? = some 'x' := by rw [← hus]; rfl
        exact hread (misread_zero hvalue hunit)
      · rintro ⟨us, hus⟩
        exact hread (misread_exponent (.inl rfl) hfinite hus.symm)
      · rintro ⟨us, hus⟩
        exact hread (misread_exponent (.inr rfl) hfinite hus.symm)
    rw [hn] at hsafe
    cases hsafe

/-! ## Lists -/

/-- An item that is misread is not the first item of what is read. -/
theorem misread_item {v : Value} (h : Misread v.zinc v) (hc : c = ',' ∨ c = ']')
    (setting : Setting) (rest : List Char) :
    Yields (fun items => items.head? ≠ some v) (readItems setting (v.zinc ++ c :: rest)) := by
  have hvalue := h setting (c :: rest) (follows_item hc rest)
  rw [readItems.eq_def]
  split
  · intro hnone
    cases hnone
  · rw [skipSpaces_zinc]
    split
    · trivial
    · trivial
    · rename_i item rest' heq
      have hne : some item ≠ some v := hvalue.of_ok heq
      split
      · split
        · exact Yields.last fun _ _ => hne
        · exact Yields.last fun _ _ => hne
      · exact Yields.last fun _ _ => hne

mutual

/-- The text of a value that is not safe is not read as that value. -/
theorem misread_zinc (v : Value) (hv : v.zincSafe = false) : Misread v.zinc v := by
  cases v with
  | number n => exact misread_number hv
  | date d =>
    have hlate : (d.yearFits && true) = false := hv
    rw [Bool.and_true] at hlate
    exact misread_of_digit (exists_date_cons d) hlate
  | dateTime t =>
    have hlate : (t.date.yearFits && true) = false := hv
    rw [Bool.and_true] at hlate
    exact misread_of_digit (exists_dateTime_cons t) hlate
  | typed t => exact misread_typed hv
  | list items =>
    intro setting rest _
    rw [zinc_list_append, readValue_list]
    apply (misread_items items hv setting rest).map
    intro others hne heq
    cases heq
    exact hne rfl
  | marker | remove | na | bool b | str s | uri s | ref r | time t | bin m | coord c | symbol s =>
    cases hv
termination_by sizeOf v

theorem misread_items (items : List Value)
    (hitems : Value.everyItem (fun v => v.yearFits && v.wordSafe) items = false)
    (setting : Setting) (rest : List Char) :
    Yields (· ≠ items) (readItems setting (Value.zincItems items ++ ']' :: rest)) := by
  cases items with
  | nil => cases hitems
  | cons v items =>
    by_cases hv : v.zincSafe = true
    · have hothers : Value.everyItem (fun v => v.yearFits && v.wordSafe) items = false := by
        have heither := Bool.and_eq_false_iff.1 hitems
        exact heither.resolve_left fun hnot => by rw [Value.zincSafe, hnot] at hv; cases hv
      cases items with
      | nil => cases hothers
      | cons w items =>
        simp only [Value.zincItems, List.append_assoc, List.cons_append]
        rw [readItems_zinc (readsBack_zinc v hv) (.inl rfl), if_pos rfl]
        apply (misread_items (w :: items) hothers setting rest).map
        intro others hne heq
        exact hne (List.cons.inj heq).2
    · have hmisread := misread_zinc v (Bool.eq_false_iff.2 hv)
      have hfirst : ∃ c rest', (c = ',' ∨ c = ']') ∧
          Value.zincItems (v :: items) ++ ']' :: rest = v.zinc ++ c :: rest' := by
        cases items with
        | nil => exact ⟨']', rest, .inr rfl, rfl⟩
        | cons w items =>
          refine ⟨',', Value.zincItems (w :: items) ++ ']' :: rest, .inl rfl, ?_⟩
          simp only [Value.zincItems, List.append_assoc, List.cons_append]
      obtain ⟨c, rest', hc, htext⟩ := hfirst
      rw [htext]
      apply (misread_item hmisread hc setting rest').mono
      rintro others hne rfl
      exact hne rfl
termination_by sizeOf items

end

/-- The safe values are the values that come back from their texts. -/
theorem toValue?_toZinc_iff (v : Value) :
    toValue? v.toZinc = .ok (some v) ↔ v.zincSafe = true := by
  constructor
  · intro h
    obtain ⟨rest, hread⟩ := Reader.exists_readValue_of_scalar h
    by_contra hv
    have hmisread := misread_zinc v (Bool.eq_false_iff.2 hv) .data [] Follows.nil
    have htext : skipBlanks (Reader.ofText v.toZinc).rest = v.zinc ++ [] := by
      show skipBlanks v.toZinc.toList = _
      rw [Value.toZinc, String.toList_ofList, ← skipBlanks_zinc v [], List.append_nil]
    rw [htext] at hread
    exact hmisread.of_ok hread rfl
  · exact toValue?_toZinc

/-! ## Numbers and typed texts -/

/-- Which numbers with a unit come back. -/
theorem number_reads_back_iff {value : Double} {unit : String} {n : Number}
    (h : Number.withUnit? value unit = .ok n) :
    toValue? (Value.number n).toZinc = .ok (some (.number n)) ↔
      ¬ (value = .zero false ∧ ['x'] <+: unit.toList) ∧
        ¬ ['e', '-'] <+: unit.toList ∧ ¬ ['E', '-'] <+: unit.toList := by
  have hsafe : (Value.number n).zincSafe = n.zincSafe := rfl
  unfold Number.withUnit? at h
  split_ifs at h
  cases h
  rw [toValue?_toZinc_iff, hsafe]
  exact Number.zincSafe_iff

/-- The negative zero comes back with the unit that the positive zero loses. -/
theorem negative_zero_reads_back :
    ∃ n, Number.withUnit? (.zero true) "xa" = .ok n ∧
      toValue? (Value.number n).toZinc = .ok (some (.number n)) := by
  have hn : Number.withUnit? (.zero true) "xa" =
      .ok ⟨.zero true, some "xa", fun u hu => by cases hu; exact ⟨by decide, rfl⟩⟩ := rfl
  exact ⟨_, hn, (number_reads_back_iff hn).2 (by decide)⟩

/-- Zero with the unit `xa` is read as the hexadecimal number ten. -/
theorem zero_reads_as_ten :
    ∃ n, Number.withUnit? (.zero false) "xa" = .ok n ∧
      toValue? (Value.number n).toZinc = .ok (some (.ofInt 10)) ∧
      toValue? (Value.number n).toZinc ≠ .ok (some (.number n)) := by
  refine ⟨⟨.zero false, some "xa", fun u hu => by cases hu; exact ⟨by decide, rfl⟩⟩, rfl, ?_, ?_⟩
  · apply toValue?_of_readValue
    · decide
    · show readValue .data ('0' :: ['x', 'a']) = _
      rw [readValue_digit rfl]
      rfl
  · intro h
    exact absurd ((toValue?_toZinc_iff _).1 h) (by decide)

/-- Which typed texts come back, alone and as items of lists. -/
theorem typed_text_reads_back_iff (t : TypedText) {levels : List (List Value × List Value)}
    (hsafe : ∀ level ∈ levels, ∀ v ∈ level.1 ++ level.2, v.zincSafe = true) :
    toValue? (Value.nested levels (.typed t)).toZinc = .ok (some (.nested levels (.typed t))) ↔
      t.typeName.toList ∉ reservedWords := by
  have htyped : (Value.typed t).zincSafe = !reservedWords.contains t.typeName.toList := rfl
  rw [toValue?_toZinc_iff, Value.zincSafe_nested _ hsafe, htyped]
  simp

/-- A list in a list, with something behind the inner item and in front of the inner list. -/
def sampleLevels : List (List Value × List Value) := [([], [.marker]), ([.str "]"], [])]

theorem span_reads_back :
    (∀ level ∈ sampleLevels, ∀ v ∈ level.1 ++ level.2, v.zincSafe = true) ∧
      toValue? (Value.nested sampleLevels (.typed ⟨"Span", "a)b", by decide⟩)).toZinc =
        .ok (some (.list [.str "]", .list [.typed ⟨"Span", "a)b", by decide⟩, .marker]])) := by
  have hsafe : ∀ level ∈ sampleLevels, ∀ v ∈ level.1 ++ level.2, v.zincSafe = true := by
    simp [sampleLevels]
    decide
  exact ⟨hsafe, (typed_text_reads_back_iff ⟨"Span", "a)b", by decide⟩ hsafe).2 (by decide)⟩

/-- A typed text of the type `Bin` has the text of a media type, and is read as one. -/
theorem typed_text_reads_as_media_type :
    ∃ t, TypedText.ofParts? "Bin" "text/plain" = .ok t ∧
      (∃ m, toValue? (Value.typed t).toZinc = .ok (some (.bin m))) ∧
      toValue? (Value.typed t).toZinc ≠ .ok (some (.typed t)) := by
  refine ⟨⟨"Bin", "text/plain", by decide⟩, rfl, ⟨⟨"text/plain", by decide⟩, ?_⟩, ?_⟩
  · have hread := toValue?_toZinc (v := .bin ⟨"text/plain", by decide⟩) rfl
    exact hread
  · intro h
    exact absurd ((toValue?_toZinc_iff _).1 h) (by decide)

end Zinc

end TagGrid
