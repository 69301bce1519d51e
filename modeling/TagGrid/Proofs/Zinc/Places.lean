import TagGrid.Zinc.ValueReader

/-! # Where reading values stops

What a reading function leaves is an end of the text it was given: it takes characters
from the front and changes nothing behind them. When something is wrong, the place of the
fault is in what was taken, so that its line lies between the first line of the text and
the line on which reading stopped.
-/

namespace TagGrid

/-- What succeeds in two steps succeeds in each of them. -/
theorem bind_eq_ok {α β ε : Type} {x : Except ε α} {f : α → Except ε β} {b : β}
    (h : x >>= f = .ok b) : ∃ a, x = .ok a ∧ f a = .ok b := by
  cases x with
  | error e => cases h
  | ok a => exact ⟨a, rfl, h⟩

theorem map_eq_ok {α β ε : Type} {f : α → β} {r : Except ε α} {b : β} (h : r.map f = .ok b) :
    ∃ a, r = .ok a ∧ f a = b := by
  cases r with
  | error e => cases h
  | ok a => exact ⟨a, rfl, Except.ok.inj h⟩

theorem dite_eq_ok {α ε : Type} {p : Prop} [Decidable p] {make : p → α} {e : ε} {a : α}
    (h : (if hp : p then .ok (make hp) else .error e : Except ε α) = .ok a) :
    ∃ hp, make hp = a := by
  split at h
  · rename_i hp
    exact ⟨hp, Except.ok.inj h⟩
  · cases h

theorem mapError_eq_ok {α ε ε' : Type} {x : Except ε α} {f : ε → ε'} {a : α} :
    x.mapError f = .ok a ↔ x = .ok a := by
  cases x with
  | error e =>
    constructor
    · intro h
      cases h
    · intro h
      cases h
  | ok b =>
    constructor
    · intro h
      cases h
      rfl
    · intro h
      cases h
      rfl

namespace Zinc

open Outcome

/-- A fault has a place in the text. A refusal that is passed on has none. -/
def Fault.Placed : Fault → Prop
  | refusal _ => False
  | _ => True

/-- The outcome of reading from the front of `cs`: an end of it is left, and the place of a
fault is not after the place where reading stopped. -/
def Outcome.Within {α : Type} (cs : List Char) : Outcome α → Prop
  | ok _ rest => rest <:+ cs
  | fail fault place rest => fault.Placed ∧ place <:+ cs ∧ rest <:+ place

namespace Outcome

variable {α β : Type} {cs cs' rest place : List Char} {o : Outcome α} {fault : Fault}

theorem within_failHere (hfault : fault.Placed) (h : rest <:+ cs) :
    Within cs (failHere fault rest : Outcome α) := ⟨hfault, h, List.suffix_refl _⟩

theorem exists_of_bind_eq_ok {next : α → List Char → Outcome β} {b : β}
    (h : o.bind next = ok b rest) : ∃ a mid, o = ok a mid ∧ next a mid = ok b rest := by
  cases o with
  | ok a mid => exact ⟨a, mid, rfl, h⟩
  | fail fault place mid => cases h

theorem within_check (hplace : place <:+ cs) (hrest : rest <:+ place) (e : Except Violation α) :
    Within cs (check place rest e) := by
  cases e with
  | ok value => exact hrest.trans hplace
  | error v => exact ⟨trivial, hplace, hrest⟩

namespace Within

theorem mono (h : Within cs o) (hcs : cs <:+ cs') : Within cs' o := by
  cases o with
  | ok value rest => exact List.IsSuffix.trans h hcs
  | fail fault place rest => exact ⟨h.1, h.2.1.trans hcs, h.2.2⟩

theorem rest_suffix (h : Within cs o) : o.rest <:+ cs := by
  cases o with
  | ok value rest => exact h
  | fail fault place rest => exact h.2.2.trans h.2.1

theorem suffix_of_ok {value : α} (h : Within cs o) (ho : o = ok value rest) : rest <:+ cs := by
  rw [ho] at h
  exact h

theorem of_fail (h : Within cs o) (ho : o = fail fault place rest) :
    Within cs (fail fault place rest : Outcome β) := by
  rw [ho] at h
  exact h

/-- What is read next starts where this stopped, or has its place in what this took. -/
theorem bind {next : α → List Char → Outcome β} (h : Within cs o)
    (hnext : ∀ value rest, o = ok value rest → rest <:+ cs → Within cs (next value rest)) :
    Within cs (o.bind next) := by
  cases o with
  | ok value rest => exact hnext value rest rfl h
  | fail fault place rest => exact h

/-- What is read next starts where this stopped. -/
theorem andThen {next : α → List Char → Outcome β} (h : Within cs o)
    (hnext : ∀ value rest, Within rest (next value rest)) : Within cs (o.bind next) :=
  h.bind fun value rest _ hrest => (hnext value rest).mono hrest

theorem map (h : Within cs o) (f : α → β) : Within cs (o.map f) :=
  h.andThen fun _ rest => List.suffix_refl rest

end Within

/-- What succeeds takes something from the text. -/
def Advances (cs : List Char) (o : Outcome α) : Prop :=
  ∀ value rest, o = ok value rest → rest.length < cs.length

theorem advances_of_within (h : Within cs' o) (hlength : cs'.length < cs.length) :
    Advances cs o := fun _ _ ho =>
  Nat.lt_of_le_of_lt (h.suffix_of_ok ho).length_le hlength

namespace Advances

theorem andThen {next : α → List Char → Outcome β} (h : Advances cs o)
    (hnext : ∀ value rest, Within rest (next value rest)) : Advances cs (o.bind next) := by
  cases o with
  | ok value rest => exact advances_of_within (hnext value rest) (h value rest rfl)
  | fail fault place rest => exact nofun

theorem map (h : Advances cs o) (f : α → β) : Advances cs (o.map f) :=
  h.andThen fun _ rest => List.suffix_refl rest

theorem mono (h : Advances cs o) (hcs : cs <:+ cs') : Advances cs' o := fun value rest ho =>
  Nat.lt_of_lt_of_le (h value rest ho) hcs.length_le

end Advances

/-- What was read has a property. -/
def Yields (p : α → Prop) : Outcome α → Prop
  | ok value _ => p value
  | fail .. => True

namespace Yields

variable {p : α → Prop} {q : β → Prop}

theorem of_ok {value : α} (h : Yields p o) (ho : o = ok value rest) : p value := by
  rw [ho] at h
  exact h

theorem bind {next : α → List Char → Outcome β} (h : Yields p o)
    (hnext : ∀ value rest, p value → Yields q (next value rest)) : Yields q (o.bind next) := by
  cases o with
  | ok value rest => exact hnext value rest h
  | fail fault place rest => trivial

/-- Only what is read last counts. -/
theorem last {next : α → List Char → Outcome β}
    (hnext : ∀ value rest, Yields q (next value rest)) : Yields q (o.bind next) := by
  cases o with
  | ok value rest => exact hnext value rest
  | fail fault place rest => trivial

theorem map {f : α → β} (h : Yields p o) (hf : ∀ value, p value → q (f value)) :
    Yields q (o.map f) := h.bind fun value _ => hf value

theorem of_forall (h : ∀ value, p value) : Yields p o := by
  cases o with
  | ok value rest => exact h value
  | fail fault place rest => trivial

theorem mono {q : α → Prop} (h : Yields p o) (hq : ∀ value, p value → q value) : Yields q o := by
  cases o with
  | ok value rest => exact hq value h
  | fail fault place rest => trivial

theorem check {e : Except Violation α} (h : ∀ value, e = .ok value → p value) :
    Yields p (check place rest e) := by
  cases e with
  | ok value => exact h value rfl
  | error v => trivial

theorem pass {e : Except Violation α} (h : ∀ value, e = .ok value → p value) :
    Yields p (pass rest e) := by
  cases e with
  | ok value => exact h value rfl
  | error v => trivial

theorem examine_map_of_ok {e : Except Fault α} {f : α → β}
    (h : ∀ value, e = .ok value → q (f value)) : Yields q (examine rest (e.map f)) := by
  cases e with
  | ok value => exact h value rfl
  | error fault => trivial

theorem examine_map {e : Except Fault α} {f : α → β} (hf : ∀ value, q (f value)) :
    Yields q (examine rest (e.map f)) := examine_map_of_ok fun value _ => hf value

theorem examine {e : Except Fault α} (h : ∀ value, e = .ok value → p value) :
    Yields p (examine rest e) := by
  cases e with
  | ok value => exact h value rfl
  | error fault => trivial

end Yields

/-- An examination that finds something wrong with a text finds a fault with a place. -/
def Placed : Except Fault α → Prop
  | .ok _ => True
  | .error fault => fault.Placed

theorem Placed.map {e : Except Fault α} (h : Placed e) (f : α → β) : Placed (e.map f) := by
  cases e with
  | ok value => exact trivial
  | error fault => exact h

theorem Placed.bind {e : Except Fault α} {next : α → Except Fault β} (h : Placed e)
    (hnext : ∀ value, Placed (next value)) : Placed (e >>= next) := by
  cases e with
  | ok value => exact hnext value
  | error fault => exact h

theorem placed_mapError {e : Except Violation α} {f : Violation → Fault}
    (h : ∀ v, (f v).Placed) : Placed (e.mapError f) := by
  cases e with
  | ok value => exact trivial
  | error v => exact h v

theorem within_examine {e : Except Fault α} (h : Placed e) (hrest : rest <:+ cs) :
    Within cs (examine rest e) := by
  cases e with
  | ok value => exact hrest
  | error fault => exact ⟨h, hrest, List.suffix_refl _⟩

end Outcome

/-! ## Single characters, spaces and names -/

variable {c : Char} {cs rest : List Char}

theorem skipSpaces_suffix (cs : List Char) : skipSpaces cs <:+ cs := List.dropWhile_suffix _

theorem skipBlanks_suffix (cs : List Char) : skipBlanks cs <:+ cs := List.dropWhile_suffix _

theorem suffix_of_skipSpaces (h : skipSpaces cs = rest) : rest <:+ cs := h ▸ skipSpaces_suffix cs

theorem suffix_of_skipBlanks (h : skipBlanks cs = rest) : rest <:+ cs := h ▸ skipBlanks_suffix cs

theorem within_readChar (wanted : Char) (cs : List Char) : Within cs (readChar wanted cs) := by
  unfold readChar
  split
  · exact within_failHere trivial (List.suffix_refl _)
  · split
    · exact List.suffix_cons _ _
    · exact within_failHere trivial (List.suffix_refl _)

theorem within_readNameOr (start : Option Char → Fault) (hstart : ∀ found, (start found).Placed)
    (cs : List Char) : Within cs (readNameOr start cs) := by
  unfold readNameOr
  split
  · exact within_failHere (hstart _) (List.suffix_refl _)
  · split
    · exact List.dropWhile_suffix _
    · exact within_failHere (hstart _) (List.suffix_refl _)

theorem within_readName (cs : List Char) : Within cs (readName cs) :=
  within_readNameOr .nameStart (fun _ => trivial) cs

theorem within_readLineEnd (cs : List Char) : Within cs (readLineEnd cs) := by
  unfold readLineEnd
  extract_lets start
  have hstart : start <:+ cs := by
    unfold start
    split
    · rename_i rest heq
      exact (List.suffix_cons _ rest).trans (suffix_of_skipSpaces heq)
    · exact skipSpaces_suffix cs
  clear_value start
  split
  · exact List.nil_suffix
  · exact (List.suffix_cons _ _).trans hstart
  · exact within_failHere trivial hstart

theorem within_readEnd (cs : List Char) : Within cs (readEnd cs) := by
  unfold readEnd
  split
  · exact List.nil_suffix
  · rename_i heq
    exact within_failHere trivial (suffix_of_skipBlanks heq)

/-! ## Quoted literals -/

theorem within_readHex (n code : Nat) (cs : List Char) : Within cs (readHex n code cs) := by
  fun_induction readHex n code cs with
  | case1 code cs => exact List.suffix_refl _
  | case2 => exact within_failHere trivial (List.suffix_refl _)
  | case3 n code c cs digit _ ih => exact ih.mono (List.suffix_cons _ _)
  | case4 n code c cs _ => exact within_failHere trivial (List.suffix_cons _ _)

theorem within_charOfCode (code : Nat) (rest : List Char) : Within rest (charOfCode code rest) := by
  unfold charOfCode
  split
  · exact List.suffix_refl _
  · exact within_failHere trivial (List.suffix_refl _)

theorem within_readUnicode (cs : List Char) : Within cs (readUnicode cs) := by
  unfold readUnicode
  refine (within_readHex 4 0 cs).andThen fun high rest => ?_
  split
  · split
    · rename_i second
      have hsecond : second <:+ '\\' :: 'u' :: second := ⟨['\\', 'u'], rfl⟩
      refine Within.mono ?_ hsecond
      exact (within_readHex 4 0 second).andThen fun low rest => List.suffix_refl _
    · exact within_charOfCode high rest
  · exact within_charOfCode high rest

theorem within_readEscape (cs : List Char) : Within cs (readEscape cs) := by
  unfold readEscape
  split
  · exact within_failHere trivial (List.suffix_refl _)
  · split
    · exact (within_readUnicode _).mono (List.suffix_cons _ _)
    · split
      · exact List.suffix_cons _ _
      · exact within_failHere trivial (List.suffix_cons _ _)

theorem within_readBackslash (q : Quotation) (cs : List Char) : Within cs (readBackslash q cs) := by
  unfold readBackslash
  split
  · split
    · exact List.suffix_cons _ _
    · exact (within_readEscape _).map _
  · exact (within_readEscape []).map _

theorem within_readLiteralBody {q : Quotation} (hending : q.ending.Placed)
    (hlineEnd : q.lineEnd.Placed) (before cs : List Char) :
    Within cs (readLiteralBody q before cs) := by
  fun_induction readLiteralBody q before cs with
  | case1 => exact within_failHere hending (List.suffix_refl _)
  | case2 => exact within_failHere hlineEnd (List.suffix_refl _)
  | case3 => exact List.suffix_cons _ _
  | case4 before rest escaped rest' hescape _ _ ih =>
    have hrest' := (within_readBackslash q rest).suffix_of_ok hescape
    exact ih.mono (hrest'.trans (List.suffix_cons _ _))
  | case5 before rest fault place rest' hescape =>
    exact ((within_readBackslash q rest).of_fail hescape).mono (List.suffix_cons _ _)
  | case6 before c rest _ _ _ ih => exact ih.mono (List.suffix_cons _ _)

theorem within_readLiteral {q : Quotation} (hending : q.ending.Placed)
    (hlineEnd : q.lineEnd.Placed) (cs : List Char) : Within cs (readLiteral q cs) := by
  unfold readLiteral
  refine (within_readChar q.mark cs).andThen fun _ rest => ?_
  exact (within_readLiteralBody hending hlineEnd [] rest).map _

theorem within_readStr (cs : List Char) : Within cs (readStr cs) :=
  within_readLiteral (q := strQuotation) trivial trivial cs

theorem within_readUri (cs : List Char) : Within cs (readUri cs) :=
  within_readLiteral (q := uriQuotation) trivial trivial cs

/-! ## Literals that start with a digit -/

theorem placed_examineDate (cs : List Char) : Placed (examineDate cs) := by
  unfold examineDate
  simp only
  split
  · split
    · rename_i year month day _ _ _
      -- Left in place, the guard on the year would be evaluated with its number in unary.
      generalize Date.ofFields? (year : Int) month day = date
      exact placed_mapError fun _ => trivial
    · exact trivial
  · exact trivial

theorem placed_examineFraction (text : String) (cs : List Char) :
    Placed (examineFraction text cs) := by
  unfold examineFraction
  split
  · exact trivial
  · split
    · split
      · exact trivial
      · exact trivial
    · exact trivial
  · exact trivial

theorem placed_examineTime (cs : List Char) : Placed (examineTime cs) := by
  unfold examineTime
  simp only
  split
  · split
    · split
      · exact placed_mapError fun _ => trivial
      · rename_i fault heq
        have hfraction := placed_examineFraction (String.ofList cs) (cs.drop 8)
        rw [heq] at hfraction
        exact hfraction
    · exact trivial
  · exact trivial

theorem placed_examineOffset (cs : List Char) : Placed (examineOffset cs) := by
  unfold examineOffset
  simp only
  split
  · split
    · split
      · exact trivial
      · exact trivial
    · exact trivial
  · exact trivial

theorem placed_examineClock (text : String) (date : Date) (cs : List Char) :
    Placed (examineClock text date cs) := by
  unfold examineClock
  split
  · exact (placed_examineTime _).bind fun _ => trivial
  · split
    · refine (placed_examineOffset _).bind fun _ => ?_
      exact (placed_examineTime _).bind fun _ => trivial
    · exact trivial

theorem placed_examineInstant (cs : List Char) : Placed (examineInstant cs) := by
  unfold examineInstant
  split
  · refine (placed_examineDate _).bind fun date => ?_
    split
    · exact placed_examineClock _ date _
    · exact trivial
  · exact trivial

theorem placed_examineNumber (t : DigitToken) : Placed (examineNumber t) := by
  unfold examineNumber
  split
  · exact trivial
  · split
    · exact trivial
    · exact placed_mapError fun _ => trivial

theorem within_readZone (text : List Char) (zulu : Bool) (cs : List Char) :
    Within cs (readZone text zulu cs) := by
  have hwithout : Within cs (if zulu then ok .utc cs
      else failHere (.zoneMissing (String.ofList text)) cs : Outcome Zone) := by
    split
    · exact List.suffix_refl _
    · exact within_failHere trivial (List.suffix_refl _)
  unfold readZone
  simp only
  split
  · split
    · rename_i c rest _
      exact within_check ((List.dropWhile_suffix _).trans (List.suffix_cons _ _))
        (List.suffix_refl _) _
    · exact hwithout
  · exact hwithout

theorem within_readTimestamp (text cs : List Char) : Within cs (readTimestamp text cs) := by
  unfold readTimestamp
  refine (within_examine (placed_examineInstant text) (List.suffix_refl cs)).andThen
    fun parts rest => ?_
  refine (within_readZone text parts.zulu rest).andThen fun zone rest => ?_
  exact within_check (List.suffix_refl _) (List.suffix_refl _) _

theorem within_readToken (t : DigitToken) (cs : List Char) : Within cs (readToken t cs) := by
  have hexamine : ∀ {α : Type} {e : Except Fault α}, Placed e → Within cs (examine cs e) :=
    fun h => within_examine h (List.suffix_refl cs)
  unfold readToken
  split
  · exact hexamine ((placed_examineDate _).map _)
  · split
    · exact hexamine ((placed_examineTime _).map _)
    · split
      · exact (within_readTimestamp _ cs).map _
      · exact hexamine ((placed_examineNumber t).map _)

theorem within_readHexNumber (cs : List Char) : Within cs (readHexNumber cs) := by
  unfold readHexNumber
  simp only
  split
  · exact List.dropWhile_suffix _
  · exact within_failHere trivial (List.dropWhile_suffix _)

theorem DigitToken.scan_suffix (t : DigitToken) (cs : List Char) : (t.scan cs).2 <:+ cs := by
  fun_induction scan t cs with
  | case1 => exact List.suffix_refl _
  | case2 t c cs t' _ ih => exact ih.trans (List.suffix_cons _ _)
  | case3 => exact List.suffix_refl _

theorem within_readDigitLiteral (c : Char) (cs : List Char) :
    Within cs (readDigitLiteral (c :: cs)) := by
  unfold readDigitLiteral
  split
  · rename_i rest heq
    cases heq
    exact (within_readHexNumber rest).mono (List.suffix_cons _ _)
  · rename_i heq
    cases heq
    exact (within_readToken _ _).mono ((DigitToken.start c).scan_suffix cs)
  · rename_i heq
    cases heq

/-- A token is a date, a time, a timestamp or a number. -/
theorem yields_readToken {p : Value → Prop} {t : DigitToken}
    (hdate : ∀ date, examineDate t.text = .ok date → p (.date date)) (htime : ∀ time, p (.time time))
    (htimestamp : Yields (fun timestamp => p (.dateTime timestamp)) (readTimestamp t.text cs))
    (hnumber : ∀ n, examineNumber t = .ok n → p (.number n)) : Yields p (readToken t cs) := by
  unfold readToken
  split
  · exact Yields.examine_map_of_ok hdate
  · split
    · exact Yields.examine_map htime
    · split
      · exact htimestamp.map fun _ h => h
      · exact Yields.examine_map_of_ok hnumber

theorem yields_readHexNumber {p : Value → Prop} (h : ∀ n : Nat, p (.ofInt n)) (cs : List Char) :
    Yields p (readHexNumber cs) := by
  unfold readHexNumber
  simp only
  split
  · exact h _
  · trivial

theorem yields_readDigitLiteral {p : Value → Prop} (hhex : ∀ n : Nat, p (.ofInt n))
    (htoken : ∀ t cs, Yields p (readToken t cs)) (cs : List Char) :
    Yields p (readDigitLiteral cs) := by
  unfold readDigitLiteral
  split
  · exact yields_readHexNumber hhex _
  · exact htoken _ _
  · trivial

/-! ## Values in one piece -/

theorem within_readRef (cs : List Char) : Within cs (readRef cs) := by
  have hrest : cs.dropWhile isRefChar <:+ cs := List.dropWhile_suffix _
  unfold readRef
  simp only
  split
  · exact within_failHere trivial hrest
  · split
    · rename_i quoted heq
      have hquoted : '"' :: quoted <:+ cs := (List.suffix_cons ' ' _).trans (heq ▸ hrest)
      refine Within.mono ?_ hquoted
      refine (within_readStr _).andThen fun dis rest => ?_
      exact within_check (List.suffix_refl _) (List.suffix_refl _) _
    · exact within_check hrest (List.suffix_refl _) _

theorem within_readSymbol (cs : List Char) : Within cs (readSymbol cs) :=
  within_check (List.dropWhile_suffix _) (List.suffix_refl _) _

theorem within_closing {α β : Type} {o : Outcome α} (h : Within cs o)
    (make : α → Except Violation β) : Within cs (closing o make) := by
  unfold closing
  refine h.andThen fun value rest => ?_
  refine (within_readChar ')' rest).andThen fun _ rest => ?_
  exact within_check (List.suffix_refl _) (List.suffix_refl _) _

theorem within_readMediaType (cs : List Char) : Within cs (readMediaType cs) := by
  unfold readMediaType
  apply within_closing
  split
  · exact within_readStr _
  · exact List.dropWhile_suffix _

theorem within_readDecimal (cs : List Char) : Within cs (readDecimal cs) := by
  have hrest : ∀ p, (skipSpaces cs).dropWhile p <:+ cs := fun p =>
    (List.dropWhile_suffix p).trans (skipSpaces_suffix cs)
  unfold readDecimal
  simp only
  split
  · exact hrest _
  · exact within_failHere trivial (hrest _)

theorem within_readCoord (cs : List Char) : Within cs (readCoord cs) := by
  unfold readCoord
  apply within_closing
  refine (within_readDecimal cs).andThen fun lat rest => ?_
  refine (within_readChar ',' rest).andThen fun _ rest => ?_
  exact (within_readDecimal rest).map _

theorem within_readTypedText (typeName cs : List Char) :
    Within cs (readTypedText typeName cs) := within_closing (within_readStr cs) _

theorem within_readWordValue (setting : Setting) (cs : List Char) :
    Within (cs.dropWhile Text.isNameChar) (readWordValue setting cs) := by
  have hunknown : Within (cs.dropWhile Text.isNameChar)
      (failHere (.word (String.ofList (cs.takeWhile Text.isNameChar)))
        (cs.dropWhile Text.isNameChar) : Outcome (Option Value)) :=
    within_failHere trivial (List.suffix_refl _)
  unfold readWordValue
  simp only
  split
  · exact List.suffix_refl _
  · split
    · rename_i contents heq
      have hcontents : contents <:+ cs.dropWhile Text.isNameChar := heq ▸ List.suffix_cons '(' _
      split
      · exact ((within_readMediaType contents).mono hcontents).map _
      · split
        · exact ((within_readCoord contents).mono hcontents).map _
        · split
          · exact ((within_readTypedText _ contents).mono hcontents).map _
          · exact hunknown
    · exact hunknown

theorem within_readNegative (cs : List Char) : Within ('-' :: cs) (readNegative cs) := by
  have hword : cs.dropWhile Char.isAlphanum <:+ '-' :: cs :=
    (List.dropWhile_suffix _).trans (List.suffix_cons _ _)
  unfold readNegative
  split
  · simp only
    split
    · exact hword
    · exact within_failHere trivial hword
  · split
    · exact (within_readDigitLiteral '-' _).mono (List.suffix_cons _ _)
    · exact within_failHere trivial (List.suffix_refl _)
  · exact within_failHere trivial (List.suffix_refl _)

theorem within_readAtom (setting : Setting) (cs : List Char) :
    Within cs (readAtom setting cs) := by
  unfold readAtom
  split
  · exact within_failHere trivial (List.suffix_refl _)
  · exact (within_readNegative _).map _
  · exact (within_readStr _).map _
  · exact (within_readUri _).map _
  · exact ((within_readRef _).mono (List.suffix_cons _ _)).map _
  · exact ((within_readSymbol _).mono (List.suffix_cons _ _)).map _
  · split
    · exact ((within_readDigitLiteral _ _).mono (List.suffix_cons _ _)).map _
    · split
      · exact (within_readWordValue setting _).mono (List.dropWhile_suffix _)
      · exact within_failHere trivial (List.suffix_refl _)

/-! ## Values, lists and tags -/

mutual

theorem within_readValue (setting : Setting) (cs : List Char) :
    Within cs (readValue setting cs) := by
  rw [readValue.eq_def]
  split
  · rename_i rest
    exact ((within_readItems setting rest).mono (List.suffix_cons _ _)).map _
  · exact within_readAtom setting cs
termination_by 2 * cs.length

theorem within_readItems (setting : Setting) (cs : List Char) :
    Within cs (readItems setting cs) := by
  have hvalue := (within_readValue setting (skipSpaces cs)).mono (skipSpaces_suffix cs)
  rw [readItems.eq_def]
  split
  · rename_i rest heq
    exact (List.suffix_cons _ rest).trans (suffix_of_skipSpaces heq)
  · split
    · rename_i heq
      exact hvalue.of_fail heq
    · rename_i rest heq
      exact within_failHere trivial (hvalue.suffix_of_ok heq)
    · rename_i item rest heq
      have hrest : skipSpaces rest <:+ cs :=
        (skipSpaces_suffix rest).trans (hvalue.suffix_of_ok heq)
      split
      · rename_i rest' hcomma
        rw [hcomma] at hrest
        split
        · have hrest' : rest' <:+ cs := (List.suffix_cons _ _).trans hrest
          exact ((within_readItems setting rest').mono hrest').map _
        · exact ((within_readChar _ _).mono hrest).map _
      · exact ((within_readChar _ _).mono hrest).map _
termination_by 2 * cs.length + 1
decreasing_by
  · have := length_skipSpaces_le cs
    omega
  · omega

end

theorem within_readTagValue (setting : Setting) (cs : List Char) :
    Within cs (readTagValue setting cs) := by
  unfold readTagValue
  split
  · rename_i rest heq
    have hrest : skipSpaces rest <:+ cs :=
      (skipSpaces_suffix rest).trans ((List.suffix_cons _ _).trans (suffix_of_skipSpaces heq))
    exact (within_readValue setting _).mono hrest
  · exact skipSpaces_suffix cs

theorem within_readTags (setting : Setting) (before : Dict) (cs : List Char) :
    Within cs (readTags setting before cs) := by
  have hname : ∀ {cs start : List Char} {c : Char}, skipSpaces cs = c :: start →
      Within (c :: start) (readTagValue setting ((c :: start).dropWhile Text.isNameChar)) :=
    fun _ => (within_readTagValue setting _).mono (List.dropWhile_suffix _)
  fun_induction readTags setting before cs with
  | case1 => exact List.nil_suffix
  | case2 before cs c start heq _ fault place rest hvalue =>
    exact ((hname heq).of_fail hvalue).mono (suffix_of_skipSpaces heq)
  | case3 before cs c start heq _ name value rest hvalue v hrefused =>
    exact ⟨trivial, suffix_of_skipSpaces heq, (hname heq).suffix_of_ok hvalue⟩
  | case4 before cs c start heq _ name value rest hvalue tags _ _ ih =>
    exact ih.mono (((hname heq).suffix_of_ok hvalue).trans (suffix_of_skipSpaces heq))
  | case5 before cs c start heq _ name value rest hvalue =>
    exact ((hname heq).suffix_of_ok hvalue).trans (suffix_of_skipSpaces heq)
  | case6 before cs c start heq => exact suffix_of_skipSpaces heq

theorem within_readScalar (setting : Setting) (cs : List Char) :
    Within cs (readScalar setting cs) := by
  unfold readScalar
  refine ((within_readValue setting _).mono (skipBlanks_suffix cs)).andThen fun value rest => ?_
  exact (within_readEnd rest).map _

theorem within_readDict (setting : Setting) (cs : List Char) :
    Within cs (readDict setting cs) := by
  unfold readDict
  split
  · rename_i rest heq
    have hrest : rest <:+ cs := (List.suffix_cons _ _).trans (suffix_of_skipBlanks heq)
    refine ((within_readTags setting .empty rest).mono hrest).andThen fun tags rest => ?_
    refine ((within_readChar _ _).mono (skipBlanks_suffix rest)).andThen fun _ rest => ?_
    exact (within_readEnd rest).map _
  · refine ((within_readTags setting .empty _).mono (skipBlanks_suffix cs)).andThen
      fun tags rest => ?_
    exact (within_readEnd rest).map _

end Zinc

end TagGrid
