import TagGrid.Proofs.Grid.Equality
import TagGrid.Proofs.Zinc.Values
import TagGrid.Proofs.Zinc.WrittenText
import TagGrid.Reader

/-! # Reading tags back

Tags are written in the order of their names, so each one that is read goes behind those
before it, and the dictionary is built up entry by entry as it was written.
-/

namespace TagGrid

namespace Dict

variable {name : TagName} {value : Value} {entries : List (TagName × Value)}

theorem insertEntry_append (h : ∀ e ∈ entries, e.1.text < name.text) :
    insertEntry name value entries = entries ++ [(name, value)] := by
  induction entries with
  | nil => rfl
  | cons e entries ih =>
    have hlt := h e List.mem_cons_self
    have hrest := ih fun d hd => h d (List.mem_cons_of_mem _ hd)
    unfold insertEntry
    rw [if_neg (String.lt_asymm hlt), if_pos hlt, hrest]
    rfl

@[ext] theorem ext {a b : Dict} (h : a.entries = b.entries) : a = b := by
  cases a
  cases b
  cases h
  rfl

/-- Entries that go on in the order of a dictionary are put behind its own. -/
theorem entries_foldl_set (before : Dict)
    (h : (before.entries ++ entries).Pairwise fun a b => a.1.text < b.1.text) :
    (entries.foldl (fun d e => d.set e.1 e.2) before).entries = before.entries ++ entries := by
  induction entries generalizing before with
  | nil => rw [List.append_nil]; rfl
  | cons e entries ih =>
    have hset : (before.set e.1 e.2).entries = before.entries ++ [e] := by
      apply insertEntry_append
      intro d hd
      exact (List.pairwise_append.1 h).2.2 d hd e List.mem_cons_self
    have hassoc : (before.set e.1 e.2).entries ++ entries = before.entries ++ e :: entries := by
      rw [hset, List.append_assoc]
      rfl
    rw [List.foldl_cons, ih (before.set e.1 e.2) (hassoc ▸ h), hassoc]

theorem foldl_set_empty (d : Dict) : d.entries.foldl (fun d e => d.set e.1 e.2) .empty = d :=
  ext (entries_foldl_set .empty d.sorted)

end Dict

theorem TagName.ofText?_text (n : TagName) : ofText? n.text = .ok n := dif_pos n.valid

theorem Dict.addOption?_text (d : Dict) (name : TagName) (v : Value) :
    d.addOption? name.text (some v) = .ok (d.set name v) := by
  unfold addOption? add?
  rw [name.ofText?_text]
  rfl

theorem TagName.exists_cons (n : TagName) :
    ∃ c cs, n.text.toList = c :: cs ∧ c.isLower = true ∧ ∀ d ∈ c :: cs, Text.isNameChar d = true := by
  have hvalid := n.valid
  cases hname : n.text.toList with
  | nil => simp [hname, isTagName] at hvalid
  | cons c cs =>
    simp only [hname, isTagName, Bool.and_eq_true, List.all_eq_true] at hvalid
    obtain ⟨hlower, hchars⟩ := hvalid
    refine ⟨c, cs, rfl, hlower, ?_⟩
    intro d hd
    rcases List.mem_cons.1 hd with rfl | hd
    · exact Text.isNameChar_of_isAlpha (Text.isAlpha_of_isLower hlower)
    · exact hchars d hd

namespace Zinc

open Text Outcome

variable {version : Version} {cs rest : List Char} {entries : List (TagName × Value)}

/-- A text after the last tag: it can follow a value, and after spaces it neither goes on
with a tag nor gives the last tag a value. -/
def EndsTags (rest : List Char) : Prop :=
  Follows rest ∧ ∀ c ∈ (skipSpaces rest).head?, c ∈ delimiters

theorem EndsTags.nil : EndsTags [] := ⟨Follows.nil, nofun⟩

theorem EndsTags.cons {c : Char} (hc : c ∈ delimiters) (hspace : isSpace c = false)
    (rest : List Char) : EndsTags (c :: rest) := by
  refine ⟨Follows.cons hc ?_, ?_⟩
  · rintro rfl
    exact absurd hspace (by decide)
  · rw [skipSpaces_cons rest hspace]
    intro d hd
    obtain rfl : c = d := Option.some.inj hd
    exact hc

theorem skipSpaces_name (n : TagName) (rest : List Char) :
    skipSpaces (n.text.toList ++ rest) = n.text.toList ++ rest := by
  obtain ⟨c, cs, hname, hlower, -⟩ := n.exists_cons
  rw [isLower_iff] at hlower
  rw [hname, List.cons_append]
  exact skipSpaces_cons _ (isSpace_eq_false (by omega) (by omega))

/-- Another tag, or the end of the tags, can follow a value and is not taken for one. -/
theorem endsTag (version : Version) (entries : List (TagName × Value)) (hrest : EndsTags rest) :
    Follows (tagsText version entries ++ rest) ∧
      (skipSpaces (tagsText version entries ++ rest)).head? ≠ some ':' := by
  cases entries with
  | nil =>
    refine ⟨hrest.1, ?_⟩
    intro hcolon
    exact absurd (hrest.2 ':' hcolon) (by decide)
  | cons e entries =>
    obtain ⟨c, cs, hname, hlower, -⟩ := e.1.exists_cons
    have htext : ∃ more, tagsText version (e :: entries) ++ rest =
        ' ' :: (e.1.text.toList ++ more) := by
      have htag : ∃ more, tagText version e.1 e.2 = e.1.text.toList ++ more := by
        unfold tagText
        split
        · exact ⟨[], (List.append_nil _).symm⟩
        · exact ⟨_, rfl⟩
      obtain ⟨more, htag⟩ := htag
      refine ⟨more ++ (tagsText version entries ++ rest), ?_⟩
      simp [tagsText, htag]
    obtain ⟨more, htext⟩ := htext
    rw [htext]
    constructor
    · rw [hname, List.cons_append]
      apply Follows.space
      rintro rfl
      exact absurd hlower (by decide)
    · rw [skipSpaces_cons_space, skipSpaces_name, hname]
      intro hcolon
      obtain rfl : c = ':' := Option.some.inj hcolon
      exact absurd hlower (by decide)

theorem exists_textIn_cons (version : Version) (v : Value) :
    ∃ c cs, textIn version v = c :: cs ∧ startsValue c = true := by
  unfold textIn
  split
  · exact ⟨'B', _, rfl, rfl⟩
  · exact exists_zinc_cons v

theorem skipSpaces_textIn (v : Value) (rest : List Char) :
    skipSpaces (textIn version v ++ rest) = textIn version v ++ rest := by
  obtain ⟨c, cs, hcs, hc⟩ := exists_textIn_cons version v
  rw [hcs, List.cons_append]
  exact skipSpaces_cons _ (startsValue_spec hc).2.2

theorem readTagValue_colon {v : Value} (hread : ReadsBack (textIn version v) v)
    (hfollows : Follows rest) :
    readTagValue .data (':' :: (textIn version v ++ rest)) = ok (some v) rest := by
  unfold readTagValue
  rw [skipSpaces_cons _ rfl]
  show readValue .data (skipSpaces (textIn version v ++ rest)) = _
  rw [skipSpaces_textIn, hread .data rest hfollows]

theorem readTagValue_marker (hcolon : (skipSpaces rest).head? ≠ some ':') :
    readTagValue .data rest = ok (some .marker) (skipSpaces rest) := by
  unfold readTagValue
  split
  · rename_i heq
    rw [heq] at hcolon
    exact absurd rfl hcolon
  · rfl

/-- A tag is its name and something behind it, which is read as its value. -/
theorem exists_behind_name {v : Value} (hread : ReadsBack (textIn version v) v)
    (hfollows : Follows rest) (hcolon : (skipSpaces rest).head? ≠ some ':') (name : TagName) :
    ∃ behind rest', tagText version name v = name.text.toList ++ behind ∧
      readTagValue .data (behind ++ rest) = ok (some v) rest' ∧
      skipSpaces rest' = skipSpaces rest ∧ Stops isNameChar (behind ++ rest) := by
  have hstops : Stops isNameChar rest := hfollows.stops (by decide)
  cases v with
  | marker =>
    exact ⟨[], skipSpaces rest, (List.append_nil _).symm, readTagValue_marker hcolon,
      skipSpaces_skipSpaces rest, hstops⟩
  | _ =>
    exact ⟨_, rest, rfl, readTagValue_colon hread hfollows, rfl, Stops.cons rfl⟩

/-- What `readTags` does at a name. -/
theorem readTags_name {name : TagName} {behind : List Char}
    (hcs : skipSpaces cs = name.text.toList ++ behind) (hstops : Stops isNameChar behind)
    (before : Dict) :
    readTags .data before cs = (readTagValue .data behind).bind fun value rest =>
      (check (skipSpaces cs) rest (before.addOption? name.text value)).bind (readTags .data) := by
  obtain ⟨c, more, hname, hlower, hchars⟩ := name.exists_cons
  have htext : String.ofList (c :: more) = name.text := by rw [← hname, String.ofList_toList]
  rw [hname] at hcs
  rw [readTags_eq, hcs, List.cons_append]
  simp only [hlower, if_true, readTag]
  rw [← List.cons_append, Stops.takeWhile_append hchars hstops,
    Stops.dropWhile_append hchars hstops, htext]
  cases readTagValue .data behind with
  | ok => rfl
  | fail => rfl

theorem readTags_end {before : Dict} (hcs : skipSpaces cs = skipSpaces rest)
    (hrest : EndsTags rest) : readTags .data before cs = ok before (skipSpaces rest) := by
  rw [readTags_eq, hcs]
  cases hskip : skipSpaces rest with
  | nil => rfl
  | cons c start =>
    have hdelimiter : c ∈ delimiters := by
      apply hrest.2
      rw [hskip]
      rfl
    have hdelimiters : delimiters.any Char.isLower = false := by decide
    exact if_neg (List.any_eq_false.1 hdelimiters c hdelimiter)

/-- Tags are read in the order in which they were written, up to what ends them. -/
theorem readTags_tagsText (hread : ∀ e ∈ entries, ReadsBack (textIn version e.2) e.2)
    (hrest : EndsTags rest) (before : Dict)
    (hcs : skipSpaces cs = skipSpaces (tagsText version entries ++ rest)) :
    readTags .data before cs =
      ok (entries.foldl (fun d e => d.set e.1 e.2) before) (skipSpaces rest) := by
  induction entries generalizing before cs with
  | nil => exact readTags_end hcs hrest
  | cons e entries ih =>
    obtain ⟨hfollows, hcolon⟩ := endsTag version entries hrest
    obtain ⟨behind, rest', htext, hvalue, hskip, hstops⟩ :=
      exists_behind_name (hread e List.mem_cons_self) hfollows hcolon e.1
    have hcs' : skipSpaces cs =
        e.1.text.toList ++ (behind ++ (tagsText version entries ++ rest)) := by
      rw [hcs]
      simp only [tagsText, List.flatMap_cons, List.cons_append, htext, List.append_assoc,
        skipSpaces_cons_space]
      exact skipSpaces_name e.1 _
    rw [readTags_name hcs' hstops, hvalue, bind_ok, Dict.addOption?_text, check_ok, bind_ok]
    exact ih (fun f hf => hread f (List.mem_cons_of_mem _ hf)) (before.set e.1 e.2) hskip

theorem readTags_dict {d : Dict} (hread : ∀ e ∈ d.entries, ReadsBack (textIn version e.2) e.2)
    (hrest : EndsTags rest) (hcs : skipSpaces cs = skipSpaces (tagsText version d.entries ++ rest)) :
    readTags .data .empty cs = ok d (skipSpaces rest) := by
  rw [readTags_tagsText hread hrest .empty hcs, Dict.foldl_set_empty]

/-! ## Values and dictionaries alone -/

theorem skipSpaces_dictText (version : Version) (entries : List (TagName × Value))
    (rest : List Char) :
    skipSpaces (dictText version entries ++ rest) = skipSpaces (tagsText version entries ++ rest) := by
  cases entries with
  | nil => rfl
  | cons e entries =>
    rw [tagsText_eq_cons, List.cons_append, skipSpaces_cons_space]

/-- The text of a dictionary is empty or starts with a name. -/
theorem dictText_head (version : Version) (entries : List (TagName × Value)) (rest : List Char) :
    dictText version entries ++ rest = rest ∨
      ∃ c cs, dictText version entries ++ rest = c :: cs ∧ c.isLower = true := by
  cases entries with
  | nil => exact .inl rfl
  | cons e entries =>
    obtain ⟨c, cs, hname, hlower, -⟩ := e.1.exists_cons
    have htag : ∃ more, tagText version e.1 e.2 = c :: more := by
      unfold tagText
      split
      · exact ⟨cs, hname⟩
      · rw [hname]
        exact ⟨_, rfl⟩
    obtain ⟨more, htag⟩ := htag
    have htext : ∃ more, dictText version (e :: entries) = c :: more := by
      cases entries with
      | nil => exact ⟨more, htag⟩
      | cons f entries =>
        refine ⟨more ++ ' ' :: dictText version (f :: entries), ?_⟩
        show tagText version e.1 e.2 ++ ' ' :: dictText version (f :: entries) = _
        rw [htag, List.cons_append]
    obtain ⟨more, htext⟩ := htext
    rw [htext]
    exact .inr ⟨c, more ++ rest, rfl, hlower⟩

theorem readDict_dictText {d : Dict}
    (hread : ∀ e ∈ d.entries, ReadsBack (textIn version e.2) e.2) :
    readDict .data (dictText version d.entries) = ok d [] := by
  have htags : readTags .data .empty (dictText version d.entries) = ok d [] := by
    apply readTags_dict hread EndsTags.nil
    rw [← skipSpaces_dictText, List.append_nil]
  unfold readDict
  rcases dictText_head version d.entries [] with hempty | ⟨c, cs, hcs, hlower⟩
  · rw [List.append_nil] at hempty
    rw [hempty] at htags ⊢
    rw [skipBlanks_nil]
    show (readTags .data .empty []).bind _ = _
    rw [htags]
    rfl
  · rw [List.append_nil] at hcs
    rw [hcs] at htags ⊢
    have hbounds := isLower_iff.1 hlower
    rw [skipBlanks_cons _ (isBlank_eq_false (by omega) (by omega))]
    split
    · rename_i heq
      obtain ⟨rfl, -⟩ := List.cons.inj heq
      exact absurd hlower (by decide)
    · rw [htags]
      rfl

theorem readDict_braces {d : Dict}
    (hread : ∀ e ∈ d.entries, ReadsBack (textIn version e.2) e.2) :
    readDict .data ('\x7b' :: (dictText version d.entries ++ ['\x7d'])) = ok d [] := by
  have hbrace : EndsTags ['\x7d'] := EndsTags.cons (by decide) rfl []
  have htags : readTags .data .empty (dictText version d.entries ++ ['\x7d']) = ok d ['\x7d'] := by
    rw [readTags_dict hread hbrace (skipSpaces_dictText version d.entries _)]
    rfl
  unfold readDict
  rw [skipBlanks_cons _ (by decide)]
  show (readTags .data .empty (dictText version d.entries ++ ['\x7d'])).bind _ = _
  rw [htags]
  rfl

theorem run_eq_ok {α : Type} {read : Setting → List Char → Outcome α} {a : α} {text : String}
    (rest : List Char) (h : read .data text.toList = ok a rest) :
    ((Reader.ofText text).run read).1 = .ok a := by
  unfold Reader.run Reader.ofText
  rw [h]

/-- A text that is read to its end is the value that was read. -/
theorem toValue?_of_readValue {cs : List Char} {value : Option Value} (hstart : skipBlanks cs = cs)
    (hread : readValue .data cs = ok value []) : toValue? (String.ofList cs) = .ok value := by
  apply run_eq_ok []
  rw [String.toList_ofList]
  unfold readScalar
  rw [hstart, hread]
  rfl

theorem toValue?_toZinc {v : Value} (hsafe : v.zincSafe = true) :
    toValue? v.toZinc = .ok (some v) := by
  have hread := readsBack_zinc v hsafe .data [] Follows.nil
  have hstart := skipBlanks_zinc v []
  rw [List.append_nil] at hread hstart
  exact toValue?_of_readValue hstart hread

theorem readsBack_of_everyValue {d : Dict} (hsafe : d.everyValue Value.zincSafe = true) :
    ∀ e ∈ d.entries, ReadsBack (textIn .v3 e.2) e.2 := by
  intro e he
  exact readsBack_zinc e.2 (List.all_eq_true.1 hsafe e he)

theorem toDict?_of_zincSafe {d : Dict} (hsafe : d.everyValue Value.zincSafe = true) :
    toDict? (String.ofList (dictText .v3 d.entries)) = .ok d := by
  apply run_eq_ok []
  rw [String.toList_ofList]
  exact readDict_dictText (readsBack_of_everyValue hsafe)

/-- A safe value is read back from its text, and a dictionary of safe values from what a
writer wrote of it, with braces around it or without. -/
theorem values_and_dicts_read_back :
    (∀ v : Value, v.zincSafe = true → toValue? v.toZinc = .ok (some v)) ∧
    ∀ d : Dict, d.everyValue Value.zincSafe = true →
      ∃ text, (Writer.new .v3).dict d = (.ok (), ⟨.v3, text⟩) ∧
        toDict? text = .ok d ∧ toDict? ("\x7b" ++ text ++ "\x7d") = .ok d := by
  constructor
  · intro v hsafe
    exact toValue?_toZinc hsafe
  · intro d hsafe
    refine ⟨String.ofList (dictText .v3 d.entries), ?_, toDict?_of_zincSafe hsafe, ?_⟩
    · unfold Writer.dict Writer.push Writer.new
      rw [writeDict_eq fun e _ => hasText_v3 e.2]
      simp [Written.ofText, Written.toResult, Except.map]
    · apply run_eq_ok []
      simp only [String.toList_append, String.toList_ofList]
      exact readDict_braces (readsBack_of_everyValue hsafe)

theorem sample_value_and_dict_read_back :
    Value.sample.zincSafe = true ∧ Dict.sample.everyValue Value.zincSafe = true ∧
      toValue? Value.sample.toZinc = .ok (some .sample) ∧
      ∃ text, (Writer.new .v3).dict .sample = (.ok (), ⟨.v3, text⟩) ∧
        toDict? text = .ok .sample ∧ toDict? ("\x7b" ++ text ++ "\x7d") = .ok .sample :=
  ⟨by decide, by decide, values_and_dicts_read_back.1 .sample (by decide),
    values_and_dicts_read_back.2 .sample (by decide)⟩

end Zinc

end TagGrid
