import Mathlib.Data.Finset.Card
import TagGrid.Dict.Draft
import TagGrid.Json.Encode
import TagGrid.Proofs.Dict.Lookup
import TagGrid.Zinc.Writer

/-! # Drafts of dictionaries

A draft keeps the tags in the order of their arrival, but it answers like a finite map from
names to values: the map of what was last written under each name and not removed since.
The frozen draft depends on that map only.
-/

namespace TagGrid

namespace DictDraft

variable {b : DictDraft} {name key : String} {value : Value}

theorem get?_eq_some_iff :
    b.get? name = some value ↔ ∃ n : TagName, n.text = name ∧ (n, value) ∈ b.entries :=
  find?_entry_eq_some_iff b.distinct

/-! ## The answers after a change -/

theorem find?_putEntry (n : TagName) (value : Value) (entries : List (TagName × Value)) :
    ((putEntry n value entries).find? fun e => e.1.text == key).map Prod.snd =
      if n.text = key then some value
      else (entries.find? fun e => e.1.text == key).map Prod.snd := by
  fun_induction putEntry n value entries with
  | case1 =>
    by_cases hkey : n.text = key
    · simp [hkey]
    · simp [hkey]
  | case2 v rest =>
    by_cases hkey : n.text = key
    · simp [hkey]
    · simp [hkey]
  | case3 m v rest hne ih =>
    by_cases hm : m.text = key
    · have hn : n.text ≠ key := by
        rintro rfl
        exact hne (TagName.text_injective hm)
      simp [hm, hn]
    · simpa [hm] using ih

theorem get?_set (n : TagName) (value : Value) :
    (b.set n value).get? key = if n.text = key then some value else b.get? key :=
  find?_putEntry n value b.entries

theorem get?_foldl_set {entries : List (TagName × Value)} (h : (entries.map Prod.fst).Nodup) :
    (entries.foldl (fun b e => b.set e.1 e.2) b).get? key =
      ((entries.find? fun e => e.1.text == key).map Prod.snd).or (b.get? key) := by
  induction entries generalizing b with
  | nil => rfl
  | cons e entries ih =>
    obtain ⟨hhead, htail⟩ := List.nodup_cons.1 h
    rw [List.foldl_cons, ih htail, get?_set, List.find?_cons]
    by_cases hkey : e.1.text = key
    · have habsent : entries.find? (fun e => e.1.text == key) = none := by
        rw [List.find?_eq_none]
        intro f hf heq
        have hname : f.1 = e.1 := TagName.text_injective ((eq_of_beq heq).trans hkey.symm)
        exact hhead (hname ▸ List.mem_map_of_mem hf)
      simp [hkey, habsent]
    · simp only [if_neg hkey, beq_false_of_ne hkey]

theorem get?_addAll (d : Dict) : (b.addAll d).get? key = (d.get? key).or (b.get? key) :=
  get?_foldl_set d.nodup_names

theorem get?_erase (name : String) :
    (b.erase name).get? key = if name = key then none else b.get? key :=
  find?_filter_name b.entries key

/-- Sorting changes no answer. -/
theorem get?_freeze (b : DictDraft) (key : String) : b.freeze.get? key = b.get? key := by
  have hsome (value : Value) : b.freeze.get? key = some value ↔ b.get? key = some value := by
    have hmem (n : TagName) : (n, value) ∈ b.freeze.entries ↔ (n, value) ∈ b.entries :=
      List.mem_mergeSort
    rw [Dict.get?_eq_some_iff, get?_eq_some_iff]
    simp only [hmem]
  exact Option.ext hsome

/-! ## Changes of a finished dictionary

A dictionary that is changed itself comes out as a draft does that is changed and finished.
-/

theorem freeze_set (b : DictDraft) (n : TagName) (value : Value) :
    (b.set n value).freeze = b.freeze.set n value := by
  apply Dict.ext_get?
  intro key
  rw [get?_freeze, get?_set, Dict.get?_set, get?_freeze]

theorem freeze_empty : empty.freeze = Dict.empty :=
  Dict.ext_get? fun name => empty.get?_freeze name

theorem freeze_add? (b : DictDraft) (name : String) (value : Value) :
    (b.add? name value).map freeze = b.freeze.add? name value := by
  unfold add? Dict.add?
  cases TagName.ofText? name with
  | error v => rfl
  | ok n => exact congrArg Except.ok (b.freeze_set n value)

theorem freeze_addOption? (b : DictDraft) (name : String) (value : Option Value) :
    (b.addOption? name value).map freeze = b.freeze.addOption? name value := by
  cases value with
  | none => rfl
  | some value => exact b.freeze_add? name value

/-- Tags that are added one after another are refused alike and leave the same. -/
theorem freeze_foldlM_addOption? (b : DictDraft) (tags : List (String × Option Value)) :
    (tags.foldlM (fun (b : DictDraft) t => b.addOption? t.1 t.2) b).map freeze =
      tags.foldlM (fun (d : Dict) t => d.addOption? t.1 t.2) b.freeze := by
  induction tags generalizing b with
  | nil => rfl
  | cons t tags ih =>
    rw [List.foldlM_cons, List.foldlM_cons, ← freeze_addOption?]
    cases b.addOption? t.1 t.2 with
    | error v => rfl
    | ok b' => exact ih b'

theorem freeze_foldl_set (b : DictDraft) (entries : List (TagName × Value)) :
    (entries.foldl (fun (b : DictDraft) e => b.set e.1 e.2) b).freeze =
      entries.foldl (fun (d : Dict) e => d.set e.1 e.2) b.freeze := by
  induction entries generalizing b with
  | nil => rfl
  | cons e entries ih => rw [List.foldl_cons, List.foldl_cons, ih, freeze_set]

theorem freeze_addAll (b : DictDraft) (d : Dict) : (b.addAll d).freeze = b.freeze.addAll d :=
  b.freeze_foldl_set d.entries

theorem freeze_foldl_addAll (b : DictDraft) (ds : List Dict) :
    (ds.foldl addAll b).freeze = ds.foldl Dict.addAll b.freeze := by
  induction ds generalizing b with
  | nil => rfl
  | cons d ds ih => rw [List.foldl_cons, List.foldl_cons, ih, freeze_addAll]

/-! ## A draft as a finite map -/

/-- A draft answers like a map from names to values, and its size is the number of names
that have one. -/
structure Denotes (b : DictDraft) (map : String → Option Value) : Prop where
  get? : ∀ name, b.get? name = map name
  has : ∀ name, b.has name = (map name).isSome
  size : ∃ names : Finset String,
    (∀ name, name ∈ names ↔ (map name).isSome = true) ∧ b.size = names.card
  isEmpty : b.isEmpty = true ↔ ∀ name, map name = none

theorem has_eq (b : DictDraft) (name : String) : b.has name = (b.get? name).isSome := by
  unfold has get?
  rw [Option.isSome_map, Bool.eq_iff_iff, List.any_eq_true, List.find?_isSome]

theorem denotes_get? (b : DictDraft) : b.Denotes b.get? where
  get? _ := rfl
  has := b.has_eq
  size := by
    refine ⟨(b.entries.map fun e => e.1.text).toFinset, ?_, ?_⟩
    · intro name
      rw [← has_eq, has, List.any_eq_true, List.mem_toFinset, List.mem_map]
      simp
    · have hnodup : (b.entries.map fun e => e.1.text).Nodup := by
        simpa [Function.comp_def] using b.distinct.map TagName.text_injective
      rw [List.toFinset_card_of_nodup hnodup, List.length_map]
      rfl
  isEmpty := by
    have hnone (name : String) : b.get? name = none ↔ b.has name = false := by
      rw [has_eq, Option.isSome_eq_false_iff, Option.isNone_iff_eq_none]
    simp only [hnone, has, isEmpty, List.isEmpty_iff, List.any_eq_false, beq_iff_eq]
    constructor
    · intro hempty name e he
      rw [hempty] at he
      cases he
    · intro hall
      apply List.eq_nil_iff_forall_not_mem.2
      intro e he
      exact hall e.1.text e he rfl

end DictDraft

/-- A dictionary holds exactly a map from names to values, under tag names in ascending
order. -/
structure Dict.Holds (d : Dict) (map : String → Option Value) : Prop where
  get? : ∀ name, d.get? name = map name
  mem_iff : ∀ name value, (name, value) ∈ d.entries.map (fun e => (e.1.text, e.2)) ↔
    map name = some value
  tagNames : ∀ e ∈ d.entries, isTagName e.1.text.toList = true
  ascending : (d.entries.map fun e => e.1.text).Pairwise (· < ·)

theorem DictDraft.holds_freeze (b : DictDraft) : b.freeze.Holds b.get? where
  get? := b.get?_freeze
  mem_iff name value := by
    rw [← get?_freeze, Dict.get?_eq_some_iff, List.mem_map]
    constructor
    · rintro ⟨e, he, heq⟩
      cases heq
      exact ⟨e.1, rfl, he⟩
    · rintro ⟨n, rfl, hmem⟩
      exact ⟨_, hmem, rfl⟩
  tagNames e _ := e.1.valid
  ascending := List.pairwise_map.2 b.freeze.sorted

namespace DictDraft

variable {b : DictDraft}

/-! ## Runs of calls -/

namespace Call

/-- The tag that a call is to add, if its value can be made. -/
def added? : Call → Option (String × Value)
  | add name value => some (name, value)
  | addMarker name => some (name, .marker)
  | addNumber name value unit =>
    match number? value unit with
    | .ok number => some (name, .number number)
    | .error _ => none
  | addOption name value => value.map (name, ·)
  | addAll _ | remove _ | refreeze => none

/-- What a call does to the value under a name: it writes one, removes it, or leaves it
alone. -/
def effect (call : Call) (name : String) : Option (Option Value) :=
  match call with
  | addAll tags => (tags.get? name).map some
  | remove n => if n = name then some none else none
  | call =>
    match call.added? with
    | some (n, value) => if n = name ∧ isTagName n.toList = true then some (some value) else none
    | none => none

/-- The calls that fail: those that are to add a tag whose name is not a tag name, or a
number with a unit that it cannot have. -/
def Refused : Call → Prop
  | add name _ | addMarker name => ¬ isTagName name.toList = true
  | addNumber name value unit =>
    ¬ isTagName name.toList = true ∨
      ∃ u, unit = some u ∧ ¬ (isUnitName u.toList = true ∧ value.isFinite = true)
  | addOption name value => value ≠ none ∧ ¬ isTagName name.toList = true
  | addAll _ | remove _ | refreeze => False

end Call

/-- What calls of a new draft last wrote under a name, if they did not remove it since. -/
def lastWritten (calls : List Call) (name : String) : Option Value :=
  (calls.reverse.findSome? fun call => call.effect name).join

theorem add?_eq (b : DictDraft) (name : String) (value : Value) :
    b.add? name value =
      if h : isTagName name.toList = true then .ok (b.set ⟨name, h⟩ value)
      else .error (.tagName name) := by
  unfold add? TagName.ofText?
  split <;> rfl

/-- No tag whose name is one is refused. -/
theorem run_add (b : DictDraft) (tags : List (TagName × Value)) :
    b.run (tags.map fun e => .add e.1.text e.2) = tags.foldl (fun b e => b.set e.1 e.2) b := by
  unfold run
  rw [List.foldl_map]
  congr 1
  funext b e
  show (settle b (b.add? e.1.text e.2)).2 = _
  rw [add?_eq, dif_pos e.1.valid]
  rfl

/-- A call that adds one tag answers like the tag is valid. -/
theorem settle_add? (b : DictDraft) (n : String) (value : Value) (key : String) :
    (settle b (b.add? n value)).2.get? key =
      ((if n = key ∧ isTagName n.toList = true then some (some value) else none).getD
        (b.get? key)) := by
  rw [add?_eq]
  by_cases hn : isTagName n.toList = true
  · rw [dif_pos hn]
    show (b.set ⟨n, hn⟩ value).get? key = _
    rw [get?_set]
    simp only [hn, and_true]
    split <;> rfl
  · rw [dif_neg hn]
    simp [settle, hn]

theorem addNumber?_eq (b : DictDraft) (name : String) (value : Double) (unit : Option String) :
    b.addNumber? name value unit =
      match number? value unit with
      | .ok number => b.add? name (.number number)
      | .error v => .error v := by
  unfold addNumber?
  cases number? value unit <;> rfl

/-- One call: the answers after it. -/
theorem get?_perform (b : DictDraft) (call : Call) (key : String) :
    (b.perform call).2.get? key = (call.effect key).getD (b.get? key) := by
  cases call with
  | add n value => exact settle_add? b n value key
  | addMarker n => exact settle_add? b n .marker key
  | addNumber n value unit =>
    show (settle b (b.addNumber? n value unit)).2.get? key = _
    rw [addNumber?_eq]
    simp only [Call.effect, Call.added?]
    cases number? value unit with
    | ok number => exact settle_add? b n _ key
    | error v => rfl
  | addOption n value =>
    cases value with
    | none => rfl
    | some value => exact settle_add? b n value key
  | addAll tags =>
    show (b.addAll tags).get? key = _
    rw [get?_addAll]
    simp only [Call.effect]
    cases tags.get? key <;> rfl
  | remove n =>
    show (b.erase n).get? key = _
    rw [get?_erase]
    simp only [Call.effect]
    split <;> rfl
  | refreeze =>
    show b.freeze.get? key = _
    exact get?_freeze b key

theorem get?_run (b : DictDraft) (calls : List Call) (key : String) :
    (b.run calls).get? key =
      (calls.reverse.findSome? fun call => call.effect key).getD (b.get? key) := by
  induction calls generalizing b with
  | nil => rfl
  | cons call calls ih =>
    show ((b.perform call).2.run calls).get? key = _
    rw [ih, get?_perform, List.reverse_cons, List.findSome?_append]
    cases List.findSome? (fun call => call.effect key) calls.reverse with
    | some value => rfl
    | none => cases hcall : call.effect key <;> simp [hcall]

theorem get?_run_empty (calls : List Call) : (empty.run calls).get? = lastWritten calls := by
  funext key
  rw [get?_run, lastWritten]
  cases List.findSome? (fun call => call.effect key) calls.reverse with
  | some value => rfl
  | none => rfl

theorem exists_add?_error_iff (b : DictDraft) (name : String) (value : Value) :
    (∃ v, (settle b (b.add? name value)).1 = .error v) ↔ ¬ isTagName name.toList = true := by
  rw [add?_eq]
  split <;> simp [settle, *]

theorem exists_number?_error_iff (value : Double) (unit : Option String) :
    (∃ v, number? value unit = .error v) ↔
      ∃ u, unit = some u ∧ ¬ (isUnitName u.toList = true ∧ value.isFinite = true) := by
  cases unit with
  | none => simp [number?]
  | some u =>
    unfold number? Number.withUnit?
    by_cases hu : isUnitName u.toList = true
    · by_cases hv : value.isFinite = true
      · simp [hu, hv]
      · simp [hu, hv]
    · simp [hu]

/-- A call fails exactly if it is one of the refused ones. -/
theorem exists_perform_error_iff (b : DictDraft) (call : Call) :
    (∃ v, (b.perform call).1 = .error v) ↔ call.Refused := by
  cases call with
  | add n value => exact exists_add?_error_iff b n value
  | addMarker n => exact exists_add?_error_iff b n .marker
  | addNumber n value unit =>
    show (∃ v, (settle b (b.addNumber? n value unit)).1 = .error v) ↔ _
    rw [addNumber?_eq]
    have hnumber := exists_number?_error_iff value unit
    cases hvalue : number? value unit with
    | ok number =>
      have hno : ¬ ∃ u, unit = some u ∧ ¬ (isUnitName u.toList = true ∧ value.isFinite = true) := by
        rw [← hnumber, hvalue]
        rintro ⟨v, hv⟩
        cases hv
      exact (exists_add?_error_iff b n _).trans (or_iff_left hno).symm
    | error v => exact iff_of_true ⟨v, rfl⟩ (.inr (hnumber.1 ⟨v, hvalue⟩))
  | addOption n value =>
    cases value with
    | none => simp [perform, settle, addOption?, Call.Refused]
    | some value =>
      show (∃ v, (settle b (b.add? n value)).1 = .error v) ↔ _
      simpa [Call.Refused] using exists_add?_error_iff b n value
  | addAll tags => simp [perform, Call.Refused]
  | remove n => simp [perform, Call.Refused]
  | refreeze => simp [perform, Call.Refused]

theorem settle_error {α : Type} {before : α} {change : Except Violation α} {v : Violation}
    (h : (settle before change).1 = .error v) : (settle before change).2 = before := by
  cases change with
  | ok after => cases h
  | error v => rfl

/-- A call that fails leaves the draft as it was. -/
theorem perform_error {call : Call} {v : Violation} (h : (b.perform call).1 = .error v) :
    (b.perform call).2 = b := by
  cases call with
  | add | addMarker | addNumber | addOption => exact settle_error h
  | addAll | remove | refreeze => cases h

theorem denotes_run (calls : List Call) : (empty.run calls).Denotes (lastWritten calls) :=
  get?_run_empty calls ▸ denotes_get? _

theorem holds_freeze_run (calls : List Call) :
    (empty.run calls).freeze.Holds (lastWritten calls) :=
  get?_run_empty calls ▸ holds_freeze _

/-- Calls that wrote the same in the end make the same dictionary, whatever their order. -/
theorem freeze_run_congr {calls others : List Call}
    (h : ∀ name, lastWritten others name = lastWritten calls name) :
    (empty.run others).freeze = (empty.run calls).freeze := by
  apply Dict.ext_get?
  intro name
  rw [(holds_freeze_run others).get?, (holds_freeze_run calls).get?, h]

/-- A new draft answers at all times like the finite map that its calls denote, where a call
that fails counts for nothing, and it is frozen into exactly this map. So calls that denote
the same map lead to the same texts. -/
theorem calls_denote_map (calls : List Call) :
    (empty.run calls).Denotes (lastWritten calls) ∧
    (empty.run calls).freeze.Holds (lastWritten calls) ∧
    (∀ call, (∃ v, ((empty.run calls).perform call).1 = .error v) ↔ call.Refused) ∧
    (∀ call v, ((empty.run calls).perform call).1 = .error v →
      ((empty.run calls).perform call).2 = empty.run calls) ∧
    ∀ others, (∀ name, lastWritten others name = lastWritten calls name) →
      (∀ version, Zinc.ofDict? version (empty.run others).freeze =
        Zinc.ofDict? version (empty.run calls).freeze) ∧
      (empty.run others).freeze.toJson = (empty.run calls).freeze.toJson ∧
      (empty.run others).freeze.toJsonText = (empty.run calls).freeze.toJsonText := by
  refine ⟨denotes_run calls, holds_freeze_run calls, exists_perform_error_iff _, ?_, ?_⟩
  · intro call v h
    exact perform_error h
  · intro others h
    have hsame := freeze_run_congr h
    rw [hsame]
    exact ⟨fun _ => rfl, rfl, rfl⟩

def sampleCalls : List Call := [.add "dis" (.str "North"), .addMarker "site"]

/-- The same tags in another order, one of them after a detour. -/
def sampleDetour : List Call :=
  [.addMarker "site", .addMarker "dis", .remove "dis", .addMarker "Dis", .refreeze,
   .addOption "dis" (some (.str "North"))]

theorem sample_calls_denote_map :
    ((empty.run sampleCalls).perform (.addMarker "Site")).1 = .error (.tagName "Site") ∧
      (∀ name, lastWritten sampleDetour name = lastWritten sampleCalls name) ∧
      ((empty.run sampleCalls).perform (.addMarker "Site")).2 = empty.run sampleCalls ∧
      (empty.run sampleDetour).freeze.toJson = (empty.run sampleCalls).freeze.toJson := by
  have hrefused : ((empty.run sampleCalls).perform (.addMarker "Site")).1 =
      .error (.tagName "Site") := rfl
  have hsame : ∀ name, lastWritten sampleDetour name = lastWritten sampleCalls name := by
    intro name
    by_cases hdis : "dis" = name
    · subst hdis
      rfl
    by_cases hsite : "site" = name
    · subst hsite
      rfl
    by_cases hcapital : "Dis" = name
    · subst hcapital
      rfl
    · simp [lastWritten, sampleDetour, sampleCalls, Call.effect, Call.added?, hdis, hsite, hcapital]
  obtain ⟨-, -, -, hunchanged, htexts⟩ := calls_denote_map sampleCalls
  exact ⟨hrefused, hsame, hunchanged _ _ hrefused, (htexts sampleDetour hsame).2.1⟩

end DictDraft

end TagGrid
