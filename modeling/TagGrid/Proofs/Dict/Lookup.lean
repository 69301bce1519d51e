import Mathlib.Data.List.Nodup
import TagGrid.Proofs.Grid.Equality

/-! # What dictionaries hold

A dictionary is what it answers for each name: the entries behind the answers, and so the
whole dictionary, can be got back from them.
-/

namespace TagGrid

variable {name : String} {value : Value}

/-- The value of the entry of a name, if there is one. -/
theorem find?_entry_eq_some_iff {α : Type} {entries : List (TagName × α)} {value : α}
    (h : (entries.map Prod.fst).Nodup) :
    (entries.find? fun e => e.1.text == name).map Prod.snd = some value ↔
      ∃ n : TagName, n.text = name ∧ (n, value) ∈ entries := by
  constructor
  · intro hfound
    obtain ⟨⟨n, v⟩, hfind, rfl⟩ := Option.map_eq_some_iff.1 hfound
    have hname := List.find?_some hfind
    exact ⟨n, eq_of_beq hname, List.mem_of_find?_eq_some hfind⟩
  · rintro ⟨n, rfl, hmem⟩
    have htexts : (entries.map fun e => e.1.text).Nodup := by
      simpa [Function.comp_def] using h.map TagName.text_injective
    have hfind := find?_of_mem htexts hmem
    rw [hfind]
    rfl

/-- Without the entries of one name, the values of the others stay. -/
theorem find?_filter_name (entries : List (TagName × Value)) (key : String) :
    ((entries.filter fun e => e.1.text != name).find? fun e => e.1.text == key).map Prod.snd =
      if name = key then none else (entries.find? fun e => e.1.text == key).map Prod.snd := by
  rw [List.find?_filter]
  by_cases hkey : name = key
  · subst hkey
    rw [if_pos rfl, List.find?_eq_none.2]
    · rfl
    · simp
  · rw [if_neg hkey]
    have hsame : (fun e : TagName × Value =>
        decide ((e.1.text != name) = true ∧ (e.1.text == key) = true)) =
        fun e => e.1.text == key := by
      funext e
      by_cases he : e.1.text = key
      · simp [he, Ne.symm hkey]
      · simp [he]
    rw [hsame]

namespace Dict

variable {a b d : Dict}

theorem get?_eq_some_iff :
    d.get? name = some value ↔ ∃ n : TagName, n.text = name ∧ (n, value) ∈ d.entries :=
  find?_entry_eq_some_iff d.nodup_names

theorem mem_entries_iff {e : TagName × Value} : e ∈ d.entries ↔ d.get? e.1.text = some e.2 := by
  refine ⟨get?_of_mem, fun h => ?_⟩
  obtain ⟨n, hn, hmem⟩ := get?_eq_some_iff.1 h
  rwa [TagName.text_injective hn] at hmem

theorem find?_insertEntry (n : TagName) (value : Value) (entries : List (TagName × Value)) :
    ((insertEntry n value entries).find? fun e => e.1.text == name).map Prod.snd =
      if n.text = name then some value
      else (entries.find? fun e => e.1.text == name).map Prod.snd := by
  fun_induction insertEntry n value entries with
  | case1 =>
    by_cases hn : n.text = name
    · simp [hn]
    · simp [hn]
  | case2 m v rest hlt =>
    by_cases hn : n.text = name
    · simp [hn]
    · simp [hn]
  | case3 m v rest hnot hlt ih =>
    by_cases hm : m.text = name
    · have hn : n.text ≠ name := by
        intro hn
        rw [hm, hn] at hlt
        exact String.lt_irrefl _ hlt
      simp [hm, hn]
    · simpa [hm] using ih
  | case4 m v rest hnot hnot' =>
    have hname : n.text = m.text := String.le_antisymm (String.not_lt.1 hnot') (String.not_lt.1 hnot)
    by_cases hn : n.text = name
    · simp [hn]
    · simp [hn, ← hname]

theorem get?_set (n : TagName) (value : Value) :
    (d.set n value).get? name = if n.text = name then some value else d.get? name :=
  find?_insertEntry n value d.entries

/-- Two dictionaries with the same answers are the same. -/
theorem ext_get? (h : ∀ name, a.get? name = b.get? name) : a = b := by
  have hmem : ∀ e, e ∈ a.entries ↔ e ∈ b.entries := by
    intro e
    rw [mem_entries_iff, mem_entries_iff, h]
  have hperm : a.entries.Perm b.entries :=
    (List.perm_ext_iff_of_nodup a.nodup_names.of_map b.nodup_names.of_map).2 hmem
  have hentries : a.entries = b.entries := by
    apply hperm.eq_of_pairwise _ a.sorted b.sorted
    intro e f _ _ hef hfe
    exact absurd hfe (String.lt_asymm hef)
  cases a
  cases b
  cases hentries
  rfl

end Dict

end TagGrid
