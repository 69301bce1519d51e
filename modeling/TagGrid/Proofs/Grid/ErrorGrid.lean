import TagGrid.Grid.Draft
import TagGrid.Proofs.Grid.Filled
import TagGrid.Proofs.Json.Grids
import TagGrid.Proofs.Zinc.Version2

/-! # Errors that are sent as grids

An error grid holds nothing but markers and strings, which every format gives back as they
are. So the text and the trace of an error arrive whatever characters they are made of.
-/

namespace TagGrid

/-! ## Grids of markers and strings -/

namespace Value

variable {v : Value}

/-- Whether a value is a marker or a string. -/
def isPlain : Value → Bool
  | marker | str _ => true
  | _ => false

theorem hasText_of_isPlain (version : Zinc.Version) (h : v.isPlain = true) :
    Zinc.hasText version v = true := by
  cases v with
  | marker | str => cases version <;> rfl
  | _ => cases h

theorem readsBack_of_isPlain (version : Zinc.Version) (h : v.isPlain = true) :
    Zinc.ReadsBack (Zinc.textIn version v) v := by
  cases v with
  | marker => cases version <;> exact Zinc.readsBack_marker
  | str s => cases version <;> exact Zinc.readsBack_str s
  | _ => cases h

theorem yearsFit_of_isPlain (h : v.isPlain = true) : v.yearsFit = true := by
  cases v with
  | marker | str => rfl
  | _ => cases h

end Value

namespace Grid

variable {g : Grid}

theorem everyValue_mono {p q : Value → Bool} (h : g.everyValue p = true)
    (hpq : ∀ v, p v = true → q v = true) : g.everyValue q = true := by
  obtain ⟨htags, hcolumns, hcells⟩ := everyValue_iff.1 h
  refine everyValue_iff.2 ⟨fun e he => hpq _ (htags e he), fun c hc e he => ?_, ?_⟩
  · exact hpq _ (hcolumns c hc e he)
  · exact fun cells hmem x hx v hv => hpq _ (hcells cells hmem x hx v hv)

/-- Both versions of the text give a plain grid back. -/
theorem exists_ofGrid?_of_isPlain (h : g.everyValue Value.isPlain = true)
    (version : Zinc.Version) :
    ∃ text, Zinc.ofGrid? version g = .ok text ∧ Zinc.toGrid? text = .ok g := by
  have htext := everyValue_mono h fun _ => Value.hasText_of_isPlain version
  obtain ⟨htags, hcolumns, hcells⟩ := everyValue_iff.1 h
  refine ⟨_, Zinc.ofGrid?_eq_ok_iff.2 ⟨htext, rfl⟩, Zinc.toGrid?_gridText ?_ ?_ ?_⟩
  · exact fun e he => Value.readsBack_of_isPlain version (htags e he)
  · exact fun c hc e he => Value.readsBack_of_isPlain version (hcolumns c hc e he)
  · intro cells hmem x hx v hv
    exact Value.readsBack_of_isPlain version (hcells cells hmem x hx v hv)

/-- The tree gives a plain grid back, if no tag takes the place of a member. -/
theorem toGrid?_toJson_of_isPlain (h : g.everyValue Value.isPlain = true)
    (hversion : g.tags.has "ver" = false)
    (hname : ∀ c ∈ g.columns, c.tags.has "name" = false) : g.toJson.toGrid? = .ok g := by
  have hyears := everyValue_mono h fun _ => Value.yearsFit_of_isPlain
  unfold Json.toGrid?
  rw [Json.decodeGrid_toJson hyears hversion hname]
  rfl

/-! ## Error grids -/

/-- The tags of an error grid. -/
def reportTags (message trace : String) : Dict :=
  ((Dict.empty.set markName .marker).set messageName (.str message)).set traceName (.str trace)

theorem run_reportCalls (message trace : String) :
    GridDraft.empty.run (reportCalls message trace) =
      GridDraft.empty.setTags (reportTags message trace) := by
  show ((((GridDraft.empty.perform (.tags (.add markName.text .marker))).2).perform _).2.perform
    _).2 = _
  rw [GridDraft.perform_tag, GridDraft.perform_tag, GridDraft.perform_tag]
  rfl

theorem report_eq (message trace : String) :
    (report message trace).tags = reportTags message trace ∧
      (report message trace).columns =
        [⟨markName, .empty⟩, ⟨messageName, .empty⟩, ⟨traceName, .empty⟩] ∧
      (report message trace).rows = [[some .marker, some (.str message), some (.str trace)]] := by
  unfold report
  rw [GridDraft.run_append, run_reportCalls]
  exact GridDraft.fill_eq _ _ rfl rfl (List.cons_ne_nil _ _) (by decide) (by simp)

theorem entries_reportTags (message trace : String) :
    (reportTags message trace).entries =
      [(messageName, .str message), (markName, .marker), (traceName, .str trace)] := rfl

theorem isPlain_report (message trace : String) :
    (report message trace).everyValue Value.isPlain = true := by
  obtain ⟨htags, hcolumns, hrows⟩ := report_eq message trace
  rw [everyValue_iff, htags, entries_reportTags, hcolumns, hrows]
  simp [Value.isPlain, Dict.empty]

theorem toResult_report (message trace : String) :
    (report message trace).toResult = .error (.call message (some trace)) := by
  obtain ⟨htags, -, -⟩ := report_eq message trace
  unfold toResult isError Dict.has Dict.get?
  rw [htags, entries_reportTags]
  rfl

theorem toResult_eq_ok_iff {g' : Grid} :
    g.toResult = .ok g' ↔ g.tags.has "err" = false ∧ g' = g := by
  unfold toResult isError
  show (if g.tags.has "err" = true then _ else _) = _ ↔ _
  cases g.tags.has "err" with
  | true => simp
  | false => simp [eq_comm]

/-- A grid tells of an error wherever it is read: behind its texts and behind its tree. -/
structure Delivers (g : Grid) (e : Error) : Prop where
  zinc : ∀ version, ∃ text g', Zinc.ofGrid? version g = .ok text ∧
    Zinc.toGrid? text = .ok g' ∧ g'.toResult = .error e
  json : ∃ g', g.toJson.toGrid? = .ok g' ∧ g'.toResult = .error e

theorem delivers_report (message trace : String) :
    (report message trace).Delivers (.call message (some trace)) where
  zinc version := by
    obtain ⟨text, htext, hread⟩ :=
      exists_ofGrid?_of_isPlain (isPlain_report message trace) version
    exact ⟨text, _, htext, hread, toResult_report message trace⟩
  json := by
    obtain ⟨htags, hcolumns, -⟩ := report_eq message trace
    refine ⟨_, toGrid?_toJson_of_isPlain (isPlain_report message trace) ?_ ?_,
      toResult_report message trace⟩
    · rw [htags]
      rfl
    · rw [hcolumns]
      simp [Dict.has, Dict.get?, Dict.empty]

/-- Errors arrive with their text and their trace, whichever characters the trace hides, as
does any text with any trace, and grids that report nothing are passed on. -/
theorem errors_survive_transport :
    (∀ hidden e, (ofError hidden e).Delivers (.call e.message (some (e.trace hidden)))) ∧
    (∀ message trace, (report message trace).Delivers (.call message (some trace))) ∧
    ∀ g g' : Grid, g.toResult = .ok g' ↔ g.tags.has "err" = false ∧ g' = g :=
  ⟨fun hidden e => delivers_report e.message (e.trace hidden), delivers_report,
    fun _ _ => toResult_eq_ok_iff⟩

/-- An accent that extends the letter before it is hidden in a trace. -/
example : (Error.unknownName "e\u0301").trace Text.isHidden =
    "UnknownName(\"e\\u\x7b301\x7d\")" := by
  decide +kernel

end Grid

end TagGrid
