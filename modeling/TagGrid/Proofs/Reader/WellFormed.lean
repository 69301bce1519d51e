import TagGrid.Proofs.Filter.ReadBack
import TagGrid.Proofs.Json.Reserved
import TagGrid.Proofs.Value.WellFormed

/-! # Everything that is read is well-formed

No reader has a way around the constructors: what it cannot get from one of them is a fault of
the text, so whatever comes of a request is well-formed to every depth.
-/

namespace TagGrid

/-- What a request brings is well-formed; an absent value is. -/
def Request.WellFormed : (q : Request) → q.Result → Prop
  | scalar => fun (value : Option Value) => ∀ v, value = some v → v.WellFormed
  | dict => Dict.WellFormed
  | grid => Grid.WellFormed
  | grids => fun (gs : List Grid) => ∀ g ∈ gs, g.WellFormed
  | filter => Filter.WellFormed

theorem Request.wellFormed (q : Request) (result : q.Result) : q.WellFormed result := by
  cases q with
  | scalar => exact fun v _ => v.wellFormed
  | dict => exact Dict.wellFormed result
  | grid => exact Grid.wellFormed result
  | grids => exact fun g _ => g.wellFormed
  | filter => exact Filter.wellFormed result

/-- Whatever text a reader is given and whatever it was asked for before, what it reads next is
well-formed, and so is what any JSON tree stands for. -/
theorem decoded_wellFormed :
    (∀ (text : String) (earlier : List Request) (q : Request) (result : q.Result),
      (((Reader.ofText text).after earlier).ask q).1 = .ok result → q.WellFormed result) ∧
    ∀ tree : Json,
      (∀ v, tree.toValue? = .ok (some v) → v.WellFormed) ∧
      (∀ d, tree.toDict? = .ok d → d.WellFormed) ∧
      ∀ g, tree.toGrid? = .ok g → g.WellFormed :=
  ⟨fun _ _ q result _ => q.wellFormed result, fun _ =>
    ⟨fun v _ => v.wellFormed, fun d _ => d.wellFormed, fun g _ => g.wellFormed⟩⟩

/-- The samples are read, and what comes of them is well-formed. -/
theorem samples_decoded_wellFormed :
    (((Reader.ofText Value.sample.toZinc).after []).ask .scalar).1 = .ok (some .sample) ∧
      Value.sample.WellFormed ∧
    (((Reader.ofText (String.ofList (Zinc.dictText .v3 Dict.sample.entries))).after []).ask
      .dict).1 = .ok Dict.sample ∧ Dict.sample.WellFormed ∧
    (((Reader.ofText (String.ofList (Zinc.gridText .v3 .sample))).after []).ask .grid).1 =
      .ok Grid.sample ∧ Grid.sample.WellFormed ∧
    (((Reader.ofText Filter.sample.toString).after []).ask .filter).1 = .ok Filter.sample ∧
      Filter.sample.WellFormed ∧
    Value.sample.toJson.toValue? = .ok (some .sample) ∧ Value.sample.WellFormed ∧
    (Json.object [("site", .str "m:")]).toDict? = .ok (Dict.empty.set ⟨"site", by decide⟩ .marker) ∧
      (Dict.empty.set ⟨"site", by decide⟩ .marker).WellFormed ∧
    Grid.sample.toJson.toGrid? = .ok .sample ∧ Grid.sample.WellFormed := by
  have hscalar : (((Reader.ofText Value.sample.toZinc).after []).ask .scalar).1 =
      .ok (some .sample) := Zinc.toValue?_toZinc (by decide)
  -- For the other requests the answer is turned into that of a whole text before the text is
  -- put in, so that nothing has to be read here.
  have hwholeDict (text : String) :
      (((Reader.ofText text).after []).ask .dict).1 = Zinc.toDict? text := rfl
  have hwholeGrid (text : String) :
      (((Reader.ofText text).after []).ask .grid).1 = Zinc.toGrid? text := rfl
  have hwholeFilter (text : String) :
      (((Reader.ofText text).after []).ask .filter).1 = Filter.parse? text := rfl
  have hdict := (hwholeDict _).trans (Zinc.toDict?_of_zincSafe (d := .sample) (by decide))
  have hgrid := (hwholeGrid _).trans (Zinc.toGrid?_of_zincSafe (g := .sample) (by decide))
  have hfilter := (hwholeFilter _).trans
    (Filter.parse?_of_readFilter (Filter.readFilter_text (f := .sample) (by decide)))
  have hjsonValue : Value.sample.toJson.toValue? = .ok (some .sample) := by
    unfold Json.toValue?
    rw [Json.decodeValue_toJson .sample (by decide)]
    rfl
  have hjsonDict : (Json.object [("site", .str "m:")]).toDict? =
      .ok (Dict.empty.set ⟨"site", by decide⟩ .marker) := rfl
  have hjsonGrid : Grid.sample.toJson.toGrid? = .ok .sample := by
    unfold Json.toGrid?
    rw [Json.decodeGrid_toJson (by decide) (by decide) Json.sample_lacks_name]
    rfl
  exact ⟨hscalar, decoded_wellFormed.1 _ [] .scalar _ hscalar .sample rfl,
    hdict, decoded_wellFormed.1 _ [] .dict _ hdict,
    hgrid, decoded_wellFormed.1 _ [] .grid _ hgrid,
    hfilter, decoded_wellFormed.1 _ [] .filter _ hfilter,
    hjsonValue, (decoded_wellFormed.2 _).1 _ hjsonValue,
    hjsonDict, (decoded_wellFormed.2 _).2.1 _ hjsonDict,
    hjsonGrid, (decoded_wellFormed.2 _).2.2 _ hjsonGrid⟩

/-! ## What is let through -/

/-- No constructor refuses more than that: each lets through exactly the parts that a
well-formed value, name or path may have. -/
theorem constructors_accept_iff :
    (∀ id dis, (∃ r, Ref.ofId? id dis = .ok r) ↔ RefText id.toList) ∧
    (∀ mime, (∃ m, MediaType.ofText? mime = .ok m) ↔ MediaText mime.toList) ∧
    (∀ name, (∃ s, Symbol.ofName? name = .ok s) ↔ SymbolText name.toList) ∧
    (∀ typeName text, (∃ t, TypedText.ofParts? typeName text = .ok t) ↔
      NameText CapitalLetter typeName.toList) ∧
    (∀ value unit, (∃ n, Number.withUnit? value unit = .ok n) ↔
      UnitText unit.toList ∧ value.isFinite = true) ∧
    (∀ year month day, (∃ d, Date.ofFields? year month day = .ok d) ↔
      CalendarDay year.toNat month day) ∧
    (∀ hour minute second millisecond,
      (∃ t, TimeOfDay.ofFields? hour minute second millisecond = .ok t) ↔
        ClockTime hour minute second millisecond) ∧
    (∀ date time zone offset, (∃ t, Timestamp.ofParts? date time zone offset = .ok t) ↔
      ClockOffset offset) ∧
    (∀ microLat microLng, (∃ c, Coord.ofMicro? microLat microLng = .ok c) ↔
      microLat.natAbs ≤ 90000000 ∧ microLng.natAbs ≤ 180000000) ∧
    (∀ text, (∃ n, TagName.ofText? text = .ok n) ↔ NameText SmallLetter text.toList) ∧
    ∀ segments, (∃ p, Path.ofSegments? segments = .ok p) ↔
      segments ≠ [] ∧ ∀ s ∈ segments, SegmentText s.toList :=
  ⟨fun _ _ => Ref.exists_ofId?_iff, fun _ => MediaType.exists_ofText?_iff,
    fun _ => Symbol.exists_ofName?_iff, fun _ _ => TypedText.exists_ofParts?_iff,
    fun _ _ => Number.exists_withUnit?_iff, fun _ _ _ => Date.exists_ofFields?_iff,
    fun _ _ _ _ => TimeOfDay.exists_ofFields?_iff, fun _ _ _ _ => Timestamp.exists_ofParts?_iff,
    fun _ _ => Coord.exists_ofMicro?_iff, fun _ => TagName.exists_ofText?_iff,
    fun _ => Path.exists_ofSegments?_iff⟩

end TagGrid
