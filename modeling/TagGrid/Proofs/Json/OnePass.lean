import TagGrid.Json.Stream
import TagGrid.Proofs.Json.Reserved
import TagGrid.Proofs.Json.Serialize

/-! # One pass and by way of a tree

Reading a value or a dictionary straight from JSON text gives what the tree of the text
gives. Which fault is reported may differ: a tree is made of the whole text before
anything in it is refused.
-/

namespace TagGrid.Json

/-- How a reading in one pass compares with a reading of a tree from the same place: it
gives what is accepted of the tree and leaves the same text. -/
inductive Through {α β : Type} (accept : α → Except ReadFault β) : Read α → Read β → Prop where
  | accepted {a : α} {b : β} {rest : List Char} (h : accept a = .ok b) :
      Through accept (.ok (a, rest)) (.ok (b, rest))
  | refused {a : α} {rest : List Char} {fault fault' : ReadFault} (h : accept a = .error fault) :
      Through accept (.ok (a, rest)) (.error fault')
  | unread {fault fault' : ReadFault} : Through accept (.error fault) (.error fault')

namespace Through

variable {α β : Type} {accept : α → Except ReadFault β} {tree : Read α} {direct : Read β}

theorem ok_iff (h : Through accept tree direct) {b : β} {rest : List Char} :
    direct = .ok (b, rest) ↔ ∃ a, tree = .ok (a, rest) ∧ accept a = .ok b := by
  cases h with
  | accepted h =>
    constructor
    · intro heq
      cases heq
      exact ⟨_, rfl, h⟩
    · rintro ⟨a, heq, ha⟩
      cases heq
      rw [h] at ha
      cases ha
      rfl
  | refused h =>
    constructor
    · intro heq
      cases heq
    · rintro ⟨a, heq, ha⟩
      cases heq
      rw [h] at ha
      cases ha
  | unread =>
    constructor
    · intro heq
      cases heq
    · rintro ⟨a, heq, -⟩
      cases heq

theorem map {γ : Type} (f : β → γ) (h : Through accept tree direct) :
    Through (fun a => (accept a).map f) tree (direct.map fun (b, rest) => (f b, rest)) := by
  cases h with
  | accepted h => exact accepted (by rw [h]; rfl)
  | refused h => exact refused (by rw [h]; rfl)
  | unread => exact unread

/-- A reading that fails compares with every tree that is refused. -/
theorem of_error {fault : ReadFault}
    (h : ∀ a rest, tree = .ok (a, rest) → ∃ fault, accept a = .error fault) :
    Through accept tree (.error fault) := by
  cases htree : tree with
  | error fault => exact unread
  | ok result =>
    obtain ⟨fault, haccept⟩ := h result.1 result.2 htree
    exact refused haccept

end Through

section Scalars

theorem through_readJsonScalar (start : List Char) :
    Through acceptValue ((readJsonScalar start).map fun (scalar, rest) => (ofScalar scalar, rest))
      (match readJsonScalar start with
       | .error fault => .error fault
       | .ok (scalar, rest) => (acceptScalar scalar).map fun v => (v, rest)) := by
  cases readJsonScalar start with
  | error fault => exact .unread
  | ok result =>
    obtain ⟨scalar, rest⟩ := result
    have hscalar : acceptValue (ofScalar scalar) = acceptScalar scalar := by
      cases scalar <;> rfl
    show Through acceptValue (.ok (ofScalar scalar, rest)) ((acceptScalar scalar).map fun v => (v, rest))
    cases haccept : acceptScalar scalar with
    | error fault => exact .refused (hscalar.trans haccept)
    | ok v => exact .accepted (hscalar.trans haccept)

end Scalars

section Arrays

variable {item : List Char → Read Value} {treeItem : List Char → Read Json}

theorem acceptItems_cons {tree : Json} {v : Value} (h : acceptValue tree = .ok v)
    (trees : List Json) : acceptItems (tree :: trees) = (acceptItems trees).map (v :: ·) := by
  rw [acceptItems, h]

theorem acceptItems_refused {tree : Json} {fault : ReadFault}
    (h : acceptValue tree = .error fault) (trees : List Json) :
    acceptItems (tree :: trees) = .error fault := by
  rw [acceptItems, h]

theorem through_readItems (h : ∀ cs, Through acceptValue (treeItem cs) (item cs))
    (cs : List Char) : Through acceptItems (readItems treeItem cs) (readItems item cs) := by
  induction hn : cs.length using Nat.strongRecOn generalizing cs with
  | ind n ih =>
    rw [readItems.eq_def treeItem, readItems.eq_def item]
    have hfirst := h cs
    generalize treeItem cs = tree, item cs = direct at hfirst
    cases hfirst with
    | unread => exact .unread
    | refused hrefused =>
      refine .of_error fun trees rest htrees => ?_
      simp only at htrees
      split at htrees
      · cases htrees
        exact ⟨_, acceptItems_refused hrefused []⟩
      · split at htrees
        · split at htrees
          · cases htrees
            exact ⟨_, acceptItems_refused hrefused _⟩
          · cases htrees
        · cases htrees
      · cases htrees
    | accepted haccepted =>
      simp only
      split
      · exact .accepted (acceptItems_cons haccepted [])
      · rename_i rest _
        split
        · rename_i hshorter
          have hrest := ih rest.length (hn ▸ hshorter) rest rfl
          generalize readItems treeItem rest = trees, readItems item rest = vs at hrest
          cases hrest with
          | unread => exact .unread
          | refused hrefused =>
            exact .refused (by rw [acceptItems_cons haccepted, hrefused]; rfl)
          | accepted hrest =>
            exact .accepted (by rw [acceptItems_cons haccepted, hrest]; rfl)
        · exact .unread
      · exact .unread

theorem through_readArray (h : ∀ cs, Through acceptValue (treeItem cs) (item cs))
    (cs : List Char) : Through acceptItems (readArray treeItem cs) (readArray item cs) := by
  unfold readArray
  split
  · exact .accepted rfl
  · exact through_readItems h _

end Arrays

theorem through_readValue (depth : Nat) (cs : List Char) :
    Through acceptValue (readTree depth cs) (readValue depth cs) := by
  induction depth using Nat.strongRecOn generalizing cs with
  | ind depth ih =>
    rw [readValue.eq_def]
    fun_cases readTree depth cs with
    | case1 _ tail hstart =>
      simp only [hstart]
      exact .unread
    | case2 _ tail hstart =>
      simp only [hstart]
      exact .unread
    | case3 _ rest depth hstart =>
      simp only [hstart]
      have hitems := through_readArray (ih depth (Nat.lt_succ_self depth)) rest
      generalize readArray (readTree depth) rest = trees,
        readArray (readValue depth) rest = vs at hitems
      cases hitems with
      | unread => exact .unread
      | refused h => exact .refused (by rw [acceptValue, h]; rfl)
      | accepted h => exact .accepted (by rw [acceptValue, h]; rfl)
    | case4 _ rest depth hstart =>
      simp only [hstart]
      refine .of_error fun tree _ htree => ?_
      obtain ⟨⟨members, _⟩, -, heq⟩ := map_eq_ok htree
      cases heq
      exact ⟨_, rfl⟩
    | case5 =>
      simp only
      exact through_readJsonScalar _

/-! ## Members of an object -/

theorem readTree_scalar {depth : Nat} {cs rest : List Char} {c : Char}
    (hstart : skipJsonBlanks cs = c :: rest) (harray : c ≠ '[') (hobject : c ≠ '\x7b') :
    readTree depth cs =
      (readJsonScalar (c :: rest)).map fun (scalar, rest) => (ofScalar scalar, rest) := by
  fun_cases readTree depth cs with
  | case1 _ _ h | case3 _ _ _ h =>
    cases hstart.symm.trans h
    exact absurd rfl harray
  | case2 _ _ h | case4 _ _ _ h =>
    cases hstart.symm.trans h
    exact absurd rfl hobject
  | case5 => rw [hstart]

theorem readJsonScalar_n {rest : List Char} (h : ∀ after, rest ≠ 'u' :: 'l' :: 'l' :: after) :
    readJsonScalar ('n' :: rest) = .error .malformed := by
  unfold readJsonScalar
  split
  · rename_i after heq
    cases heq
    exact absurd rfl (h after)
  · rename_i heq
    cases heq
  · rename_i heq
    cases heq
  · rename_i heq
    cases heq
  · rfl

theorem head?_of_scalar_null {start rest : List Char}
    (h : readJsonScalar start = .ok (.null, rest)) : start.head? = some 'n' := by
  unfold readJsonScalar at h
  split at h
  · rfl
  · cases h
  · cases h
  · obtain ⟨_, -, heq⟩ := map_eq_ok h
    cases heq
  · obtain ⟨_, -, heq⟩ := map_eq_ok h
    cases heq

theorem head?_of_null {depth : Nat} {cs rest : List Char}
    (h : readTree depth cs = .ok (null, rest)) : (skipJsonBlanks cs).head? = some 'n' := by
  revert h
  fun_cases readTree depth cs with
  | case1 | case2 =>
    intro h
    cases h
  | case3 | case4 =>
    intro h
    obtain ⟨_, -, heq⟩ := map_eq_ok h
    cases heq
  | case5 =>
    intro h
    obtain ⟨⟨scalar, rest⟩, hscalar, heq⟩ := map_eq_ok h
    cases scalar <;> cases heq
    exact head?_of_scalar_null hscalar

theorem readValue_skip (depth : Nat) (cs : List Char) :
    readValue depth (skipJsonBlanks cs) = readValue depth cs := by
  have hskip : skipJsonBlanks (skipJsonBlanks cs) = skipJsonBlanks cs :=
    (Text.Stops.dropWhile isJsonBlank cs).dropWhile_eq
  rw [readValue.eq_def, readValue.eq_def]
  simp only [hskip]

/-- A member that is `null` is absent in one pass because its text starts like no other. -/
theorem through_readOptionalValue (depth : Nat) (cs : List Char) :
    Through acceptOptionalValue (readTree depth cs) (readOptionalValue depth cs) := by
  unfold readOptionalValue
  split
  · rename_i rest hstart
    rw [readTree_scalar hstart (by decide) (by decide)]
    split
    · exact .accepted rfl
    · rename_i hword
      rw [readJsonScalar_n fun after heq => hword after heq]
      exact .unread
  · rename_i hother
    rw [readValue_skip]
    have hvalue := through_readValue depth cs
    have hsome : ∀ tree rest, readTree depth cs = .ok (tree, rest) →
        acceptOptionalValue tree = (acceptValue tree).map some := by
      intro tree rest htree
      cases tree with
      | null =>
        obtain ⟨tail, hstart⟩ := List.head?_eq_some_iff.1 (head?_of_null htree)
        exact absurd hstart (hother tail)
      | bool | number | str | array | object => rfl
    generalize readTree depth cs = tree, readValue depth cs = v at hvalue hsome
    cases hvalue with
    | unread => exact .unread
    | refused h => exact .refused (by rw [hsome _ _ rfl, h]; rfl)
    | accepted h => exact .accepted (by rw [hsome _ _ rfl, h]; rfl)

section Members

variable {α σ : Type} {item : List Char → Read α} {step : σ → String × α → Except ReadFault σ}
  {member : σ → String → List Char → Read σ}

/-- Notes a member after those before it. -/
def noteMember (item : List Char → Read α) (before : List (String × α)) (name : String)
    (cs : List Char) : Read (List (String × α)) :=
  (item cs).map fun (a, rest) => (before ++ [(name, a)], rest)

theorem noteMember_error {fault : ReadFault} {cs : List Char} (h : item cs = .error fault)
    (before : List (String × α)) (name : String) :
    noteMember item before name cs = .error fault := by
  rw [noteMember, h]
  rfl

theorem noteMember_ok {a : α} {cs rest : List Char} (h : item cs = .ok (a, rest))
    (before : List (String × α)) (name : String) :
    noteMember item before name cs = .ok (before ++ [(name, a)], rest) := by
  rw [noteMember, h]
  rfl

theorem readMembers_noteMember (before : List (String × α)) (cs : List Char) :
    readMembers (noteMember item) before cs =
      (readMembers (noteMember item) [] cs).map fun (ms, rest) => (before ++ ms, rest) := by
  induction hn : cs.length using Nat.strongRecOn generalizing before cs with
  | ind n ih =>
    rw [readMembers.eq_def _ before, readMembers.eq_def _ []]
    split
    · rfl
    · rename_i name rest _
      cases hitem : item rest with
      | error fault =>
        simp only [noteMember_error hitem]
        rfl
      | ok result =>
        obtain ⟨a, rest⟩ := result
        simp only [noteMember_ok hitem, List.nil_append]
        split
        · rfl
        · rename_i rest _
          split
          · rename_i hshorter
            have hrest := fun ms => ih rest.length (hn ▸ hshorter) ms rest rfl
            rw [hrest (before ++ [(name, a)]), hrest [(name, a)]]
            cases readMembers (noteMember item) [] rest with
            | error fault => rfl
            | ok result => simp [Except.map]
          · rfl
        · rfl

theorem foldlM_refused {s : σ} {m : String × α} {fault : ReadFault} (h : step s m = .error fault)
    (ms : List (String × α)) : (m :: ms).foldlM step s = .error fault := by
  rw [List.foldlM_cons, h]
  rfl

theorem foldlM_accepted {s s' : σ} {m : String × α} (h : step s m = .ok s')
    (ms : List (String × α)) : (m :: ms).foldlM step s = ms.foldlM step s' := by
  rw [List.foldlM_cons, h]
  rfl

theorem through_readMembers
    (h : ∀ s name cs, Through (fun a => step s (name, a)) (item cs) (member s name cs))
    (s : σ) (cs : List Char) :
    Through (fun ms => ms.foldlM step s) (readMembers (noteMember item) [] cs)
      (readMembers member s cs) := by
  induction hn : cs.length using Nat.strongRecOn generalizing s cs with
  | ind n ih =>
    rw [readMembers.eq_def (noteMember item), readMembers.eq_def member]
    split
    · exact .unread
    · rename_i name rest _
      have hmember := h s name rest
      generalize hitem : item rest = a, member s name rest = s' at hmember
      cases hmember with
      | unread =>
        rw [noteMember_error hitem]
        exact .unread
      | refused hrefused =>
        refine .of_error fun ms rest hms => ?_
        simp only [noteMember_ok hitem, List.nil_append] at hms
        split at hms
        · cases hms
          exact ⟨_, foldlM_refused hrefused []⟩
        · split at hms
          · rw [readMembers_noteMember] at hms
            obtain ⟨_, -, heq⟩ := map_eq_ok hms
            cases heq
            exact ⟨_, foldlM_refused hrefused _⟩
          · cases hms
        · cases hms
      | @accepted a s' rest haccepted =>
        simp only [noteMember_ok hitem, List.nil_append]
        split
        · exact .accepted (foldlM_accepted haccepted [])
        · rename_i rest _
          split
          · rename_i hshorter
            have hrest := ih rest.length (hn ▸ hshorter) s' rest rfl
            rw [readMembers_noteMember]
            generalize readMembers (noteMember item) [] rest = ms,
              readMembers member s' rest = final at hrest
            cases hrest with
            | unread => exact .unread
            | refused hrefused => exact .refused ((foldlM_accepted haccepted _).trans hrefused)
            | accepted hrest => exact .accepted ((foldlM_accepted haccepted _).trans hrest)
          · exact .unread
        · exact .unread

theorem through_readObject
    (h : ∀ s name cs, Through (fun a => step s (name, a)) (item cs) (member s name cs))
    (s : σ) (cs : List Char) :
    Through (fun ms => ms.foldlM step s) (readObject (noteMember item) [] cs)
      (readObject member s cs) := by
  unfold readObject
  split
  · exact .accepted rfl
  · exact through_readMembers h s _

end Members

/-- Reads the members of the object that a text starts with, each as often as it comes. -/
def readMemberList (cs : List Char) : Read (List (String × Json)) :=
  match skipJsonBlanks cs with
  | '\x7b' :: rest => readObject (noteMember (readTree (depthLimit - 1))) [] rest
  | _ => .error .malformed

/-- No name comes twice in the object that the text starts with, if it starts with one. -/
def RepeatsNoMember (text : String) : Prop :=
  ∀ r ∈ (readMemberList text.toList).toOption, (r.1.map Prod.fst).Nodup

instance (text : String) : Decidable (RepeatsNoMember text) :=
  inferInstanceAs (Decidable (∀ r ∈ (readMemberList text.toList).toOption, _))

theorem through_acceptTag (d : Dict) (name : String) (cs : List Char) :
    Through (fun tree => acceptMember d (name, tree)) (readTree (depthLimit - 1) cs)
      (match readOptionalValue (depthLimit - 1) cs with
       | .error fault => .error fault
       | .ok (value, rest) => (acceptTag d name value).map fun d => (d, rest)) := by
  have hvalue := through_readOptionalValue (depthLimit - 1) cs
  generalize readTree (depthLimit - 1) cs = tree,
    readOptionalValue (depthLimit - 1) cs = value at hvalue
  cases hvalue with
  | unread => exact .unread
  | refused h => exact .refused (by rw [acceptMember, h])
  | @accepted tree value rest h =>
    have hmember : acceptMember d (name, tree) = acceptTag d name value := by
      rw [acceptMember, h]
    simp only
    cases htag : acceptTag d name value with
    | error fault => exact .refused (hmember.trans htag)
    | ok d => exact .accepted (hmember.trans htag)

theorem through_members {cs rest : List Char} (hstart : skipJsonBlanks cs = '\x7b' :: rest) :
    Through (fun ms => ms.foldlM acceptMember Dict.empty) (readMemberList cs) (readDict cs) := by
  unfold readMemberList readDict
  rw [hstart]
  exact through_readObject through_acceptTag _ _

theorem readTree_object {depth : Nat} {cs rest : List Char}
    (hstart : skipJsonBlanks cs = '\x7b' :: rest) :
    readTree (depth + 1) cs =
      (readObject
        (fun members name cs =>
          (readTree depth cs).map fun (value, rest) => (setMember members name value, rest))
        [] rest).map fun (members, rest) => (object members, rest) := by
  rw [readTree.eq_def]
  simp only [hstart]

/-- The step of a tree, which refuses no member. -/
def placeMember (members : List (String × Json)) (m : String × Json) :
    Except ReadFault (List (String × Json)) :=
  .ok (setMember members m.1 m.2)

theorem foldlM_placeMember (ms : List (String × Json)) :
    ms.foldlM placeMember [] = .ok (setMembers [] ms) :=
  List.foldlM_pure

theorem through_placeMember (depth : Nat) (members : List (String × Json)) (name : String)
    (cs : List Char) :
    Through (fun tree => placeMember members (name, tree)) (readTree depth cs)
      ((readTree depth cs).map fun (value, rest) => (setMember members name value, rest)) := by
  cases readTree depth cs with
  | error fault => exact .unread
  | ok result => exact .accepted rfl

theorem through_object (depth : Nat) {cs rest : List Char}
    (hstart : skipJsonBlanks cs = '\x7b' :: rest) :
    Through (fun ms => .ok (object (setMembers [] ms)))
      (readObject (noteMember (readTree depth)) [] rest) (readTree (depth + 1) cs) := by
  have hobject := (through_readObject (through_placeMember depth) [] rest).map object
  simp only [foldlM_placeMember] at hobject
  rw [readTree_object hstart]
  exact hobject

theorem through_tree {cs rest : List Char} (hstart : skipJsonBlanks cs = '\x7b' :: rest) :
    Through (fun ms => .ok (object (setMembers [] ms))) (readMemberList cs)
      (readTree depthLimit cs) := by
  unfold readMemberList
  rw [hstart]
  exact through_object (depthLimit - 1) hstart

theorem readDict_mismatch {cs : List Char} (h : ∀ rest, skipJsonBlanks cs ≠ '\x7b' :: rest) :
    ∃ fault, readDict cs = .error fault := by
  unfold readDict
  split
  · exact absurd ‹_› (h _)
  · exact ⟨_, rfl⟩
  · split
    · exact ⟨_, rfl⟩
    · exact ⟨_, rfl⟩

theorem acceptDict_mismatch {cs rest : List Char} {depth : Nat} {tree : Json}
    (h : ∀ rest, skipJsonBlanks cs ≠ '\x7b' :: rest) (htree : readTree depth cs = .ok (tree, rest)) :
    ∃ fault, acceptDict tree = .error fault := by
  revert htree
  fun_cases readTree depth cs with
  | case1 | case2 =>
    intro htree
    cases htree
  | case3 =>
    intro htree
    obtain ⟨_, -, heq⟩ := map_eq_ok htree
    cases heq
    exact ⟨_, rfl⟩
  | case4 _ _ _ hstart => exact absurd hstart (h _)
  | case5 =>
    intro htree
    obtain ⟨⟨scalar, _⟩, -, heq⟩ := map_eq_ok htree
    cases heq
    cases scalar <;> exact ⟨_, rfl⟩

/-- Without repeated names a dictionary is read in one pass as its tree is accepted. -/
theorem through_readDict {text : String} (hdistinct : RepeatsNoMember text) :
    Through acceptDict (readTree depthLimit text.toList) (readDict text.toList) := by
  unfold RepeatsNoMember at hdistinct
  generalize text.toList = cs at hdistinct
  by_cases hobject : ∃ rest, skipJsonBlanks cs = '\x7b' :: rest
  · obtain ⟨rest, hstart⟩ := hobject
    have hdict := through_members hstart
    have htree := through_tree hstart
    generalize readMemberList cs = members, readDict cs = d, readTree depthLimit cs = tree
      at hdistinct hdict htree
    cases htree with
    | unread =>
      cases hdict
      exact .unread
    | refused h => cases h
    | @accepted members tree rest h =>
      have hkept : setMembers [] members = members := setMembers_distinct (hdistinct _ rfl)
      rw [hkept] at h
      cases h
      cases hdict with
      | refused h => exact .refused h
      | accepted h => exact .accepted h
  · have hstart := not_exists.1 hobject
    obtain ⟨fault, hfault⟩ := readDict_mismatch hstart
    rw [hfault]
    exact .of_error fun tree rest htree => acceptDict_mismatch hstart htree

/-! ## Trees are accepted as they are decoded -/

section Faults

variable {α σ ε ε' : Type}

theorem ok_iff_toOption {r : Except ε α} {a : α} : r = .ok a ↔ r.toOption = some a := by
  cases r with
  | error e => exact ⟨nofun, nofun⟩
  | ok b => exact ⟨fun h => congrArg Except.toOption h, fun h => congrArg Except.ok (Option.some.inj h)⟩

theorem toOption_mapError {f : ε → ε'} (r : Except ε α) :
    (r.mapError f).toOption = r.toOption := by
  cases r <;> rfl

/-- Loops whose steps succeed alike succeed alike. -/
theorem foldlM_toOption {step : σ → α → Except ε σ} {step' : σ → α → Except ε' σ}
    (h : ∀ s a, (step s a).toOption = (step' s a).toOption) (s : σ) (xs : List α) :
    (xs.foldlM step s).toOption = (xs.foldlM step' s).toOption := by
  induction xs generalizing s with
  | nil => rfl
  | cons a xs ih =>
    rw [List.foldlM_cons, List.foldlM_cons]
    have ha := h s a
    generalize step s a = r, step' s a = r' at ha
    cases r with
    | error e =>
      cases r' with
      | error e' => rfl
      | ok s' => cases ha
    | ok s' =>
      cases ok_iff_toOption.2 ha.symm
      exact ih s'

end Faults

mutual

theorem acceptValue_toOption (tree : Json) :
    (acceptValue tree).toOption = (decodeValue tree).toOption.join := by
  cases tree with
  | null | bool | number | object => rfl
  | str s =>
    rw [acceptValue, decodeValue, acceptScalar]
    cases decodeStr s <;> rfl
  | array items =>
    have hitems := acceptItems_toOption items
    rw [acceptValue, decodeValue]
    generalize acceptItems items = r, decodeItems items = r' at hitems
    cases r <;> cases r' <;> cases hitems <;> rfl
termination_by sizeOf tree

theorem acceptItems_toOption (trees : List Json) :
    (acceptItems trees).toOption = (decodeItems trees).toOption := by
  cases trees with
  | nil => rfl
  | cons tree trees =>
    have hfirst := acceptValue_toOption tree
    have hrest := acceptItems_toOption trees
    rw [acceptItems, decodeItems]
    generalize acceptItems trees = r, decodeItems trees = r' at hrest
    generalize acceptValue tree = v, decodeValue tree = v' at hfirst
    cases v with
    | error fault =>
      cases v' with
      | error fault' => rfl
      | ok v' =>
        cases v' with
        | none => rfl
        | some v' => cases hfirst
    | ok v =>
      cases v' with
      | error fault' => cases hfirst
      | ok v' =>
        cases v' with
        | none => cases hfirst
        | some v' =>
          cases hfirst
          cases r <;> cases r' <;> cases hrest <;> rfl
termination_by sizeOf trees

end

theorem acceptOptionalValue_toOption (tree : Json) :
    (acceptOptionalValue tree).toOption = (decodeValue tree).toOption := by
  cases tree with
  | null | bool | number | object => rfl
  | str s =>
    rw [acceptOptionalValue, acceptValue, decodeValue, acceptScalar]
    · cases decodeStr s <;> rfl
    · nofun
  | array items =>
    have hitems := acceptItems_toOption items
    rw [acceptOptionalValue, acceptValue, decodeValue]
    · generalize acceptItems items = r, decodeItems items = r' at hitems
      cases r <;> cases r' <;> cases hitems <;> rfl
    · nofun

theorem acceptMember_toOption (d : Dict) (m : String × Json) :
    (acceptMember d m).toOption = (decodeTag none d m).toOption := by
  have hvalue := acceptOptionalValue_toOption m.2
  have hkept : none ≠ some m.1 := nofun
  unfold acceptMember decodeTag
  rw [if_neg hkept]
  generalize acceptOptionalValue m.2 = r, decodeValue m.2 = r' at hvalue
  cases r with
  | error fault =>
    cases r' with
    | error fault' => rfl
    | ok value => cases hvalue
  | ok value =>
    cases ok_iff_toOption.2 hvalue.symm
    simp only [acceptTag, checked, toOption_mapError]

theorem acceptDict_toOption (tree : Json) :
    (acceptDict tree).toOption = (decodeDict tree).toOption := by
  cases tree with
  | null | bool | number | str | array => rfl
  | object members => exact foldlM_toOption acceptMember_toOption .empty members

theorem acceptValue_ok_iff {tree : Json} {v : Value} :
    acceptValue tree = .ok v ↔ tree.toValue? = .ok (some v) := by
  rw [ok_iff_toOption, ok_iff_toOption, acceptValue_toOption, toValue?, toOption_mapError,
    Option.join_eq_some_iff]

theorem acceptDict_ok_iff {tree : Json} {d : Dict} :
    acceptDict tree = .ok d ↔ tree.toDict? = .ok d := by
  rw [ok_iff_toOption, ok_iff_toOption, acceptDict_toOption, toDict?, toOption_mapError]

/-! ## Whole texts -/

theorem readToEnd_ok_iff {α : Type} {r : Read α} {a : α} :
    readToEnd r = .ok a ↔ ∃ rest, r = .ok (a, rest) ∧ skipJsonBlanks rest = [] := by
  cases r with
  | error fault => exact ⟨nofun, nofun⟩
  | ok result =>
    obtain ⟨b, rest⟩ := result
    unfold readToEnd
    constructor
    · intro h
      simp only at h
      split at h
      · cases h
        exact ⟨rest, rfl, ‹_›⟩
      · cases h
    · rintro ⟨rest', heq, hblank⟩
      cases heq
      exact if_pos hblank

theorem parse?_ok_iff {text : String} {tree : Json} :
    parse? text = .ok tree ↔ ofText? text = .ok tree := by
  unfold parse?
  cases ofText? text with
  | error fault => exact ⟨nofun, nofun⟩
  | ok tree' => exact ⟨fun h => congrArg Except.ok (Except.ok.inj h), fun h => congrArg Except.ok (Except.ok.inj h)⟩

/-- Both look for the end of the text in the same place. -/
theorem Through.readToEnd_ok_iff {α : Type} {accept : Json → Except ReadFault α} {text : String}
    {direct : Read α} (h : Through accept (readTree depthLimit text.toList) direct) {a : α} :
    readToEnd direct = .ok a ↔ ∃ tree, parse? text = .ok tree ∧ accept tree = .ok a := by
  simp only [parse?_ok_iff, ofText?, Json.readToEnd_ok_iff, h.ok_iff]
  constructor
  · rintro ⟨rest, ⟨tree, htree, haccept⟩, hblank⟩
    exact ⟨tree, ⟨rest, htree, hblank⟩, haccept⟩
  · rintro ⟨tree, ⟨rest, htree, hblank⟩, haccept⟩
    exact ⟨rest, ⟨tree, htree, haccept⟩, hblank⟩

/-- A value is read from text in one pass exactly if its tree stands for it. -/
theorem valueOfText?_ok_iff {text : String} {v : Value} :
    valueOfText? text = .ok v ↔
      ∃ tree, parse? text = .ok tree ∧ tree.toValue? = .ok (some v) := by
  unfold valueOfText?
  rw [(through_readValue depthLimit text.toList).readToEnd_ok_iff]
  simp only [acceptValue_ok_iff]

/-- The same for a dictionary, if no name is repeated. -/
theorem dictOfText?_ok_iff {text : String} (hdistinct : RepeatsNoMember text) {d : Dict} :
    dictOfText? text = .ok d ↔ ∃ tree, parse? text = .ok tree ∧ tree.toDict? = .ok d := by
  unfold dictOfText?
  rw [(through_readDict hdistinct).readToEnd_ok_iff]
  simp only [acceptDict_ok_iff]

/-- Serializing gives the trees of the encoding and their texts, and each of the three
ways back succeeds exactly when the other ones do, with the same data. -/
theorem serialized_as_encoded :
    (∀ v : Value, v.serialize treeSerializer = v.toJson ∧ v.toJsonText = v.toJson.compact) ∧
    (∀ d : Dict, d.serialize treeSerializer = d.toJson ∧ d.toJsonText = d.toJson.compact) ∧
    (∀ tree v, acceptValue tree = .ok v ↔ tree.toValue? = .ok (some v)) ∧
    (∀ tree d, acceptDict tree = .ok d ↔ tree.toDict? = .ok d) ∧
    ∀ text d, RepeatsNoMember text →
      (dictOfText? text = .ok d ↔ ∃ tree, parse? text = .ok tree ∧ tree.toDict? = .ok d) :=
  ⟨fun v => ⟨v.serialize_tree, v.toJsonText_eq⟩, fun d => ⟨d.serialize_tree, d.toJsonText_eq⟩,
    fun _ _ => acceptValue_ok_iff, fun _ _ => acceptDict_ok_iff,
    fun _ _ hdistinct => dictOfText?_ok_iff hdistinct⟩

/-- An absent member of a name that no tag has, a list and a number. -/
def sampleObject : String := "\x7b\"no tag\":null,\"a\":[true,\"m:\"],\"b\":2\x7d"

theorem sampleObject_read_alike :
    RepeatsNoMember sampleObject ∧
      ∃ d tree, d.toJsonText = "\x7b\"a\":[true,\"m:\"],\"b\":\"n:2\"\x7d" ∧
        dictOfText? sampleObject = .ok d ∧ parse? sampleObject = .ok tree ∧
        tree.toDict? = .ok d := by
  have hdistinct : RepeatsNoMember sampleObject := by decide +kernel
  have hread : (dictOfText? sampleObject).toOption.map Dict.toJsonText =
      some "\x7b\"a\":[true,\"m:\"],\"b\":\"n:2\"\x7d" := by
    decide +kernel
  obtain ⟨d, hd, htext⟩ := Option.map_eq_some_iff.1 hread
  have hd := ok_iff_toOption.2 hd
  obtain ⟨tree, htree, hdict⟩ := (serialized_as_encoded.2.2.2.2 _ _ hdistinct).1 hd
  exact ⟨hdistinct, d, tree, htext, hd, htree, hdict⟩

/-- A tag that is repeated as absent is kept in one pass and lost by way of a tree. -/
example :
    let text := "\x7b\"a\":true,\"a\":null\x7d"
    (dictOfText? text).toOption.map Dict.size = some 1 ∧
      ((parse? text).toOption.bind fun tree => tree.toDict?.toOption).map Dict.size = some 0 := by
  decide +kernel

end TagGrid.Json
