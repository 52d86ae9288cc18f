import DocTree.Proofs.Json.Tokens

/-!
# Scanning and the grammar

The scanners find what the grammar derives and nothing else: a text spells a tree just when
it is scanned as this tree, nothing is left of it and nothing in the tree is broken. The
fuel of a scanner is three units for each character that it takes.
-/
namespace DocTree.Json

variable {cs rest : List Char}

mutual

theorem Spelled.length_lt : ∀ {j : Json} {cs rest : List Char}, j.Spelled cs rest →
    rest.length < cs.length
  | _, _, _, .space _ h => Nat.lt_succ_of_lt h.length_lt
  | _, _, _, .null | _, _, _, .yes | _, _, _, .no => by
      simp only [List.length_cons]
      omega
  | _, _, _, .number h => Numeral.Spelled.length_lt h
  | _, _, _, .text h => Nat.lt_succ_of_lt (Literal.Spelled.length_lt h)
  | _, _, _, .emptyList h | _, _, _, .emptyObject h => by
      have spaces := h.length_le
      simp only [List.length_cons] at spaces ⊢
      omega
  | _, _, _, .list h => Nat.lt_succ_of_lt h.length_lt
  | _, _, _, .object h => Nat.lt_succ_of_lt h.length_lt

theorem ItemsSpelled.length_lt : ∀ {js : List Json} {cs rest : List Char},
    ItemsSpelled js cs rest → rest.length < cs.length
  | _, _, _, .last h spaces => by
      have item := h.length_lt
      have behind := spaces.length_le
      simp only [List.length_cons] at behind
      omega
  | _, _, _, .cons h spaces others => by
      have item := h.length_lt
      have behind := spaces.length_le
      have rest := others.length_lt
      simp only [List.length_cons] at behind
      omega

theorem MembersSpelled.length_lt : ∀ {ms : List Member} {cs rest : List Char},
    MembersSpelled ms cs rest → rest.length < cs.length
  | _, _, _, .last h spaces => by
      have member := h.length_lt
      have behind := spaces.length_le
      simp only [List.length_cons] at behind
      omega
  | _, _, _, .cons h spaces others => by
      have member := h.length_lt
      have behind := spaces.length_le
      have rest := others.length_lt
      simp only [List.length_cons] at behind
      omega

theorem MemberSpelled.length_lt : ∀ {m : Member} {cs rest : List Char}, MemberSpelled m cs rest →
    rest.length < cs.length
  | _, _, _, .intro opening key colon value => by
      have opened := opening.length_le
      have named := Literal.Spelled.length_lt key
      have before := colon.length_le
      have behind := value.length_lt
      simp only [List.length_cons] at opened before
      omega

end

theorem Spelled.of_spaces {j : Json} {cs' : List Char} (h : Spaces cs cs')
    (hj : j.Spelled cs' rest) : j.Spelled cs rest := by
  induction h with
  | nil => exact hj
  | cons space _ ih => exact .space space (ih hj)

theorem numeral_ne {c p : Char} (hc : c = '-' ∨ c.isDigit = true) (hp : p ≠ '-')
    (hp' : p.isDigit = false) : c ≠ p := by
  obtain rfl | hc := hc
  · exact hp.symm
  · exact ne_of_isDigit hc hp'

theorem isSpace_numeral {c : Char} (hc : c = '-' ∨ c.isDigit = true) : isSpace c = false := by
  have space : c ≠ ' ' := numeral_ne hc (by decide) rfl
  have tab : c ≠ '\t' := numeral_ne hc (by decide) rfl
  have line : c ≠ '\n' := numeral_ne hc (by decide) rfl
  have ret : c ≠ '\r' := numeral_ne hc (by decide) rfl
  simp [isSpace, space, tab, line, ret]

theorem Spelled.starts {j : Json} (h : j.Spelled cs rest) :
    ∃ c r, skipSpace cs = c :: r ∧ c ≠ ']' := by
  induction cs with
  | nil =>
    have taken := h.length_lt
    exact absurd taken (Nat.not_lt_zero _)
  | cons _ _ ih =>
    cases h with
    | space blank h =>
      rw [skipSpace, List.dropWhile_cons_of_pos blank]
      exact ih h
    | number h =>
      obtain ⟨c, r, head, hc⟩ := h.head
      obtain ⟨rfl, rfl⟩ := List.cons.inj head
      exact ⟨_, _, skipSpace_cons (isSpace_numeral hc) _, numeral_ne hc (by decide) rfl⟩
    | _ => exact ⟨_, _, skipSpace_cons rfl _, by decide⟩

theorem scanValue_number {c : Char} {r : List Char} {n : Numeral} (fuel : Nat)
    (hc : c = '-' ∨ c.isDigit = true) (h : Numeral.scan (c :: r) = .ok (n, rest)) :
    scanValue (fuel + 1) (c :: r) = (.number n, some rest) := by
  have other {p : Char} (hp : p ≠ '-') (hp' : p.isDigit = false) : c ≠ p := numeral_ne hc hp hp'
  rw [scanValue, skipSpace_cons (isSpace_numeral hc)]
  simp only [other (p := '"') (by decide) rfl, other (p := '[') (by decide) rfl,
    other (p := '\x7b') (by decide) rfl, other (p := 'n') (by decide) rfl,
    other (p := 't') (by decide) rfl, other (p := 'f') (by decide) rfl, if_false, hc, if_true,
    numberValue, h]

theorem scanValue_text {t : Literal} (fuel : Nat) (h : Literal.scan cs = (t, some rest)) :
    scanValue (fuel + 1) ('"' :: cs) = (.text t, some rest) := by
  rw [scanValue, skipSpace_cons rfl]
  simp only [if_true, h]

theorem ItemsSpelled.starts {js : List Json} (h : ItemsSpelled js cs rest) :
    ∃ c r, skipSpace cs = c :: r ∧ c ≠ ']' := by
  cases h with
  | last h _ => exact h.starts
  | cons h _ _ => exact h.starts

theorem scanItem_skipped {c : Char} {r : List Char} (h : skipSpace cs = c :: r) (fuel : Nat) :
    scanItem fuel cs = scanItem fuel (c :: r) := by
  have same : skipSpace cs = skipSpace (c :: r) := by
    rw [← h]
    exact (spaces_skipSpace cs).skipSpace_eq
  cases fuel with
  | zero => rfl
  | succ fuel => simp only [scanItem, scanValue_skip same]

theorem scanValue_emptyList (fuel : Nat) (h : skipSpace cs = ']' :: rest) :
    scanValue (fuel + 2) ('[' :: cs) = (.list [] .closed, some rest) := by
  have items : scanItems (fuel + 1) cs = ⟨[], .closed, some rest⟩ := by
    simp only [scanItems, h, if_true]
  rw [scanValue, skipSpace_cons rfl]
  simp only [items]
  rfl

theorem scanValue_emptyObject (fuel : Nat) (h : skipSpace cs = '\x7d' :: rest) :
    scanValue (fuel + 2) ('\x7b' :: cs) = (.object [] .closed, some rest) := by
  have members : scanMembers (fuel + 1) cs = ⟨[], .closed, some rest⟩ := by
    simp only [scanMembers, h, if_true]
  rw [scanValue, skipSpace_cons rfl]
  simp only [members]
  rfl

theorem scanMemberValue_colon {named colon : List Char} (fuel : Nat)
    (h : skipSpace named = ':' :: colon) :
    scanMemberValue (fuel + 1) (some named) = scanValue fuel colon := by
  rw [scanMemberValue, h]
  rfl

-- by induction on the derivation; the fuel left over is what the rest of the text would need
mutual

theorem Spelled.scanValue_eq : ∀ {j : Json} {cs rest : List Char}, j.Spelled cs rest →
    (∀ n, j = .number n → EndsNumeral rest) →
    ∀ (fuel : Nat), 3 * cs.length ≤ fuel + 3 * rest.length → scanValue fuel cs = (j, some rest)
  | _, _, _, .space blank h, hrest, fuel, hfuel => by
      rw [List.length_cons] at hfuel
      have inner := h.scanValue_eq hrest fuel (by omega)
      rw [← inner]
      exact scanValue_skip ((Spaces.cons blank .nil).skipSpace_eq) fuel
  | _, _, _, .null, _, fuel, hfuel | _, _, _, .yes, _, fuel, hfuel
  | _, _, _, .no, _, fuel, hfuel => by
      simp only [List.length_cons] at hfuel
      obtain ⟨fuel, rfl⟩ : ∃ k, fuel = k + 1 := ⟨fuel - 1, by omega⟩
      rfl
  | _, _, _, .number h, hrest, fuel, hfuel => by
      have shorter := h.length_lt
      obtain ⟨fuel, rfl⟩ : ∃ k, fuel = k + 1 := ⟨fuel - 1, by omega⟩
      have scanned := h.scan_eq (hrest _ rfl)
      obtain ⟨c, r, rfl, hc⟩ := h.head
      exact scanValue_number fuel hc scanned
  | _, _, _, .text h, _, fuel, hfuel => by
      have shorter := Literal.Spelled.length_lt h
      rw [List.length_cons] at hfuel
      obtain ⟨fuel, rfl⟩ : ∃ k, fuel = k + 1 := ⟨fuel - 1, by omega⟩
      exact scanValue_text fuel (Literal.Spelled.scan_eq h)
  | _, _, _, .emptyList h, _, fuel, hfuel => by
      have shorter := h.length_le
      simp only [List.length_cons] at hfuel shorter
      obtain ⟨fuel, rfl⟩ : ∃ k, fuel = k + 2 := ⟨fuel - 2, by omega⟩
      exact scanValue_emptyList fuel (h.skipSpace_cons rfl)
  | _, _, _, .list h, _, fuel, hfuel => by
      have shorter := h.length_lt
      rw [List.length_cons] at hfuel
      -- one unit for the bracket and one for the step from the list to its first item
      obtain ⟨fuel, rfl⟩ : ∃ k, fuel = k + 2 := ⟨fuel - 2, by omega⟩
      obtain ⟨c, r, hskip, hc⟩ := h.starts
      have items := h.scanItem_eq fuel (by omega)
      rw [scanValue_list hskip hc, ← scanItem_skipped hskip, items]
  | _, _, _, .emptyObject h, _, fuel, hfuel => by
      have shorter := h.length_le
      simp only [List.length_cons] at hfuel shorter
      obtain ⟨fuel, rfl⟩ : ∃ k, fuel = k + 2 := ⟨fuel - 2, by omega⟩
      exact scanValue_emptyObject fuel (h.skipSpace_cons rfl)
  | _, _, _, .object h, _, fuel, hfuel => by
      have shorter := h.length_lt
      rw [List.length_cons] at hfuel
      obtain ⟨fuel, rfl⟩ : ∃ k, fuel = k + 2 := ⟨fuel - 2, by omega⟩
      obtain ⟨opened, spaces, members⟩ := h.scanMember_eq
      have quote := spaces.length_le
      rw [List.length_cons] at quote
      rw [scanValue_object (spaces.skipSpace_cons rfl), members fuel (by omega)]

theorem ItemsSpelled.scanItem_eq : ∀ {js : List Json} {cs rest : List Char},
    ItemsSpelled js cs rest → ∀ (fuel : Nat), 3 * cs.length ≤ fuel + 3 * rest.length →
    scanItem fuel cs = ⟨js, .closed, some rest⟩
  | _, _, _, .last h spaces, fuel, hfuel => by
      have shorter := h.length_lt
      have behind := spaces.length_le
      rw [List.length_cons] at behind
      obtain ⟨fuel, rfl⟩ : ∃ k, fuel = k + 1 := ⟨fuel - 1, by omega⟩
      have ends := spaces.endsNumeral (endsNumeral_cons (by decide) _)
      have value := h.scanValue_eq (fun _ _ => ends) fuel (by omega)
      exact scanItem_last value (spaces.skipSpace_cons rfl)
  | _, _, _, .cons h spaces others, fuel, hfuel => by
      have shorter := h.length_lt
      have behind := spaces.length_le
      have later := others.length_lt
      rw [List.length_cons] at behind
      obtain ⟨fuel, rfl⟩ : ∃ k, fuel = k + 1 := ⟨fuel - 1, by omega⟩
      have ends := spaces.endsNumeral (endsNumeral_cons (by decide) _)
      have value := h.scanValue_eq (fun _ _ => ends) fuel (by omega)
      obtain ⟨c, r, hskip, hc⟩ := others.starts
      have items := others.scanItem_eq fuel (by omega)
      rw [scanItem_next value (spaces.skipSpace_cons rfl) hskip hc, ← scanItem_skipped hskip, items]
      rfl

theorem MembersSpelled.scanMember_eq : ∀ {ms : List Member} {cs rest : List Char},
    MembersSpelled ms cs rest → ∃ opened, Spaces cs ('"' :: opened) ∧
      ∀ (fuel : Nat), 3 * opened.length ≤ fuel + 3 * rest.length →
        scanMember fuel opened = ⟨ms, .closed, some rest⟩
  | _, _, _, .last h spaces => by
      obtain ⟨opened, named, opening, key, shorter, value⟩ :=
        h.scan_eq (spaces.endsNumeral (endsNumeral_cons (by decide) _))
      refine ⟨opened, opening, fun fuel hfuel => ?_⟩
      have behind := spaces.length_le
      rw [List.length_cons] at behind
      obtain ⟨fuel, rfl⟩ : ∃ k, fuel = k + 1 := ⟨fuel - 1, by omega⟩
      exact scanMember_last key (value fuel (by omega)) (spaces.skipSpace_cons rfl)
  | _, _, _, .cons h spaces others => by
      obtain ⟨opened, named, opening, key, shorter, value⟩ :=
        h.scan_eq (spaces.endsNumeral (endsNumeral_cons (by decide) _))
      refine ⟨opened, opening, fun fuel hfuel => ?_⟩
      obtain ⟨next, opening', members⟩ := others.scanMember_eq
      have behind := spaces.length_le
      have before := opening'.length_le
      have later := others.length_lt
      rw [List.length_cons] at behind before
      obtain ⟨fuel, rfl⟩ : ∃ k, fuel = k + 1 := ⟨fuel - 1, by omega⟩
      rw [scanMember_next key (value fuel (by omega)) (spaces.skipSpace_cons rfl)
        (opening'.skipSpace_cons rfl), members fuel (by omega)]
      rfl

theorem MemberSpelled.scan_eq : ∀ {m : Member} {cs behind : List Char},
    MemberSpelled m cs behind → EndsNumeral behind → ∃ opened named,
      Spaces cs ('"' :: opened) ∧ Literal.scan opened = (m.1, some named) ∧
        behind.length < opened.length ∧
        ∀ (fuel : Nat), 3 * opened.length ≤ fuel + 1 + 3 * behind.length →
          scanMemberValue fuel (some named) = (m.2, some behind)
  | _, _, _, .intro opening key colon value, hbehind => by
      have named := Literal.Spelled.length_lt key
      have before := colon.length_le
      have shorter := value.length_lt
      rw [List.length_cons] at before
      refine ⟨_, _, opening, Literal.Spelled.scan_eq key, by omega, fun fuel hfuel => ?_⟩
      obtain ⟨fuel, rfl⟩ : ∃ k, fuel = k + 1 := ⟨fuel - 1, by omega⟩
      rw [scanMemberValue_colon fuel (colon.skipSpace_cons rfl)]
      exact value.scanValue_eq (fun _ _ => hbehind) fuel (by omega)

end

theorem scanWord_eq {word : List Char} (h : scanWord word cs = .ok rest) : cs = word ++ rest := by
  induction word generalizing cs with
  | nil => exact Except.ok.inj h
  | cons w word ih =>
    cases cs with
    | nil => exact nomatch h
    | cons c cs =>
      rw [scanWord] at h
      split at h
      · rename_i same
        rw [same, ih h, List.cons_append]
      · exact nomatch h

theorem skip_broken {b : Breach} : (Json.broken b).skip ≠ .ok () := by
  intro h
  rw [Json.skip] at h
  cases h

theorem skip_list_broken {js : List Json} {b : Breach} :
    (Json.list js (.broken b)).skip ≠ .ok () := by
  intro h
  exact Ending.check_eq_ok.1 (skip_list_eq_ok.1 h).2 b rfl

theorem skip_object_broken {ms : List Member} {b : Breach} :
    (Json.object ms (.broken b)).skip ≠ .ok () := by
  intro h
  exact Ending.check_eq_ok.1 (skip_object_eq_ok.1 h).2 b rfl

def ValueFound (cs : List Char) (v : Json × Option (List Char)) : Prop :=
  match v.2 with
  | some rest => v.1.Spelled cs rest
  | none => v.1.skip ≠ .ok ()

def ItemsFound (cs : List Char) (p : Parts Json) : Prop :=
  match p.rest with
  | some rest => p.ending = .closed ∧ ItemsSpelled p.parts cs rest
  | none => (Json.list p.parts p.ending).skip ≠ .ok ()

def MemberFound (key : Literal) (cs : List Char) (v : Json × Option (List Char)) : Prop :=
  match v.2 with
  | some rest => MemberSpelled (key, v.1) cs rest
  | none => v.1.skip ≠ .ok ()

def MembersFound (cs : List Char) (p : Parts Member) : Prop :=
  match p.rest with
  | some rest => p.ending = .closed ∧ MembersSpelled p.parts cs rest
  | none => (Json.object p.parts p.ending).skip ≠ .ok ()

theorem ValueFound.of_spaces {cs' : List Char} {v : Json × Option (List Char)}
    (h : Spaces cs cs') (hv : ValueFound cs' v) : ValueFound cs v := by
  obtain ⟨j, o⟩ := v
  cases o with
  | none => exact hv
  | some rest => exact Spelled.of_spaces h hv

theorem ItemsFound.list {p : Parts Json} (h : ItemsFound cs p) :
    ValueFound ('[' :: cs) (.list p.parts p.ending, p.rest) := by
  obtain ⟨js, e, o⟩ := p
  cases o with
  | none => exact h
  | some rest =>
    obtain ⟨rfl, items⟩ := h
    exact .list items

theorem MembersFound.object {p : Parts Member} (h : MembersFound cs p) :
    ValueFound ('\x7b' :: cs) (.object p.parts p.ending, p.rest) := by
  obtain ⟨ms, e, o⟩ := p
  cases o with
  | none => exact h
  | some rest =>
    obtain ⟨rfl, members⟩ := h
    exact .object members

theorem ValueFound.member {key : Literal} {opened named colon : List Char}
    {v : Json × Option (List Char)} (opening : Spaces cs ('"' :: opened))
    (hkey : key.Spelled opened named) (spaces : Spaces named (':' :: colon))
    (h : ValueFound colon v) : MemberFound key cs v := by
  obtain ⟨j, o⟩ := v
  cases o with
  | none => exact h
  | some rest => exact .intro opening hkey spaces h

theorem ItemsFound.cons {j : Json} {behind next : List Char} {p : Parts Json}
    (hj : j.Spelled cs behind) (spaces : Spaces behind (',' :: next)) (hp : ItemsFound next p) :
    ItemsFound cs (.cons j p) := by
  obtain ⟨js, e, o⟩ := p
  cases o with
  | none =>
    intro skipped
    obtain ⟨items, ending⟩ := skip_list_eq_ok.1 skipped
    exact hp (skip_list_eq_ok.2 ⟨(List.forall_mem_cons.1 items).2, ending⟩)
  | some rest => exact ⟨hp.1, .cons hj spaces hp.2⟩

theorem MembersFound.cons {m : Member} {behind next : List Char} {p : Parts Member}
    (hm : MemberSpelled m cs behind) (spaces : Spaces behind (',' :: next))
    (hp : MembersFound next p) : MembersFound cs (.cons m p) := by
  obtain ⟨ms, e, o⟩ := p
  cases o with
  | none =>
    intro skipped
    obtain ⟨members, ending⟩ := skip_object_eq_ok.1 skipped
    exact hp (skip_object_eq_ok.2 ⟨(List.forall_mem_cons.1 members).2, ending⟩)
  | some rest => exact ⟨hp.1, .cons hm spaces hp.2⟩

theorem scanLiteral_found (cs : List Char) :
    ValueFound ('"' :: cs) (.text (Literal.scan cs).1, (Literal.scan cs).2) := by
  cases hrest : (Literal.scan cs).2 with
  | none =>
    obtain ⟨b, hb⟩ := scanLiteral_stopped (Prod.ext rfl hrest)
    intro skipped
    rw [Json.skip, Literal.skip, hb] at skipped
    cases skipped
  | some rest => exact .text (spelled_of_scanLiteral (Prod.ext rfl hrest))

theorem wordValue_found {j : Json} {word : List Char} {c : Char}
    (h : ∀ rest, j.Spelled (c :: (word ++ rest)) rest) (cs : List Char) :
    ValueFound (c :: cs) (wordValue j word cs) := by
  unfold wordValue
  split
  · rename_i rest hword
    rw [scanWord_eq hword]
    exact h rest
  · exact skip_broken

theorem numberValue_found (cs : List Char) : ValueFound cs (numberValue cs) := by
  unfold numberValue
  split
  · rename_i hscan
    exact .number (spelled_of_scan hscan)
  · exact skip_broken

-- by induction on the fuel; a scanner that has none left reports a breach like any other
mutual

theorem scanValue_found : ∀ (fuel : Nat) (cs : List Char), ValueFound cs (scanValue fuel cs)
  | 0, _ => skip_broken
  | fuel + 1, cs => by
      have spaces := spaces_skipSpace cs
      rw [scanValue]
      split
      · exact skip_broken
      · rename_i c r hskip
        rw [hskip] at spaces
        refine .of_spaces spaces ?_
        split
        · subst c
          exact scanLiteral_found r
        split
        · subst c
          exact scanItems_found fuel r
        split
        · subst c
          exact scanMembers_found fuel r
        split
        · subst c
          exact wordValue_found (fun _ => .null) r
        split
        · subst c
          exact wordValue_found (fun _ => .yes) r
        split
        · subst c
          exact wordValue_found (fun _ => .no) r
        split
        · exact numberValue_found (c :: r)
        · exact skip_broken

theorem scanItems_found : ∀ (fuel : Nat) (cs : List Char), ValueFound ('[' :: cs)
    (.list (scanItems fuel cs).parts (scanItems fuel cs).ending, (scanItems fuel cs).rest)
  | 0, _ => skip_list_broken
  | fuel + 1, cs => by
      have spaces := spaces_skipSpace cs
      rw [scanItems]
      cases hskip : skipSpace cs with
      | nil => exact skip_list_broken
      | cons c r =>
        rw [hskip] at spaces
        dsimp only
        split
        · subst c
          exact .emptyList spaces
        · rw [← scanItem_skipped hskip]
          exact (scanItem_found fuel cs).list

theorem scanItem_found : ∀ (fuel : Nat) (cs : List Char), ItemsFound cs (scanItem fuel cs)
  | 0, _ => skip_list_broken
  | fuel + 1, cs => by
      have value := scanValue_found fuel cs
      unfold ValueFound at value
      rw [scanItem]
      split
      · -- the value itself is broken
        rename_i hvalue
        rw [hvalue] at value
        exact fun skipped => value ((skip_list_eq_ok.1 skipped).1 _ List.mem_cons_self)
      · rename_i behind hvalue
        rw [hvalue] at value
        have spaces := spaces_skipSpace behind
        split
        · exact skip_list_broken
        · rename_i c r hskip
          rw [hskip] at spaces
          split
          · subst c
            exact ⟨rfl, .last value spaces⟩
          split
          · subst c
            split
            · exact skip_list_broken
            · rename_i d s hnext
              split
              · exact skip_list_broken
              · rw [← scanItem_skipped hnext]
                exact .cons value spaces (scanItem_found fuel r)
          · exact skip_list_broken

theorem scanMembers_found : ∀ (fuel : Nat) (cs : List Char), ValueFound ('\x7b' :: cs)
    (.object (scanMembers fuel cs).parts (scanMembers fuel cs).ending, (scanMembers fuel cs).rest)
  | 0, _ => skip_object_broken
  | fuel + 1, cs => by
      have spaces := spaces_skipSpace cs
      rw [scanMembers]
      cases hskip : skipSpace cs with
      | nil => exact skip_object_broken
      | cons c r =>
        rw [hskip] at spaces
        dsimp only
        split
        · subst c
          exact .emptyObject spaces
        split
        · subst c
          exact (scanMember_found fuel spaces).object
        · exact skip_object_broken

theorem scanMember_found : ∀ (fuel : Nat) {cs opened : List Char}, Spaces cs ('"' :: opened) →
    MembersFound cs (scanMember fuel opened)
  | 0, _, _, _ => skip_object_broken
  | fuel + 1, cs, opened, opening => by
      have member := scanMemberValue_found fuel opening
      unfold MemberFound at member
      rw [scanMember]
      split
      · rename_i hvalue
        rw [hvalue] at member
        exact fun skipped => member ((skip_object_eq_ok.1 skipped).1 _ List.mem_cons_self).2
      · rename_i behind hvalue
        rw [hvalue] at member
        have spaces := spaces_skipSpace behind
        split
        · exact skip_object_broken
        · rename_i c r hskip
          rw [hskip] at spaces
          split
          · subst c
            exact ⟨rfl, .last member spaces⟩
          split
          · subst c
            have after := spaces_skipSpace r
            split
            · exact skip_object_broken
            · rename_i d s hnext
              rw [hnext] at after
              split
              · exact skip_object_broken
              split
              · subst d
                exact .cons member spaces (scanMember_found fuel after)
              · exact skip_object_broken
          · exact skip_object_broken

theorem scanMemberValue_found : ∀ (fuel : Nat) {cs opened : List Char},
    Spaces cs ('"' :: opened) →
    MemberFound (Literal.scan opened).1 cs (scanMemberValue fuel (Literal.scan opened).2)
  | 0, _, _, _ => skip_broken
  | fuel + 1, cs, opened, opening => by
      cases hnamed : (Literal.scan opened).2 with
      | none => exact skip_broken
      | some named =>
        have key := spelled_of_scanLiteral (Prod.ext rfl hnamed)
        have spaces := spaces_skipSpace named
        rw [scanMemberValue]
        split
        · exact skip_broken
        · rename_i c r hskip
          rw [hskip] at spaces
          split
          · subst c
            exact (scanValue_found fuel r).member opening key spaces
          · exact skip_broken

end

/-- The texts of a tree are those that are read as the tree, as far as nothing in it is broken. -/
theorem spelledBy_iff {j : Json} {s : String} :
    j.SpelledBy s ↔ Document.ofText s = ⟨j, false⟩ ∧ j.skip = .ok () := by
  constructor
  · rintro ⟨rest, h, spaces⟩
    have ends : EndsNumeral rest := spaces.endsNumeral fun c hc => nomatch hc
    have scanned := h.scanValue_eq (fun _ _ => ends) (3 * s.toList.length + 3) (by omega)
    have nothing : skipSpace rest = [] := spaces.skipSpace_eq
    refine ⟨?_, h.skip⟩
    rw [Document.ofText, Document.ofChars, scanned]
    simp [nothing]
  · rintro ⟨h, skipped⟩
    have found := scanValue_found (3 * s.toList.length + 3) s.toList
    unfold ValueFound at found
    obtain ⟨root, trailing⟩ := Document.mk.inj h
    rw [root] at found
    cases hrest : (scanValue (3 * s.toList.length + 3) s.toList).2 with
    | none =>
      rw [hrest] at found
      exact absurd skipped found
    | some rest =>
      rw [hrest] at found trailing
      have spaces := spaces_skipSpace rest
      have nothing : skipSpace rest = [] := by simpa using trailing
      rw [nothing] at spaces
      exact ⟨rest, found, spaces⟩

theorem SpelledBy.unique {j k : Json} {s : String} (h : j.SpelledBy s) (h' : k.SpelledBy s) :
    j = k := by
  have same := (spelledBy_iff.1 h).1
  rw [(spelledBy_iff.1 h').1] at same
  exact (Document.mk.inj same).1.symm

end DocTree.Json
