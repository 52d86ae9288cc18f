import DocTree.Proofs.Json.Extent
import DocTree.Proofs.Json.Nesting

/-!
# Where the parts of a value stand

The parts of a list or an object stand in its text one behind the other, each in one place. The
text of a part lies inside the text of the whole, and it ends before the next part begins.
-/
namespace DocTree.Json

variable {cs rest : List Char}

theorem Spaces.suffix (h : Spaces cs rest) : rest <:+ cs := by
  induction h with
  | nil => exact List.suffix_rfl
  | cons _ _ ih => exact ih.trans (List.suffix_cons _ _)

theorem Digits.suffix {ds : List Nat} (h : Digits ds cs rest) : rest <:+ cs := by
  induction h with
  | last => exact List.suffix_cons _ _
  | cons _ _ ih => exact ih.trans (List.suffix_cons _ _)

theorem Minus.suffix {negative : Bool} (h : Minus negative cs rest) : rest <:+ cs := by
  cases h with
  | absent => exact List.suffix_rfl
  | present => exact List.suffix_cons _ _

theorem Fraction.suffix {ds : List Nat} (h : Fraction ds cs rest) : rest <:+ cs := by
  cases h with
  | absent => exact List.suffix_rfl
  | present digits => exact digits.suffix.trans (List.suffix_cons _ _)

theorem Exponent.suffix {e : Option (Bool × List Nat)} (h : Exponent e cs rest) :
    rest <:+ cs := by
  cases h with
  | absent => exact List.suffix_rfl
  | present _ sign digits => exact (digits.suffix.trans sign.suffix).trans (List.suffix_cons _ _)
  | plus _ digits =>
    exact (digits.suffix.trans (List.suffix_cons _ _)).trans (List.suffix_cons _ _)

theorem Numeral.Spelled.suffix {n : Numeral} (h : n.Spelled cs rest) : rest <:+ cs := by
  obtain ⟨sign, whole, -, fraction, exponent⟩ := h
  exact exponent.suffix.trans (fraction.suffix.trans (whole.suffix.trans sign.suffix))

theorem Literal.Spelled.suffix {t : Literal} (h : t.Spelled cs rest) : rest <:+ cs := by
  induction h with
  | close => exact List.suffix_cons _ _
  | plain _ _ _ _ ih => exact ih.trans (List.suffix_cons _ _)
  | @short e _ _ cs _ _ _ ih => exact ih.trans (List.suffix_append ['\\', e] cs)
  | @numbered a b c d _ _ cs _ _ _ ih =>
    exact ih.trans (List.suffix_append ['\\', 'u', a, b, c, d] cs)

mutual

theorem Spelled.suffix : ∀ {j : Json} {cs rest : List Char}, j.Spelled cs rest → rest <:+ cs
  | _, _, _, .space _ h => h.suffix.trans (List.suffix_cons _ _)
  | _, _, _, .null => List.suffix_append ['n', 'u', 'l', 'l'] _
  | _, _, _, .yes => List.suffix_append ['t', 'r', 'u', 'e'] _
  | _, _, _, .no => List.suffix_append ['f', 'a', 'l', 's', 'e'] _
  | _, _, _, .number h => Numeral.Spelled.suffix h
  | _, _, _, .text h => (Literal.Spelled.suffix h).trans (List.suffix_cons _ _)
  | _, _, _, .emptyList h | _, _, _, .emptyObject h =>
      ((List.suffix_cons _ _).trans h.suffix).trans (List.suffix_cons _ _)
  | _, _, _, .list h | _, _, _, .object h => h.suffix.trans (List.suffix_cons _ _)

theorem ItemsSpelled.suffix : ∀ {js : List Json} {cs rest : List Char},
    ItemsSpelled js cs rest → rest <:+ cs
  | _, _, _, .last h spaces => ((List.suffix_cons _ _).trans spaces.suffix).trans h.suffix
  | _, _, _, .cons h spaces others =>
      (others.suffix.trans ((List.suffix_cons _ _).trans spaces.suffix)).trans h.suffix

theorem MembersSpelled.suffix : ∀ {ms : List Member} {cs rest : List Char},
    MembersSpelled ms cs rest → rest <:+ cs
  | _, _, _, .last h spaces => ((List.suffix_cons _ _).trans spaces.suffix).trans h.suffix
  | _, _, _, .cons h spaces others =>
      (others.suffix.trans ((List.suffix_cons _ _).trans spaces.suffix)).trans h.suffix

theorem MemberSpelled.suffix : ∀ {m : Member} {cs rest : List Char},
    MemberSpelled m cs rest → rest <:+ cs
  | _, _, _, .intro opening key colon value =>
      (value.suffix.trans ((List.suffix_cons _ _).trans colon.suffix)).trans
        ((Literal.Spelled.suffix key).trans ((List.suffix_cons _ _).trans opening.suffix))

end

section Passes

variable {β : Type}

/-- The text of a part tells by itself where it ends when a comma or a bracket comes next. -/
structure Tells (spelled : β → List Char → List Char → Prop) : Prop where
  suffix : ∀ {b cs rest}, spelled b cs rest → rest <:+ cs
  ends : ∀ {b cs rest rest'}, spelled b cs rest → spelled b cs rest' → EndsNumeral rest →
    EndsNumeral rest' → rest = rest'

inductive Passes (spelled : β → List Char → List Char → Prop) :
    List β → List Char → List Char → Prop
  | nil {cs : List Char} : Passes spelled [] cs cs
  | cons {b : β} {bs : List β} {c : Char} {cs behind next start : List Char} :
      spelled b cs behind → Spaces behind (c :: next) → c ∈ [',', ']', '\x7d'] →
      Passes spelled bs next start → Passes spelled (b :: bs) cs start

theorem isSpace_mark {c : Char} (h : c ∈ [',', ']', '\x7d']) : isSpace c = false := by
  simp only [List.mem_cons, List.not_mem_nil, or_false] at h
  rcases h with rfl | rfl | rfl <;> rfl

theorem endsNumeral_mark {c : Char} (h : c ∈ [',', ']', '\x7d']) {behind next : List Char}
    (spaces : Spaces behind (c :: next)) : EndsNumeral behind := by
  have mark : c ∈ [',', ']', '\x7d'] ++ ['\n'] := List.mem_append_left _ h
  exact spaces.endsNumeral (endsNumeral_cons mark _)

variable {spelled : β → List Char → List Char → Prop} {b : β} {before : List β}
  {start start' : List Char}

theorem Passes.suffix (tells : Tells spelled) (h : Passes spelled before cs start) :
    start <:+ cs := by
  induction h with
  | nil => exact List.suffix_rfl
  | cons part spaces _ _ ih =>
    have next := (List.suffix_cons _ _).trans spaces.suffix
    exact ih.trans (next.trans (tells.suffix part))

theorem Passes.unique (tells : Tells spelled) (h : Passes spelled before cs start)
    (h' : Passes spelled before cs start') : start = start' := by
  induction h with
  | nil =>
    cases h'
    rfl
  | cons part spaces mark _ ih =>
    cases h' with
    | cons part' spaces' mark' others' =>
      have behind := tells.ends part part' (endsNumeral_mark mark spaces)
        (endsNumeral_mark mark' spaces')
      have marked := spaces.skipSpace_cons (isSpace_mark mark)
      rw [behind, spaces'.skipSpace_cons (isSpace_mark mark')] at marked
      obtain ⟨-, rfl⟩ := List.cons.inj marked
      exact ih others'

theorem Passes.part (tells : Tells spelled) {bs : List β} (h : Passes spelled bs cs rest) {i : Nat}
    (hi : bs[i]? = some b) :
    ∃ start behind, Passes spelled (bs.take i) cs start ∧ spelled b start behind ∧
      EndsNumeral behind ∧ rest.length < behind.length := by
  induction h generalizing i with
  | nil => cases hi
  | cons part spaces mark others ih =>
    cases i with
    | zero =>
      obtain rfl := Option.some.inj hi
      refine ⟨_, _, .nil, part, endsNumeral_mark mark spaces, ?_⟩
      have later := (others.suffix tells).length_le
      have marked := spaces.length_le
      rw [List.length_cons] at marked
      omega
    | succ i =>
      obtain ⟨start, behind, passes, found⟩ := ih hi
      exact ⟨start, behind, .cons part spaces mark passes, found⟩

end Passes

theorem Spelled.ends {j : Json} {rest' : List Char} (h : j.Spelled cs rest)
    (h' : j.Spelled cs rest') (hrest : EndsNumeral rest) (hrest' : EndsNumeral rest') :
    rest = rest' := by
  have first := h.scanValue_eq (fun _ _ => hrest) (3 * cs.length) (by omega)
  have second := h'.scanValue_eq (fun _ _ => hrest') (3 * cs.length) (by omega)
  exact Option.some.inj (Prod.mk.inj (first.symm.trans second)).2

theorem Spelled.skipSpace {j : Json} (h : j.Spelled cs rest) :
    j.Spelled (Json.skipSpace cs) rest := by
  induction cs with
  | nil => exact h
  | cons c cs ih =>
    by_cases space : isSpace c = true
    · rw [Json.skipSpace, List.dropWhile_cons_of_pos space]
      cases h with
      | space _ h => exact ih h
      | number h =>
        obtain ⟨c, r, head, hc⟩ := h.head
        obtain ⟨rfl, -⟩ := List.cons.inj head
        exact absurd (space.symm.trans (isSpace_numeral hc)) (by decide)
      | _ => cases space
    · rw [skipSpace_cons (eq_false_of_ne_true space)]
      exact h

theorem Spelled.tells : Tells Spelled := ⟨Spelled.suffix, Spelled.ends⟩

inductive KeySpelled (key : Literal) : List Char → List Char → Prop
  | intro {cs opened named colon : List Char} :
      Spaces cs ('"' :: opened) → key.Spelled opened named → Spaces named (':' :: colon) →
      KeySpelled key cs colon

theorem KeySpelled.unique {key : Literal} {colon colon' : List Char} (h : KeySpelled key cs colon)
    (h' : KeySpelled key cs colon') : colon = colon' := by
  obtain ⟨opening, spelled, spaces⟩ := h
  obtain ⟨opening', spelled', spaces'⟩ := h'
  have opened := (opening.skipSpace_cons rfl).symm.trans (opening'.skipSpace_cons rfl)
  obtain ⟨-, rfl⟩ := List.cons.inj opened
  have named := (Literal.Spelled.scan_eq spelled).symm.trans (Literal.Spelled.scan_eq spelled')
  obtain rfl := Option.some.inj (Prod.mk.inj named).2
  have marked := (spaces.skipSpace_cons rfl).symm.trans (spaces'.skipSpace_cons rfl)
  exact (List.cons.inj marked).2

theorem KeySpelled.suffix {key : Literal} {colon : List Char} (h : KeySpelled key cs colon) :
    colon <:+ cs := by
  obtain ⟨opening, spelled, spaces⟩ := h
  have named := (Literal.Spelled.suffix spelled).trans ((List.suffix_cons _ _).trans opening.suffix)
  exact ((List.suffix_cons _ _).trans spaces.suffix).trans named

theorem memberSpelled_iff {m : Member} :
    MemberSpelled m cs rest ↔ ∃ colon, KeySpelled m.1 cs colon ∧ m.2.Spelled colon rest := by
  constructor
  · intro h
    obtain ⟨opening, key, colon, value⟩ := h
    exact ⟨_, ⟨opening, key, colon⟩, value⟩
  · rintro ⟨colon, ⟨opening, key, spaces⟩, value⟩
    exact .intro opening key spaces value

theorem MemberSpelled.ends {m : Member} {rest' : List Char} (h : MemberSpelled m cs rest)
    (h' : MemberSpelled m cs rest') (hrest : EndsNumeral rest) (hrest' : EndsNumeral rest') :
    rest = rest' := by
  obtain ⟨colon, key, value⟩ := memberSpelled_iff.1 h
  obtain ⟨colon', key', value'⟩ := memberSpelled_iff.1 h'
  obtain rfl := key.unique key'
  exact value.ends value' hrest hrest'

theorem MemberSpelled.tells : Tells MemberSpelled := ⟨MemberSpelled.suffix, MemberSpelled.ends⟩

theorem ItemsSpelled.passes : ∀ {js : List Json} {cs rest : List Char}, ItemsSpelled js cs rest →
    Passes Spelled js cs rest
  | _, _, _, .last h spaces => .cons h spaces (by decide) .nil
  | _, _, _, .cons h spaces others => .cons h spaces (by decide) others.passes

theorem MembersSpelled.passes : ∀ {ms : List Member} {cs rest : List Char},
    MembersSpelled ms cs rest → Passes MemberSpelled ms cs rest
  | _, _, _, .last h spaces => .cons h spaces (by decide) .nil
  | _, _, _, .cons h spaces others => .cons h spaces (by decide) others.passes

structure Placed where
  value : Json
  text : List Char
  behind : List Char
  spelled : value.Spelled text behind
  starts : skipSpace text = text

inductive PartAt (whole : Placed) (i : Nat) (part : Placed) : Prop
  | item {items : List Json} {e : Ending} {cs start : List Char} :
      whole.value = .list items e → whole.text = '[' :: cs → items[i]? = some part.value →
      Passes Spelled (items.take i) cs start → Spaces start part.text → PartAt whole i part
  | member {members : List Member} {e : Ending} {cs start colon : List Char} {key : Literal} :
      whole.value = .object members e → whole.text = '\x7b' :: cs →
      members[i]? = some (key, part.value) → Passes MemberSpelled (members.take i) cs start →
      KeySpelled key start colon → Spaces colon part.text → PartAt whole i part

namespace Placed

variable {whole part part' : Placed} {i i' : Nat}

theorem text_eq {start : List Char} (h : Spaces start part.text) :
    part.text = skipSpace start := by
  rw [h.skipSpace_eq, part.starts]

def ofSpelled {j : Json} {start behind : List Char} (h : j.Spelled start behind) : Placed where
  value := j
  text := skipSpace start
  behind := behind
  spelled := h.skipSpace
  starts := ((spaces_skipSpace start).skipSpace_eq).symm

-- The text of a number does not say where the number ends, so its place is not told by the start.
theorem eq_of_value {p q : Placed} (value : p.value = q.value) (text : p.text = q.text)
    (noNumber : ∀ n, p.value ≠ .number n) : p = q := by
  obtain ⟨j, cs, behind, spelled, starts⟩ := p
  obtain ⟨k, cs', behind', spelled', starts'⟩ := q
  obtain rfl : j = k := value
  obtain rfl : cs = cs' := text
  obtain ⟨-, rfl⟩ := spelled.unique spelled' noNumber noNumber
  rfl

theorem isSpace_text {c : Char} {cs : List Char} (h : part.text = c :: cs) :
    isSpace c = false := by
  have starts := part.starts
  cases space : isSpace c with
  | false => rfl
  | true =>
    rw [h, skipSpace, List.dropWhile_cons_of_pos space] at starts
    have shorter := (spaces_skipSpace cs).length_le
    rw [skipSpace, starts, List.length_cons] at shorter
    omega

theorem list_text {items : List Json} {e : Ending} (h : whole.value = .list items e) :
    ∃ cs, whole.text = '[' :: cs ∧ (items ≠ [] → Passes Spelled items cs whole.behind) := by
  have solid := @isSpace_text whole
  obtain ⟨j, cs, behind, spelled, starts⟩ := whole
  obtain rfl : j = .list items e := h
  cases spelled with
  | space blank => exact absurd ((solid rfl).symm.trans blank) (by decide)
  | emptyList => exact ⟨_, rfl, fun h => absurd rfl h⟩
  | list items => exact ⟨_, rfl, fun _ => items.passes⟩

theorem object_text {members : List Member} {e : Ending} (h : whole.value = .object members e) :
    ∃ cs, whole.text = '\x7b' :: cs ∧
      (members ≠ [] → Passes MemberSpelled members cs whole.behind) := by
  have solid := @isSpace_text whole
  obtain ⟨j, cs, behind, spelled, starts⟩ := whole
  obtain rfl : j = .object members e := h
  cases spelled with
  | space blank => exact absurd ((solid rfl).symm.trans blank) (by decide)
  | emptyObject => exact ⟨_, rfl, fun h => absurd rfl h⟩
  | object members => exact ⟨_, rfl, fun _ => members.passes⟩

end Placed

section Ends

variable {part : Placed} {start colon : List Char} {i : Nat}

theorem Passes.item_ends {items : List Json} (h : Passes Spelled items cs rest)
    (hi : items[i]? = some part.value) (before : Passes Spelled (items.take i) cs start)
    (lead : Spaces start part.text) (noNumber : ∀ n, part.value ≠ .number n) :
    rest.length < part.behind.length := by
  obtain ⟨start', behind, before', spelled, -, later⟩ := h.part Spelled.tells hi
  obtain rfl := before.unique Spelled.tells before'
  have own := Spelled.of_spaces lead part.spelled
  rwa [(own.unique spelled noNumber noNumber).2]

theorem Passes.member_ends {members : List Member} {key : Literal}
    (h : Passes MemberSpelled members cs rest) (hi : members[i]? = some (key, part.value))
    (before : Passes MemberSpelled (members.take i) cs start) (named : KeySpelled key start colon)
    (lead : Spaces colon part.text) (noNumber : ∀ n, part.value ≠ .number n) :
    rest.length < part.behind.length := by
  obtain ⟨start', behind, before', spelled, -, later⟩ := h.part MemberSpelled.tells hi
  obtain rfl := before.unique MemberSpelled.tells before'
  obtain ⟨colon', named', spelled⟩ := memberSpelled_iff.1 spelled
  obtain rfl := named.unique named'
  have own := Spelled.of_spaces lead part.spelled
  rwa [(own.unique spelled noNumber noNumber).2]

end Ends

namespace PartAt

variable {whole part part' : Placed} {i i' : Nat}

theorem value (h : PartAt whole i part) : whole.value.parts[i]? = some part.value := by
  cases h with
  | item hvalue _ hi => simp [hvalue, parts, hi]
  | member hvalue _ hi => simp [hvalue, parts, hi]

theorem exists_of_parts {x : Json} (h : whole.value.parts[i]? = some x) :
    ∃ part, PartAt whole i part ∧ part.value = x := by
  cases hvalue : whole.value with
  | list items e =>
    rw [hvalue, parts] at h
    obtain ⟨cs, htext, passes⟩ := whole.list_text hvalue
    have some_item : items ≠ [] := List.ne_nil_of_mem (List.mem_of_getElem? h)
    obtain ⟨start, behind, before, spelled, -, -⟩ := (passes some_item).part Spelled.tells h
    exact ⟨.ofSpelled spelled, .item hvalue htext h before (spaces_skipSpace start), rfl⟩
  | object members e =>
    rw [hvalue, parts, List.getElem?_map, Option.map_eq_some_iff] at h
    obtain ⟨⟨key, x⟩, h, rfl⟩ := h
    obtain ⟨cs, htext, passes⟩ := whole.object_text hvalue
    have some_member : members ≠ [] := List.ne_nil_of_mem (List.mem_of_getElem? h)
    obtain ⟨start, behind, before, spelled, -, -⟩ :=
      (passes some_member).part MemberSpelled.tells h
    obtain ⟨colon, named, spelled⟩ := memberSpelled_iff.1 spelled
    exact ⟨.ofSpelled spelled, .member hvalue htext h before named (spaces_skipSpace colon), rfl⟩
  | _ =>
    rw [hvalue] at h
    cases h

theorem unique (noNumber : ∀ n, part.value ≠ .number n) (h : PartAt whole i part)
    (h' : PartAt whole i part') : part = part' := by
  have value_eq : part.value = part'.value := Option.some.inj (h.value.symm.trans h'.value)
  refine Placed.eq_of_value value_eq ?_ noNumber
  cases h with
  | item hvalue htext _ passes lead =>
    cases h' with
    | item hvalue' htext' _ passes' lead' =>
      cases hvalue.symm.trans hvalue'
      cases htext.symm.trans htext'
      obtain rfl := passes.unique Spelled.tells passes'
      rw [Placed.text_eq lead, Placed.text_eq lead']
    | member hvalue' => cases hvalue.symm.trans hvalue'
  | member hvalue htext hi passes named lead =>
    cases h' with
    | item hvalue' => cases hvalue.symm.trans hvalue'
    | member hvalue' htext' hi' passes' named' lead' =>
      cases hvalue.symm.trans hvalue'
      cases htext.symm.trans htext'
      obtain ⟨rfl, -⟩ := Prod.mk.inj (Option.some.inj (hi.symm.trans hi'))
      obtain rfl := passes.unique MemberSpelled.tells passes'
      obtain rfl := named.unique named'
      rw [Placed.text_eq lead, Placed.text_eq lead']

theorem begins (h : PartAt whole i part) :
    ∃ bracket cs, whole.text = bracket :: cs ∧ part.text <:+ cs := by
  cases h with
  | item _ htext _ before lead =>
    exact ⟨_, _, htext, lead.suffix.trans (before.suffix Spelled.tells)⟩
  | member _ htext _ before named lead =>
    have start := named.suffix.trans (before.suffix MemberSpelled.tells)
    exact ⟨_, _, htext, lead.suffix.trans start⟩

theorem suffix (h : PartAt whole i part) : part.text <:+ whole.text := by
  obtain ⟨bracket, cs, htext, hpart⟩ := h.begins
  rw [htext]
  exact hpart.trans (List.suffix_cons _ _)

theorem text_lt (h : PartAt whole i part) : part.text.length < whole.text.length := by
  obtain ⟨bracket, cs, htext, hpart⟩ := h.begins
  rw [htext]
  exact Nat.lt_succ_of_le hpart.length_le

theorem behind_lt (noNumber : ∀ n, part.value ≠ .number n) (h : PartAt whole i part) :
    whole.behind.length < part.behind.length := by
  cases h with
  | item hvalue htext hi before lead =>
    obtain ⟨cs, htext', passes⟩ := whole.list_text hvalue
    cases htext.symm.trans htext'
    have some_item := List.ne_nil_of_mem (List.mem_of_getElem? hi)
    exact (passes some_item).item_ends hi before lead noNumber
  | member hvalue htext hi before named lead =>
    obtain ⟨cs, htext', passes⟩ := whole.object_text hvalue
    cases htext.symm.trans htext'
    have some_member := List.ne_nil_of_mem (List.mem_of_getElem? hi)
    exact (passes some_member).member_ends hi before named lead noNumber

theorem apart (noNumber : ∀ n, part.value ≠ .number n) (h : PartAt whole i part)
    (h' : PartAt whole i' part') (hi : i < i') : part'.text.length < part.behind.length := by
  cases h with
  | item hvalue htext found before lead =>
    cases h' with
    | item hvalue' htext' _ passes lead' =>
      cases hvalue.symm.trans hvalue'
      cases htext.symm.trans htext'
      rw [← List.getElem?_take_of_lt hi] at found
      rw [← Nat.min_eq_left (Nat.le_of_lt hi), ← List.take_take] at before
      exact Nat.lt_of_le_of_lt lead'.length_le (passes.item_ends found before lead noNumber)
    | member hvalue' => cases hvalue.symm.trans hvalue'
  | member hvalue htext found before named lead =>
    cases h' with
    | item hvalue' => cases hvalue.symm.trans hvalue'
    | member hvalue' htext' _ passes named' lead' =>
      cases hvalue.symm.trans hvalue'
      cases htext.symm.trans htext'
      rw [← List.getElem?_take_of_lt hi] at found
      rw [← Nat.min_eq_left (Nat.le_of_lt hi), ← List.take_take] at before
      have first := (lead'.suffix.trans named'.suffix).length_le
      exact Nat.lt_of_le_of_lt first (passes.member_ends found before named lead noNumber)

end PartAt

end DocTree.Json
