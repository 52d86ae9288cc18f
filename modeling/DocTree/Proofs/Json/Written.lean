import DocTree.Json.Reader
import DocTree.Proofs.Json.Scalars

/-!
# Reading what was written

A value that is written in either layout is read back as one tree and nothing is
left of the text. The tree holds the pieces of each string as they were escaped
and the digits of each number, so what a reader makes of it does not depend on
the layout.
-/
namespace DocTree.Json

mutual

def Value.tree : Value → Json
  | .boolean b => .boolean b
  | .number n => .number (.ofNat n)
  | .text s => .text (.ofText s)
  | .list vs => .list (itemTrees vs) .closed
  | .object ms => .object (memberTrees ms) .closed

def itemTrees : List Value → List Json
  | [] => []
  | v :: vs => v.tree :: itemTrees vs

def memberTrees : List (String × Value) → List Member
  | [] => []
  | (key, v) :: ms => (.ofText key, v.tree) :: memberTrees ms

end

theorem ne_of_isDigit {c p : Char} (hc : c.isDigit = true) (hp : p.isDigit = false) : c ≠ p := by
  rintro rfl
  exact absurd hc (by simp [hp])

theorem skipSpace_cons {c : Char} (h : isSpace c = false) (cs : List Char) :
    skipSpace (c :: cs) = c :: cs := by
  rw [skipSpace, List.dropWhile_cons_of_neg (by simp [h])]

theorem skipSpace_lineBreak (l : Layout) (depth : Nat) (cs : List Char) :
    skipSpace (l.lineBreak depth ++ cs) = skipSpace cs := by
  cases l with
  | compact => rfl
  | wide =>
    have space : ∀ c ∈ Layout.lineBreak .wide depth, isSpace c = true := by
      intro c hc
      rcases List.mem_cons.1 hc with rfl | hc
      · rfl
      · rw [(List.mem_replicate.1 hc).2]
        rfl
    rw [skipSpace, skipSpace, List.dropWhile_append_of_pos space]

theorem chars_head (l : Layout) (depth : Nat) (v : Value) :
    ∃ c cs, v.chars l depth = c :: cs ∧ isSpace c = false ∧ c ≠ ']' := by
  cases v with
  | boolean b =>
    rw [Value.chars]
    cases b <;> exact ⟨_, _, rfl, rfl, by decide⟩
  | number n =>
    obtain ⟨c, cs, hcs⟩ := List.exists_cons_of_ne_nil (Nat.toDigits_ne_nil (n := n) (b := 10))
    have hc := Nat.isDigit_of_mem_toDigits (b := 10) (n := n) (c := c) (by decide) (by decide)
      (hcs ▸ List.mem_cons_self)
    have other {p : Char} (hp : p.isDigit = false) : c ≠ p := ne_of_isDigit hc hp
    refine ⟨c, cs, by rw [Value.chars, hcs], ?_, other rfl⟩
    have space : c ≠ ' ' := other rfl
    have tab : c ≠ '\t' := other rfl
    have line : c ≠ '\n' := other rfl
    have ret : c ≠ '\r' := other rfl
    simp [isSpace, space, tab, line, ret]
  | text s => exact ⟨'"', _, rfl, rfl, by decide⟩
  | list vs => cases vs <;> exact ⟨'[', _, rfl, rfl, by decide⟩
  | object ms => cases ms <;> exact ⟨'\x7b', _, rfl, rfl, by decide⟩

theorem skipSpace_chars (l : Layout) (depth : Nat) (v : Value) (rest : List Char) :
    skipSpace (v.chars l depth ++ rest) = v.chars l depth ++ rest := by
  obtain ⟨c, cs, hcs, hspace, -⟩ := chars_head l depth v
  rw [hcs, List.cons_append, skipSpace_cons hspace]

/-- A value is scanned as its tree wherever it is written, given three units of fuel for each of
its characters. -/
def Scans (l : Layout) (v : Value) : Prop :=
  ∀ depth rest fuel, EndsNumeral rest → 3 * (v.chars l depth).length ≤ fuel →
    scanValue fuel (v.chars l depth ++ rest) = (v.tree, some rest)

theorem scans_boolean (l : Layout) (b : Bool) : Scans l (.boolean b) := by
  intro depth rest fuel _ hfuel
  cases fuel with
  | zero => cases b <;> simp [Value.chars] at hfuel
  | succ fuel => cases b <;> rfl

theorem scans_number (l : Layout) (n : Nat) : Scans l (.number n) := by
  intro depth rest fuel hrest hfuel
  obtain ⟨c, cs, hcs⟩ := List.exists_cons_of_ne_nil (Nat.toDigits_ne_nil (n := n) (b := 10))
  have hc := Nat.isDigit_of_mem_toDigits (b := 10) (n := n) (c := c) (by decide) (by decide)
    (hcs ▸ List.mem_cons_self)
  have other {p : Char} (hp : p.isDigit = false) : c ≠ p := ne_of_isDigit hc hp
  have chars : (Value.number n).chars l depth = c :: cs := by rw [Value.chars, hcs]
  cases fuel with
  | zero => simp [chars] at hfuel
  | succ fuel =>
    have numeral := scan_written hrest n
    rw [hcs, List.cons_append] at numeral
    have skip := skipSpace_chars l depth (.number n) rest
    rw [chars, List.cons_append] at skip
    rw [chars, List.cons_append, scanValue, skip]
    simp only [other (p := '"') rfl, other (p := '[') rfl, other (p := '\x7b') rfl,
      other (p := 'n') rfl, other (p := 't') rfl, other (p := 'f') rfl, if_false, hc, or_true,
      if_true, numberValue, numeral]
    rfl

theorem scans_text (l : Layout) (s : String) : Scans l (.text s) := by
  intro depth rest fuel _ hfuel
  have chars : (Value.text s).chars l depth ++ rest =
      '"' :: (s.toList.flatMap escapeChar ++ '"' :: rest) := by
    simp [Value.chars, stringChars]
  cases fuel with
  | zero => simp [Value.chars, stringChars] at hfuel
  | succ fuel =>
    rw [chars, scanValue, skipSpace_cons rfl]
    simp only [if_true, scan_flatMap]
    rfl

theorem endsNumeral_cons {c : Char} (h : c ∈ [',', ']', '\x7d', '\n']) (cs : List Char) :
    EndsNumeral (c :: cs) := by
  intro d hd
  obtain rfl := Option.some.inj hd
  simp only [List.mem_cons, List.not_mem_nil, or_false] at h
  rcases h with rfl | rfl | rfl | rfl <;> exact ⟨rfl, by decide, by decide, by decide⟩

theorem endsNumeral_lineBreak (l : Layout) (depth : Nat) {c : Char} (h : c = ']' ∨ c = '\x7d')
    (cs : List Char) : EndsNumeral (l.lineBreak depth ++ c :: cs) := by
  cases l with
  | compact =>
    refine endsNumeral_cons ?_ cs
    rcases h with rfl | rfl <;> decide
  | wide => exact endsNumeral_cons (by decide) _

theorem endsNumeral_items (l : Layout) (depth outer : Nat) (vs : List Value) (cs : List Char) :
    EndsNumeral (itemChars l depth vs ++ (l.lineBreak outer ++ ']' :: cs)) := by
  cases vs with
  | nil => exact endsNumeral_lineBreak l outer (.inl rfl) cs
  | cons v vs => exact endsNumeral_cons (by decide) _

theorem scanItem_last {fuel : Nat} {cs rest after : List Char} {j : Json}
    (hv : scanValue fuel cs = (j, some rest)) (hrest : skipSpace rest = ']' :: after) :
    scanItem (fuel + 1) cs = ⟨[j], .closed, some after⟩ := by
  simp only [scanItem, hv, hrest]
  rfl

theorem scanItem_next {fuel : Nat} {cs rest after next : List Char} {c : Char} {j : Json}
    (hv : scanValue fuel cs = (j, some rest)) (hrest : skipSpace rest = ',' :: after)
    (hafter : skipSpace after = c :: next) (hc : c ≠ ']') :
    scanItem (fuel + 1) cs = .cons j (scanItem fuel (c :: next)) := by
  simp only [scanItem, hv, hrest, hafter, hc, if_false]
  rfl

theorem scanValue_list {fuel : Nat} {cs after : List Char} {c : Char}
    (h : skipSpace cs = c :: after) (hc : c ≠ ']') :
    scanValue (fuel + 2) ('[' :: cs) =
      (.list (scanItem fuel (c :: after)).parts (scanItem fuel (c :: after)).ending,
        (scanItem fuel (c :: after)).rest) := by
  have items : scanItems (fuel + 1) cs = scanItem fuel (c :: after) := by
    simp only [scanItems, h, hc, if_false]
  rw [← items, scanValue, skipSpace_cons rfl]
  rfl

theorem scanItem_written {l : Layout} {v : Value} {vs : List Value} (hv : Scans l v)
    (hvs : ∀ w ∈ vs, Scans l w) (depth outer : Nat) (rest : List Char) (fuel : Nat)
    (hfuel : 3 * ((v.chars l depth).length + (itemChars l depth vs).length) < fuel) :
    scanItem fuel
        (v.chars l depth ++ (itemChars l depth vs ++ (l.lineBreak outer ++ ']' :: rest))) =
      ⟨itemTrees (v :: vs), .closed, some rest⟩ := by
  induction vs generalizing v fuel with
  | nil =>
    obtain ⟨fuel, rfl⟩ : ∃ k, fuel = k + 1 := ⟨fuel - 1, by omega⟩
    rw [itemChars, List.length_nil] at hfuel
    have scanned := hv depth _ fuel (endsNumeral_items l depth outer [] rest) (by omega)
    apply scanItem_last scanned
    rw [itemChars, List.nil_append, skipSpace_lineBreak, skipSpace_cons rfl]
  | cons w ws ih =>
    obtain ⟨fuel, rfl⟩ : ∃ k, fuel = k + 1 := ⟨fuel - 1, by omega⟩
    obtain ⟨c, cs, hcs, hspace, hclose⟩ := chars_head l depth w
    simp only [itemChars, List.length_append, List.length_cons] at hfuel
    have scanned := hv depth _ fuel (endsNumeral_items l depth outer (w :: ws) rest) (by omega)
    have next := ih (hvs w List.mem_cons_self) (fun x hx => hvs x (List.mem_cons_of_mem _ hx))
      fuel (by omega)
    have chars : itemChars l depth (w :: ws) ++ (l.lineBreak outer ++ ']' :: rest) =
        ',' :: (l.lineBreak depth ++
          (w.chars l depth ++ (itemChars l depth ws ++ (l.lineBreak outer ++ ']' :: rest)))) := by
      simp only [itemChars, List.append_assoc, List.cons_append]
    rw [chars] at scanned ⊢
    rw [hcs, List.cons_append] at scanned next ⊢
    rw [scanItem_next scanned (skipSpace_cons rfl _) ?_ hclose, next]
    · rfl
    · rw [skipSpace_lineBreak, skipSpace_cons hspace]

theorem scans_list {l : Layout} {vs : List Value} (hvs : ∀ v ∈ vs, Scans l v) :
    Scans l (.list vs) := by
  intro depth rest fuel _ hfuel
  cases vs with
  | nil =>
    obtain ⟨fuel, rfl⟩ : ∃ k, fuel = k + 2 := ⟨fuel - 2, by simp [Value.chars] at hfuel; omega⟩
    rfl
  | cons v vs =>
    have chars : (Value.list (v :: vs)).chars l depth ++ rest =
        '[' :: (l.lineBreak (depth + 1) ++ (v.chars l (depth + 1) ++
          (itemChars l (depth + 1) vs ++ (l.lineBreak depth ++ ']' :: rest)))) := by
      simp only [Value.chars, List.append_assoc, List.cons_append, List.nil_append]
    simp only [Value.chars, List.length_append, List.length_cons] at hfuel
    obtain ⟨fuel, rfl⟩ : ∃ k, fuel = k + 2 := ⟨fuel - 2, by omega⟩
    obtain ⟨c, cs, hcs, hspace, hclose⟩ := chars_head l (depth + 1) v
    have items := scanItem_written (hvs v List.mem_cons_self)
      (fun w hw => hvs w (List.mem_cons_of_mem _ hw)) (depth + 1) depth rest fuel (by omega)
    rw [hcs, List.cons_append] at items
    rw [chars, hcs, List.cons_append, scanValue_list ?_ hclose, items]
    · rfl
    · rw [skipSpace_lineBreak, skipSpace_cons hspace]

theorem endsNumeral_members (l : Layout) (depth outer : Nat) (ms : List (String × Value))
    (cs : List Char) :
    EndsNumeral (memberChars l depth ms ++ (l.lineBreak outer ++ '\x7d' :: cs)) := by
  cases ms with
  | nil => exact endsNumeral_lineBreak l outer (.inr rfl) cs
  | cons m ms => exact endsNumeral_cons (by decide) _

theorem stringChars_append (s : String) (cs : List Char) :
    stringChars s ++ cs = '"' :: (s.toList.flatMap escapeChar ++ '"' :: cs) := by
  simp [stringChars]

theorem scanValue_skip {cs cs' : List Char} (h : skipSpace cs = skipSpace cs') (fuel : Nat) :
    scanValue fuel cs = scanValue fuel cs' := by
  cases fuel with
  | zero => rfl
  | succ fuel => simp only [scanValue, h]

theorem scanMemberValue_written {l : Layout} {v : Value} (hv : Scans l v) (depth : Nat)
    {rest : List Char} (hrest : EndsNumeral rest) (fuel : Nat)
    (hfuel : 3 * (v.chars l depth).length ≤ fuel) :
    scanMemberValue (fuel + 1) (some (l.colon ++ (v.chars l depth ++ rest))) =
      (v.tree, some rest) := by
  have colon (cs : List Char) :
      scanMemberValue (fuel + 1) (some (':' :: cs)) = scanValue fuel cs := rfl
  rw [← hv depth rest fuel hrest hfuel]
  cases l with
  | compact => exact colon _
  | wide =>
    have space (cs : List Char) : skipSpace (' ' :: cs) = skipSpace cs := rfl
    exact (colon _).trans (scanValue_skip (space _) fuel)

theorem scanMember_last {fuel : Nat} {cs behind rest after : List Char} {key : Literal} {j : Json}
    (hkey : Literal.scan cs = (key, some behind))
    (hv : scanMemberValue fuel (some behind) = (j, some rest))
    (hrest : skipSpace rest = '\x7d' :: after) :
    scanMember (fuel + 1) cs = ⟨[(key, j)], .closed, some after⟩ := by
  simp only [scanMember, hkey, hv, hrest]
  rfl

theorem scanMember_next {fuel : Nat} {cs behind rest after next : List Char} {key : Literal}
    {j : Json} (hkey : Literal.scan cs = (key, some behind))
    (hv : scanMemberValue fuel (some behind) = (j, some rest))
    (hrest : skipSpace rest = ',' :: after) (hafter : skipSpace after = '"' :: next) :
    scanMember (fuel + 1) cs = .cons (key, j) (scanMember fuel next) := by
  simp only [scanMember, hkey, hv, hrest, hafter]
  rfl

theorem scanValue_object {fuel : Nat} {cs after : List Char} (h : skipSpace cs = '"' :: after) :
    scanValue (fuel + 2) ('\x7b' :: cs) =
      (.object (scanMember fuel after).parts (scanMember fuel after).ending,
        (scanMember fuel after).rest) := by
  have members : scanMembers (fuel + 1) cs = scanMember fuel after := by
    simp only [scanMembers, h]
    rfl
  rw [← members, scanValue, skipSpace_cons rfl]
  rfl

theorem scanMember_written {l : Layout} {v : Value} {ms : List (String × Value)} (key : String)
    (hv : Scans l v) (hms : ∀ m ∈ ms, Scans l m.2) (depth outer : Nat) (rest : List Char)
    (fuel : Nat)
    (hfuel : 3 * ((v.chars l depth).length + (memberChars l depth ms).length) + 1 < fuel) :
    scanMember fuel (key.toList.flatMap escapeChar ++ '"' :: (l.colon ++ (v.chars l depth ++
        (memberChars l depth ms ++ (l.lineBreak outer ++ '\x7d' :: rest))))) =
      ⟨memberTrees ((key, v) :: ms), .closed, some rest⟩ := by
  induction ms generalizing key v fuel with
  | nil =>
    obtain ⟨fuel, rfl⟩ : ∃ k, fuel = k + 2 := ⟨fuel - 2, by omega⟩
    rw [memberChars, List.length_nil] at hfuel
    have ends := endsNumeral_members l depth outer [] rest
    refine scanMember_last (scan_flatMap _ _)
      (scanMemberValue_written hv depth ends fuel (by omega)) ?_
    rw [memberChars, List.nil_append, skipSpace_lineBreak, skipSpace_cons rfl]
  | cons m ms ih =>
    obtain ⟨key', w⟩ := m
    obtain ⟨fuel, rfl⟩ : ∃ k, fuel = k + 2 := ⟨fuel - 2, by omega⟩
    simp only [memberChars, stringChars, List.length_append, List.length_cons] at hfuel
    have ends := endsNumeral_members l depth outer ((key', w) :: ms) rest
    have value := scanMemberValue_written hv depth ends fuel (by omega)
    have hw : Scans l w := hms (key', w) List.mem_cons_self
    have next := ih key' hw (fun x hx => hms x (List.mem_cons_of_mem _ hx))
      (fuel + 1) (by omega)
    have chars : memberChars l depth ((key', w) :: ms) ++ (l.lineBreak outer ++ '\x7d' :: rest) =
        ',' :: (l.lineBreak depth ++ ('"' :: (key'.toList.flatMap escapeChar ++ '"' :: (l.colon ++
          (w.chars l depth ++
            (memberChars l depth ms ++ (l.lineBreak outer ++ '\x7d' :: rest))))))) := by
      simp only [memberChars, List.append_assoc, List.cons_append, stringChars_append]
    rw [chars] at value ⊢
    rw [scanMember_next (scan_flatMap _ _) value (skipSpace_cons rfl _) ?_, next]
    · rfl
    · rw [skipSpace_lineBreak, skipSpace_cons rfl]

theorem scans_object {l : Layout} {ms : List (String × Value)} (hms : ∀ m ∈ ms, Scans l m.2) :
    Scans l (.object ms) := by
  intro depth rest fuel _ hfuel
  cases ms with
  | nil =>
    obtain ⟨fuel, rfl⟩ : ∃ k, fuel = k + 2 := ⟨fuel - 2, by simp [Value.chars] at hfuel; omega⟩
    rfl
  | cons m ms =>
    obtain ⟨key, v⟩ := m
    have chars : (Value.object ((key, v) :: ms)).chars l depth ++ rest =
        '\x7b' :: (l.lineBreak (depth + 1) ++ ('"' :: (key.toList.flatMap escapeChar ++ '"' ::
          (l.colon ++ (v.chars l (depth + 1) ++
            (memberChars l (depth + 1) ms ++ (l.lineBreak depth ++ '\x7d' :: rest))))))) := by
      simp only [Value.chars, List.append_assoc, List.cons_append, List.nil_append,
        stringChars_append]
    simp only [Value.chars, stringChars, List.length_append, List.length_cons] at hfuel
    obtain ⟨fuel, rfl⟩ : ∃ k, fuel = k + 2 := ⟨fuel - 2, by omega⟩
    have hv : Scans l v := hms (key, v) List.mem_cons_self
    have members := scanMember_written key hv
      (fun w hw => hms w (List.mem_cons_of_mem _ hw)) (depth + 1) depth rest fuel (by omega)
    rw [chars, scanValue_object ?_, members]
    · rfl
    · rw [skipSpace_lineBreak, skipSpace_cons rfl]

theorem scans (l : Layout) : ∀ v, Scans l v
  | .boolean b => scans_boolean l b
  | .number n => scans_number l n
  | .text s => scans_text l s
  | .list vs => scans_list fun v hv =>
      have := List.sizeOf_lt_of_mem hv
      scans l v
  | .object ms => scans_object fun (_, v) hm =>
      have := List.sizeOf_lt_of_mem hm
      scans l v
termination_by v => sizeOf v
decreasing_by
  · simp only [Value.list.sizeOf_spec]
    omega
  · simp only [Value.object.sizeOf_spec, Prod.mk.sizeOf_spec] at *
    omega

theorem Document.ofText_write_append (l : Layout) (v : Value) {rest : String}
    (hends : EndsNumeral rest.toList) (hspace : skipSpace rest.toList = []) :
    Document.ofText (v.write l ++ rest) = ⟨v.tree, false⟩ := by
  have chars_eq : (v.write l ++ rest).toList = v.chars l 0 ++ rest.toList := by
    rw [String.toList_append, Value.write, String.toList_ofList]
  have scanned := scans l v 0 rest.toList (3 * (v.chars l 0 ++ rest.toList).length + 3) hends
    (by rw [List.length_append]; omega)
  rw [Document.ofText, chars_eq, Document.ofChars, scanned]
  simp [hspace]

theorem Document.ofText_write (l : Layout) (v : Value) :
    Document.ofText (v.write l) = ⟨v.tree, false⟩ := by
  have nothing : EndsNumeral "".toList := fun c hc => nomatch hc
  have written := Document.ofText_write_append l v nothing rfl
  rwa [String.append_empty] at written

end DocTree.Json
