import DocTree.Proofs.Json.Grammar
import DocTree.Proofs.Json.Written

/-!
# Scanning numbers and strings

The scanners of space, numbers and strings find what the grammar derives and nothing else.
In a number they go on as far as they can, so what follows must not go on with it.
-/
namespace DocTree.Json

variable {cs rest : List Char}

theorem Spaces.skipSpace_eq (h : Spaces cs rest) : skipSpace cs = skipSpace rest := by
  induction h with
  | nil => rfl
  | cons space _ ih => rw [skipSpace, List.dropWhile_cons_of_pos space, ← ih, skipSpace]

theorem Spaces.skipSpace_cons {c : Char} (h : Spaces cs (c :: rest)) (hc : isSpace c = false) :
    skipSpace cs = c :: rest := by
  rw [h.skipSpace_eq, Json.skipSpace_cons hc]

theorem spaces_skipSpace (cs : List Char) : Spaces cs (skipSpace cs) := by
  induction cs with
  | nil => exact .nil
  | cons c cs ih =>
    by_cases space : isSpace c = true
    · rw [skipSpace, List.dropWhile_cons_of_pos space]
      exact .cons space ih
    · rw [Json.skipSpace_cons (Bool.eq_false_iff.2 space)]
      exact .nil

theorem Spaces.length_le (h : Spaces cs rest) : rest.length ≤ cs.length := by
  induction h with
  | nil => exact Nat.le_refl _
  | cons _ _ ih => exact Nat.le_succ_of_le ih

theorem Spaces.endsNumeral (h : Spaces cs rest) (hrest : EndsNumeral rest) : EndsNumeral cs := by
  cases h with
  | nil => exact hrest
  | @cons c _ _ space _ =>
    intro d hd
    obtain rfl := Option.some.inj hd
    simp only [isSpace, Bool.or_eq_true, beq_iff_eq] at space
    obtain ((rfl | rfl) | rfl) | rfl := space <;> decide

theorem Digits.length_lt {ds : List Nat} (h : Digits ds cs rest) : rest.length < cs.length := by
  induction h with
  | last => exact Nat.lt_succ_self _
  | cons _ _ ih => exact Nat.lt_succ_of_lt ih

theorem Minus.length_le {negative : Bool} (h : Minus negative cs rest) :
    rest.length ≤ cs.length := by
  cases h with
  | absent => exact Nat.le_refl _
  | present => exact Nat.le_succ _

theorem Fraction.length_le {ds : List Nat} (h : Fraction ds cs rest) :
    rest.length ≤ cs.length := by
  cases h with
  | absent => exact Nat.le_refl _
  | present digits => exact Nat.le_succ_of_le (Nat.le_of_lt digits.length_lt)

theorem Exponent.length_le {e : Option (Bool × List Nat)} (h : Exponent e cs rest) :
    rest.length ≤ cs.length := by
  cases h with
  | absent => exact Nat.le_refl _
  | present _ sign digits =>
    exact Nat.le_succ_of_le (Nat.le_trans (Nat.le_of_lt digits.length_lt) sign.length_le)
  | plus _ digits => exact Nat.le_succ_of_le (Nat.le_succ_of_le (Nat.le_of_lt digits.length_lt))

theorem Numeral.Spelled.length_lt {n : Numeral} (h : n.Spelled cs rest) :
    rest.length < cs.length := by
  obtain ⟨sign, digits, -, fraction, exponent⟩ := h
  have whole := digits.length_lt
  have signed := sign.length_le
  have point := fraction.length_le
  have scale := exponent.length_le
  omega

theorem Digits.ne_nil {ds : List Nat} (h : Digits ds cs rest) : ds ≠ [] := by
  cases h <;> exact List.cons_ne_nil _ _

theorem Digits.head {ds : List Nat} (h : Digits ds cs rest) :
    ∃ c cs', cs = c :: cs' ∧ c.isDigit = true := by
  cases h with
  | last hc => exact ⟨_, _, rfl, hc⟩
  | cons hc _ => exact ⟨_, _, rfl, hc⟩

theorem Digits.takeDigits_eq {ds : List Nat} (h : Digits ds cs rest)
    (hrest : ∀ c ∈ rest.head?, c.isDigit = false) : takeDigits cs = (ds, rest) := by
  induction h with
  | @last c rest hc =>
    cases rest with
    | nil => simp [takeDigits, hc]
    | cons d rest => simp [takeDigits, hc, hrest d rfl]
  | cons hc _ ih =>
    have tail := ih hrest
    rw [takeDigits, Prod.mk.injEq] at tail
    rw [takeDigits, List.takeWhile_cons_of_pos hc, List.dropWhile_cons_of_pos hc, List.map_cons,
      tail.1, tail.2]

theorem digits_append {ws : List Char} (hne : ws ≠ []) (h : ∀ c ∈ ws, c.isDigit = true)
    (rest : List Char) : Digits (ws.map fun c => c.toNat - '0'.toNat) (ws ++ rest) rest := by
  induction ws with
  | nil => exact absurd rfl hne
  | cons c ws ih =>
    obtain ⟨hc, hws⟩ := List.forall_mem_cons.1 h
    cases ws with
    | nil => exact .last hc
    | cons d ws => exact .cons hc (ih (List.cons_ne_nil _ _) hws)

theorem digits_of_takeDigits {ds : List Nat} (h : takeDigits cs = (ds, rest)) (hds : ds ≠ []) :
    Digits ds cs rest := by
  obtain ⟨rfl, rfl⟩ := Prod.mk.inj h
  have digits := digits_append (fun none => hds (by rw [none]; rfl))
    (List.all_eq_true.1 (List.all_takeWhile (p := Char.isDigit) (l := cs)))
    (cs.dropWhile Char.isDigit)
  rwa [List.takeWhile_append_dropWhile] at digits

theorem Digits.scanWhole_eq {ds : List Nat} (h : Digits ds cs rest)
    (hzero : ∀ d ds', ds ≠ 0 :: d :: ds') (hrest : ∀ c ∈ rest.head?, c.isDigit = false) :
    Numeral.scanWhole cs = .ok (ds, rest) := by
  rw [Numeral.scanWhole, h.takeDigits_eq hrest]
  split
  · rename_i heq
    exact absurd (Prod.mk.inj heq).1 h.ne_nil
  · rename_i heq
    exact absurd (Prod.mk.inj heq).1 (hzero _ _)
  · rfl

theorem digits_of_scanWhole {ds : List Nat} (h : Numeral.scanWhole cs = .ok (ds, rest)) :
    Digits ds cs rest ∧ ∀ d ds', ds ≠ 0 :: d :: ds' := by
  unfold Numeral.scanWhole at h
  split at h
  · exact nomatch h
  · exact nomatch h
  · rename_i ne zero
    have taken := Except.ok.inj h
    refine ⟨digits_of_takeDigits taken ?_, ?_⟩
    · rintro rfl
      exact ne _ taken
    · rintro d ds' rfl
      exact zero _ _ _ taken

theorem Exponent.head {e : Option (Bool × List Nat)} (h : Exponent e cs rest)
    (hrest : EndsNumeral rest) : ∀ c ∈ cs.head?, c.isDigit = false ∧ c ≠ '.' := by
  cases h with
  | absent => exact fun c hc => ⟨(hrest c hc).1, (hrest c hc).2.1⟩
  | present he _ _ | plus he _ =>
    intro c hc
    obtain rfl := Option.some.inj hc
    obtain rfl | rfl := he <;> decide

theorem Fraction.head {ds : List Nat} (h : Fraction ds cs rest)
    (hrest : ∀ c ∈ rest.head?, c.isDigit = false ∧ c ≠ '.') :
    ∀ c ∈ cs.head?, c.isDigit = false := by
  cases h with
  | absent => exact fun c hc => (hrest c hc).1
  | present _ =>
    intro c hc
    obtain rfl := Option.some.inj hc
    rfl

theorem Fraction.scanFraction_eq {ds : List Nat} (h : Fraction ds cs rest)
    (hrest : ∀ c ∈ rest.head?, c.isDigit = false ∧ c ≠ '.') :
    Numeral.scanFraction cs = .ok (ds, rest) := by
  cases h with
  | absent =>
    unfold Numeral.scanFraction
    split
    · exact absurd rfl (hrest '.' rfl).2
    · rfl
  | present digits =>
    rw [Numeral.scanFraction, digits.takeDigits_eq fun c hc => (hrest c hc).1]
    split
    · rename_i heq
      exact absurd (Prod.mk.inj heq).1 digits.ne_nil
    · rfl

theorem fraction_of_scanFraction {ds : List Nat}
    (h : Numeral.scanFraction cs = .ok (ds, rest)) : Fraction ds cs rest := by
  unfold Numeral.scanFraction at h
  split at h
  · split at h
    · exact nomatch h
    · rename_i ne
      have taken := Except.ok.inj h
      refine .present (digits_of_takeDigits taken ?_)
      rintro rfl
      exact ne _ taken
  · obtain ⟨rfl, rfl⟩ := Prod.mk.inj (Except.ok.inj h)
    exact .absent

theorem scanSign_digit {c : Char} (hc : c.isDigit = true) (cs : List Char) :
    Numeral.scanSign (c :: cs) = (false, c :: cs) := by
  unfold Numeral.scanSign
  split
  · rename_i heq
    obtain rfl := (List.cons.inj heq).1
    exact nomatch hc
  · rename_i heq
    obtain rfl := (List.cons.inj heq).1
    exact nomatch hc
  · rfl

theorem scanExponent_digits {e : Char} {negative : Bool} {ds : List Nat} {after : List Char}
    (he : e = 'e' ∨ e = 'E') (hsign : Numeral.scanSign cs = (negative, after))
    (digits : Digits ds after rest) (hrest : EndsNumeral rest) :
    Numeral.scanExponent (e :: cs) = .ok (some (negative, ds), rest) := by
  rw [Numeral.scanExponent, if_pos he, hsign]
  dsimp only
  rw [digits.takeDigits_eq fun c hc => (hrest c hc).1]
  split
  · rename_i heq
    exact absurd (Prod.mk.inj heq).1 digits.ne_nil
  · rename_i heq
    obtain ⟨rfl, rfl⟩ := Prod.mk.inj heq
    rfl

theorem Exponent.scanExponent_eq {e : Option (Bool × List Nat)} (h : Exponent e cs rest)
    (hrest : EndsNumeral rest) : Numeral.scanExponent cs = .ok (e, rest) := by
  cases h with
  | absent => exact scanExponent_written hrest
  | plus he digits => exact scanExponent_digits he rfl digits hrest
  | present he sign digits =>
    cases sign with
    | present => exact scanExponent_digits he rfl digits hrest
    | absent =>
      obtain ⟨c, cs', rfl, hc⟩ := digits.head
      exact scanExponent_digits he (scanSign_digit hc cs') digits hrest

theorem exponent_of_scanExponent {e : Option (Bool × List Nat)}
    (h : Numeral.scanExponent cs = .ok (e, rest)) : Exponent e cs rest := by
  unfold Numeral.scanExponent at h
  split at h
  · rename_i c r
    split at h
    · rename_i he
      dsimp only at h
      split at h
      · exact nomatch h
      · rename_i ds after ne taken
        obtain ⟨rfl, rfl⟩ := Prod.mk.inj (Except.ok.inj h)
        have digits := digits_of_takeDigits taken fun none => ne (by rw [none])
        unfold Numeral.scanSign at digits ⊢
        split at digits
        · exact .plus he digits
        · exact .present he .present digits
        · exact .present he .absent digits
    · obtain ⟨rfl, rfl⟩ := Prod.mk.inj (Except.ok.inj h)
      exact .absent
  · obtain ⟨rfl, rfl⟩ := Prod.mk.inj (Except.ok.inj h)
    exact .absent

theorem Numeral.Spelled.head {n : Numeral} (h : n.Spelled cs rest) :
    ∃ c cs', cs = c :: cs' ∧ (c = '-' ∨ c.isDigit = true) := by
  obtain ⟨sign, digits, -, -, -⟩ := h
  cases sign with
  | present => exact ⟨_, _, rfl, .inl rfl⟩
  | absent =>
    obtain ⟨c, cs', rfl, hc⟩ := digits.head
    exact ⟨c, cs', rfl, .inr hc⟩

theorem Numeral.Spelled.scan_eq {n : Numeral} (h : n.Spelled cs rest)
    (hrest : EndsNumeral rest) : Numeral.scan cs = .ok (n, rest) := by
  obtain ⟨sign, digits, zero, fraction, exponent⟩ := h
  have scale := exponent.head hrest
  have whole := digits.scanWhole_eq zero (fraction.head scale)
  have point := fraction.scanFraction_eq scale
  have power := exponent.scanExponent_eq hrest
  cases sign with
  | present =>
    simp only [Numeral.scan, whole, point, power, bind, Except.bind]
    rfl
  | absent =>
    -- a digit is no minus sign
    obtain ⟨c, cs', rfl, hc⟩ := digits.head
    have unsigned : ∀ r, c :: cs' ≠ '-' :: r := by
      rintro r heq
      obtain rfl := (List.cons.inj heq).1
      exact nomatch hc
    unfold Numeral.scan
    split
    rename_i heq
    split at heq
    · rename_i r hr
      exact absurd hr (unsigned r)
    · obtain ⟨rfl, rfl⟩ := Prod.mk.inj heq
      simp only [whole, point, power, bind, Except.bind]
      rfl

theorem spelled_of_scan {n : Numeral} (h : Numeral.scan cs = .ok (n, rest)) :
    n.Spelled cs rest := by
  unfold Numeral.scan at h
  split at h
  rename_i negative unsigned heq
  have sign : Minus negative cs unsigned := by
    split at heq
    · obtain ⟨rfl, rfl⟩ := Prod.mk.inj heq
      exact .present
    · obtain ⟨rfl, rfl⟩ := Prod.mk.inj heq
      exact .absent
  obtain ⟨⟨whole, point⟩, hwhole, h⟩ := bind_eq_ok.1 h
  obtain ⟨⟨fraction, scale⟩, hfraction, h⟩ := bind_eq_ok.1 h
  obtain ⟨⟨exponent, last⟩, hexponent, h⟩ := bind_eq_ok.1 h
  obtain ⟨rfl, rfl⟩ := Prod.mk.inj (Except.ok.inj h)
  obtain ⟨digits, zero⟩ := digits_of_scanWhole hwhole
  exact .intro sign digits zero (fraction_of_scanFraction hfraction)
    (exponent_of_scanExponent hexponent)

theorem consPiece_eq {p : Piece} {s : Literal × Option (List Char)} {t : Literal}
    {o : Option (List Char)} (h : Literal.consPiece p s = (t, o)) :
    ∃ t', s = (t', o) ∧ t = ⟨p :: t'.pieces, t'.ending⟩ := by
  obtain ⟨rfl, rfl⟩ := Prod.mk.inj h
  exact ⟨s.1, rfl, rfl⟩

theorem scan_numbered {a b c d : Char} {n : Nat} (h : hexValue? a b c d = some n)
    (cs : List Char) : Literal.scan ('\\' :: 'u' :: a :: b :: c :: d :: cs) =
      Literal.consPiece (.unit n) (Literal.scan cs) := by
  rw [Literal.scan.eq_def]
  simp [h]

theorem Literal.Spelled.length_lt {t : Literal} (h : t.Spelled cs rest) :
    rest.length < cs.length := by
  induction h with
  | close => exact Nat.lt_succ_self _
  | plain _ _ _ _ ih | short _ _ ih | numbered _ _ ih =>
    simp only [List.length_cons]
    omega

theorem Literal.Spelled.scan_eq {t : Literal} (h : t.Spelled cs rest) :
    Literal.scan cs = (t, some rest) := by
  induction h with
  | close => exact scan_quote _
  | plain quote backslash high _ ih =>
    rw [scan_plain quote backslash (Nat.not_lt.2 high), ih]
    rfl
  | short he _ ih =>
    rw [scan_short he (by rintro rfl; exact nomatch he), ih]
    rfl
  | numbered hn _ ih =>
    rw [scan_numbered hn, ih]
    rfl

theorem scan_cases (cs : List Char) : (∃ b, Literal.scan cs = Literal.stopped b) ∨
    (∃ r, cs = '"' :: r ∧ Literal.scan cs = (⟨[], .closed⟩, some r)) ∨
    ∃ p r, r.length < cs.length ∧ Literal.scan cs = Literal.consPiece p (Literal.scan r) ∧
      ∀ {t : Literal} {rest : List Char}, t.Spelled r rest →
        Literal.Spelled ⟨p :: t.pieces, t.ending⟩ cs rest := by
  rw [Literal.scan.eq_def]
  cases cs with
  | nil => exact .inl ⟨_, rfl⟩
  | cons c r =>
    dsimp only
    split
    · subst c
      exact .inr (.inl ⟨r, rfl, rfl⟩)
    rename_i quote
    split
    · subst c
      split
      · exact .inl ⟨_, rfl⟩
      · rename_i e s
        split
        · subst e
          split
          · rename_i x y z w u
            split
            · rename_i n hn
              refine .inr (.inr ⟨.unit n, u, ?_, rfl, fun ht => .numbered hn ht⟩)
              simp only [List.length_cons]
              omega
            · exact .inl ⟨_, rfl⟩
          · exact .inl ⟨_, rfl⟩
        · split
          · rename_i x hx
            refine .inr (.inr ⟨.char x, s, ?_, rfl, fun ht => .short hx ht⟩)
            simp only [List.length_cons]
            omega
          · exact .inl ⟨_, rfl⟩
    rename_i backslash
    split
    · exact .inl ⟨_, rfl⟩
    · rename_i high
      exact .inr (.inr ⟨.char c, r, Nat.lt_succ_self _, rfl,
        fun ht => .plain quote backslash (Nat.not_lt.1 high) ht⟩)

theorem spelled_of_scanLiteral {cs : List Char} {t : Literal}
    (h : Literal.scan cs = (t, some rest)) : t.Spelled cs rest := by
  obtain ⟨b, stopped⟩ | ⟨r, rfl, closed⟩ | ⟨p, r, shorter, piece, spelled⟩ := scan_cases cs
  · rw [stopped] at h
    cases h
  · rw [closed] at h
    cases h
    exact .close
  · rw [piece] at h
    obtain ⟨t, ht, rfl⟩ := consPiece_eq h
    exact spelled (spelled_of_scanLiteral ht)
termination_by cs.length

theorem scanLiteral_stopped {cs : List Char} {t : Literal}
    (h : Literal.scan cs = (t, none)) : ∃ b, t.ending = .broken b := by
  obtain ⟨b, stopped⟩ | ⟨r, rfl, closed⟩ | ⟨p, r, shorter, piece, -⟩ := scan_cases cs
  · rw [stopped] at h
    cases h
    exact ⟨b, rfl⟩
  · rw [closed] at h
    cases h
  · rw [piece] at h
    obtain ⟨t, ht, rfl⟩ := consPiece_eq h
    obtain ⟨b, hb⟩ := scanLiteral_stopped ht
    exact ⟨b, hb⟩
termination_by cs.length

end DocTree.Json
