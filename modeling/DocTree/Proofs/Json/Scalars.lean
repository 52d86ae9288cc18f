import DocTree.Json.Literal
import DocTree.Json.Numeral
import DocTree.Json.Value

/-!
# Reading written numbers and strings

A number is written in decimal digits without a zero in front, and a string with
the characters escaped that may not stand in one. Scanning either ends behind it,
and what was scanned stands for the number or the string that was written.
-/
namespace DocTree.Json

def digitsOf (n : Nat) : List Nat := (Nat.toDigits 10 n).map fun c => c.toNat - '0'.toNat

def Numeral.ofNat (n : Nat) : Numeral := ⟨false, digitsOf n, [], none⟩

theorem digitChar_value {d : Nat} (h : d < 10) : d.digitChar.toNat - '0'.toNat = d := by
  have all : ∀ d < 10, d.digitChar.toNat - '0'.toNat = d := by decide
  exact all d h

theorem digitsOf_eq (n : Nat) :
    digitsOf n = if n < 10 then [n] else digitsOf (n / 10) ++ [n % 10] := by
  unfold digitsOf
  rw [Nat.toDigits_eq_if (by omega)]
  by_cases h : n < 10
  · rw [if_pos h, if_pos h, List.map_singleton, digitChar_value h]
  · have hd : n % 10 < 10 := Nat.mod_lt _ (by omega)
    rw [if_neg h, if_neg h, List.map_append, List.map_singleton, digitChar_value hd]

theorem valueOfDigits_append (ds : List Nat) (d : Nat) :
    valueOfDigits (ds ++ [d]) = valueOfDigits ds * 10 + d := by
  simp [valueOfDigits]

theorem valueOfDigits_digitsOf (n : Nat) : valueOfDigits (digitsOf n) = n := by
  induction n using Nat.strongRecOn with
  | ind n ih =>
    rw [digitsOf_eq]
    by_cases h : n < 10
    · simp [h, valueOfDigits]
    · have hlt : n / 10 < n := by omega
      rw [if_neg h, valueOfDigits_append, ih _ hlt]
      omega

theorem digitsOf_zero {n : Nat} {ds : List Nat} (h : digitsOf n = 0 :: ds) : ds = [] := by
  induction n using Nat.strongRecOn generalizing ds with
  | ind n ih =>
    rw [digitsOf_eq] at h
    by_cases hn : n < 10
    · rw [if_pos hn] at h
      exact (List.cons.inj h).2.symm
    · rw [if_neg hn] at h
      have hlt : n / 10 < n := by omega
      cases hq : digitsOf (n / 10) with
      | nil =>
        have := List.map_eq_nil_iff.1 hq
        exact absurd this Nat.toDigits_ne_nil
      | cons q qs =>
        rw [hq] at h
        obtain ⟨rfl, -⟩ := List.cons.inj h
        have hqs := ih _ hlt hq
        have hvalue := valueOfDigits_digitsOf (n / 10)
        rw [hq, hqs] at hvalue
        simp [valueOfDigits] at hvalue
        omega

def EndsNumeral (rest : List Char) : Prop :=
  ∀ c ∈ rest.head?, c.isDigit = false ∧ c ≠ '.' ∧ c ≠ 'e' ∧ c ≠ 'E'

theorem takeDigits_written {rest : List Char} (h : EndsNumeral rest) (n : Nat) :
    takeDigits (Nat.toDigits 10 n ++ rest) = (digitsOf n, rest) := by
  have digits : ∀ c ∈ Nat.toDigits 10 n, c.isDigit = true := fun c hc =>
    Nat.isDigit_of_mem_toDigits (by decide) (by decide) hc
  have stop : rest.takeWhile Char.isDigit = [] ∧ rest.dropWhile Char.isDigit = rest := by
    cases rest with
    | nil => exact ⟨rfl, rfl⟩
    | cons c rest =>
      have hc := (h c rfl).1
      simp [hc]
  rw [takeDigits, List.takeWhile_append_of_pos digits, List.dropWhile_append_of_pos digits,
    stop.1, stop.2, List.append_nil]
  rfl

theorem scanWhole_written {rest : List Char} (h : EndsNumeral rest) (n : Nat) :
    Numeral.scanWhole (Nat.toDigits 10 n ++ rest) = .ok (digitsOf n, rest) := by
  rw [Numeral.scanWhole, takeDigits_written h]
  split
  · rename_i heq
    have := List.map_eq_nil_iff.1 (Prod.mk.inj heq).1
    exact absurd this Nat.toDigits_ne_nil
  · rename_i heq
    exact absurd (digitsOf_zero (Prod.mk.inj heq).1) (List.cons_ne_nil _ _)
  · rfl

theorem scanFraction_written {rest : List Char} (h : EndsNumeral rest) :
    Numeral.scanFraction rest = .ok ([], rest) := by
  unfold Numeral.scanFraction
  split
  · exact absurd rfl (h '.' rfl).2.1
  · rfl

theorem scanExponent_written {rest : List Char} (h : EndsNumeral rest) :
    Numeral.scanExponent rest = .ok (none, rest) := by
  cases rest with
  | nil => rfl
  | cons c rest =>
    obtain ⟨-, -, he, hE⟩ := h c rfl
    rw [Numeral.scanExponent, if_neg (by simp [he, hE])]

theorem scan_written {rest : List Char} (h : EndsNumeral rest) (n : Nat) :
    Numeral.scan (Nat.toDigits 10 n ++ rest) = .ok (Numeral.ofNat n, rest) := by
  have unsigned : ∀ r, Nat.toDigits 10 n ++ rest ≠ '-' :: r := by
    intro r hr
    obtain ⟨c, cs, hcs⟩ := List.exists_cons_of_ne_nil (Nat.toDigits_ne_nil (n := n) (b := 10))
    have hc := Nat.isDigit_of_mem_toDigits (b := 10) (n := n) (c := c) (by decide) (by decide)
      (hcs ▸ List.mem_cons_self)
    rw [hcs] at hr
    rw [(List.cons.inj hr).1] at hc
    exact absurd hc (by decide)
  unfold Numeral.scan
  split
  rename_i negative cs heq
  split at heq
  · rename_i r hr
    exact absurd hr (unsigned r)
  · obtain ⟨rfl, rfl⟩ := Prod.mk.inj heq
    rw [scanWhole_written h]
    simp only [bind, Except.bind, scanFraction_written h, scanExponent_written h]
    rfl

theorem value_ofNat {n : Nat} (h : n < integerBound) :
    (Numeral.ofNat n).value = .ok (.integer n) := by
  have integer : (Numeral.ofNat n).toInteger? = some (n : Int) := by
    have hvalue : valueOfDigits (Numeral.ofNat n).whole = n := valueOfDigits_digitsOf n
    have integral : (Numeral.ofNat n).isInteger = true := rfl
    have unsigned : (Numeral.ofNat n).negative = false := rfl
    simp only [Numeral.toInteger?, hvalue, integral, unsigned, Bool.not_true, Bool.false_eq_true,
      if_false]
    exact if_pos h
  rw [Numeral.value, integer]

def pieceOf (c : Char) : Piece :=
  if c.toNat < 0x20 ∧ c ∉ ['\x08', '\x0c', '\n', '\r', '\t'] then .unit c.toNat else .char c

def Literal.ofText (s : String) : Literal := ⟨s.toList.map pieceOf, .closed⟩

theorem hexValue_low {n : Nat} (h : n < 0x20) :
    hexValue? '0' '0' (lowHexDigit (n / 16)) (lowHexDigit (n % 16)) = some n := by
  have all : ∀ n < 0x20,
      hexValue? '0' '0' (lowHexDigit (n / 16)) (lowHexDigit (n % 16)) = some n := by decide
  exact all n h

theorem scan_quote (cs : List Char) : Literal.scan ('"' :: cs) = (⟨[], .closed⟩, some cs) := by
  rw [Literal.scan.eq_def]
  rfl

theorem scan_short {e c : Char} (h : shortEscape? e = some c) (hu : e ≠ 'u') (cs : List Char) :
    Literal.scan ('\\' :: e :: cs) = Literal.consPiece (.char c) (Literal.scan cs) := by
  rw [Literal.scan.eq_def]
  simp [hu, h]

theorem scan_low {c : Char} (h : c.toNat < 0x20) (cs : List Char) :
    Literal.scan ('\\' :: 'u' :: '0' :: '0' :: lowHexDigit (c.toNat / 16) ::
      lowHexDigit (c.toNat % 16) :: cs) = Literal.consPiece (.unit c.toNat) (Literal.scan cs) := by
  rw [Literal.scan.eq_def]
  simp [hexValue_low h]

theorem scan_plain {c : Char} (quote : c ≠ '"') (backslash : c ≠ '\\') (high : ¬ c.toNat < 0x20)
    (cs : List Char) : Literal.scan (c :: cs) = Literal.consPiece (.char c) (Literal.scan cs) := by
  rw [Literal.scan.eq_def]
  simp only [quote, backslash, high, if_false]

theorem scan_escapeChar (c : Char) (cs : List Char) :
    Literal.scan (escapeChar c ++ cs) = Literal.consPiece (pieceOf c) (Literal.scan cs) := by
  unfold escapeChar
  split
  · subst c; exact scan_short rfl (by decide) cs
  split
  · subst c; exact scan_short rfl (by decide) cs
  split
  · subst c; exact scan_short rfl (by decide) cs
  split
  · subst c; exact scan_short rfl (by decide) cs
  split
  · subst c; exact scan_short rfl (by decide) cs
  split
  · subst c; exact scan_short rfl (by decide) cs
  split
  · subst c; exact scan_short rfl (by decide) cs
  rename_i quote backslash b f n r t
  split
  · rename_i low
    have unit : pieceOf c = .unit c.toNat := if_pos ⟨low, by simp [b, f, n, r, t]⟩
    rw [unit]
    exact scan_low low cs
  · rename_i high
    have char : pieceOf c = .char c := if_neg fun h => high h.1
    rw [char]
    exact scan_plain quote backslash high cs

theorem scan_flatMap (cs rest : List Char) :
    Literal.scan (cs.flatMap escapeChar ++ '"' :: rest) =
      (⟨cs.map pieceOf, .closed⟩, some rest) := by
  induction cs with
  | nil => exact scan_quote rest
  | cons c cs ih =>
    rw [List.flatMap_cons, List.append_assoc, scan_escapeChar, ih]
    rfl

theorem readPieces_pieceOf (cs : List Char) : readPieces .closed (cs.map pieceOf) = .ok cs := by
  induction cs with
  | nil => rfl
  | cons c cs ih =>
    rw [List.map_cons, pieceOf]
    split
    · rename_i low
      have trail : isTrail c.toNat = false := by simp [isTrail]; omega
      have lead : isLead c.toNat = false := by simp [isLead]; omega
      rw [readPieces.eq_def]
      simp only [trail, lead, ih, Char.ofNat_toNat, Bool.false_eq_true, if_false]
      rfl
    · rw [readPieces, ih]
      rfl

theorem read_ofText (s : String) : (Literal.ofText s).read = .ok s := by
  rw [Literal.read, Literal.ofText, readPieces_pieceOf, Except.map, String.ofList_toList]

end DocTree.Json
