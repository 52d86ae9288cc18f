import DocTree.Json.Literal
import DocTree.TypeText

/-!
# Quoted text as a string literal

A string literal of TypeScript is read by an automaton that takes one character at a time and
gives the UTF-16 code units that the literal stands for. Text in quotes is read back as the text
just when no backslash and no line break is in it: a quote is escaped, a backslash is not. Any
escape takes more characters than it gives code units, so the backslashes of a text are lost even
where the literal is complete.
-/
namespace DocTree

namespace StringLiteral

def unitsOfNat (n : Nat) : List Nat :=
  if n < 0x10000 then [n] else [0xD800 + (n - 0x10000) / 0x400, 0xDC00 + (n - 0x10000) % 0x400]

def charUnits (c : Char) : List Nat := unitsOfNat c.toNat

def units (s : String) : List Nat := s.toList.flatMap charUnits

inductive State where
  | plain
  | escape
  | lineFeed
  | brace
  | digits (more value : Nat)
  | point (value : Option Nat)
  | closed
  deriving DecidableEq

def letterEscapes : List (Char × Nat) :=
  [('b', 8), ('t', 9), ('n', 10), ('v', 11), ('f', 12), ('r', 13)]

def escapedUnits (c : Char) : List Nat :=
  match letterEscapes.lookup c with
  | some n => [n]
  | none => charUnits c

def isLineBreak (c : Char) : Bool := c == '\n' || c == '\r'

/-- Reads a character that no backslash stands before. A line break may stand in the literal as it
is when `breaks` says so; in TypeScript it may not. -/
def plainStep (breaks : Bool) (c : Char) : Option (List Nat × State) :=
  if c = '"' then some ([], .closed)
  else if c = '\\' then some ([], .escape)
  else if isLineBreak c && !breaks then none
  else some (charUnits c, .plain)

def escapeStep (c : Char) (next : Option Char) : Option (List Nat × State) :=
  if c = 'x' then some ([], .digits 1 0)
  else if c = 'u' then some ([], if next = some '\x7b' then .brace else .digits 3 0)
  else if c = '\r' then some ([], if next = some '\n' then .lineFeed else .plain)
  else if c = '\n' ∨ c = '\u2028' ∨ c = '\u2029' then some ([], .plain)
  else if c.isDigit then
    if c = '0' ∧ next.any Char.isDigit = false then some ([0], .plain) else none
  else some (escapedUnits c, .plain)

def digitStep (c : Char) (value : Nat) : Nat → Option (List Nat × State)
  | 0 => (Json.hexDigit? c).map fun d => ([value * 16 + d], .plain)
  | more + 1 => (Json.hexDigit? c).map fun d => ([], .digits more (value * 16 + d))

def pointStep (c : Char) : Option Nat → Option (List Nat × State)
  | none => (Json.hexDigit? c).map fun d => ([], .point (some d))
  | some n =>
      if c ≠ '\x7d' then (Json.hexDigit? c).map fun d => ([], .point (some (n * 16 + d)))
      else if n ≤ 0x10FFFF then some (unitsOfNat n, .plain) else none

def State.step (breaks : Bool) (c : Char) (next : Option Char) : State → Option (List Nat × State)
  | .plain => plainStep breaks c
  | .escape => escapeStep c next
  | .lineFeed => some ([], .plain)
  | .brace => some ([], .point none)
  | .digits more value => digitStep c value more
  | .point value => pointStep c value
  | .closed => none

def read (breaks : Bool) : State → List Char → Option (List Nat)
  | q, [] => if q = .closed then some [] else none
  | q, c :: cs =>
      (q.step breaks c cs.head?).bind fun (us, q') => (read breaks q' cs).map (us ++ ·)

def denoted? (breaks : Bool) (s : String) : Option (List Nat) :=
  match s.toList with
  | '"' :: cs => read breaks .plain cs
  | _ => none

/-- How many code units a literal needs at least for the given ones: for a quote and for a backslash
it needs an escape. -/
def weight (us : List Nat) : Nat := us.length + us.count '"'.toNat + us.count '\\'.toNat

def State.credit : State → Nat
  | .plain | .lineFeed => 0
  | _ => 1

theorem weight_append (us vs : List Nat) : weight (us ++ vs) = weight us + weight vs := by
  simp only [weight, List.length_append, List.count_append]
  omega

theorem weight_singleton (n : Nat) : weight [n] ≤ 2 := by
  by_cases hn : n = '"'.toNat
  · rw [hn]
    decide
  · have quotes : [n].count '"'.toNat = 0 := List.count_eq_zero.2 (by simpa using Ne.symm hn)
    have backslashes : [n].count '\\'.toNat ≤ 1 := List.count_le_length
    rw [weight, quotes, List.length_singleton]
    omega

theorem weight_pair {m n : Nat} (hm : 0xD800 ≤ m) (hn : 0xD800 ≤ n) : weight [m, n] = 2 := by
  have notMem {k : Nat} (hk : k < 0xD800) : [m, n].count k = 0 := by
    refine List.count_eq_zero.2 fun h => ?_
    simp only [List.mem_cons, List.not_mem_nil, or_false] at h
    omega
  rw [weight, notMem (by decide), notMem (by decide)]
  rfl

theorem weight_unitsOfNat (n : Nat) : weight (unitsOfNat n) ≤ 2 := by
  unfold unitsOfNat
  split
  · exact weight_singleton n
  · exact Nat.le_of_eq (weight_pair (by omega) (by omega))

theorem charUnits_length_pos (c : Char) : 1 ≤ (charUnits c).length := by
  unfold charUnits unitsOfNat
  split <;> simp

theorem weight_charUnits (c : Char) :
    weight (charUnits c) = (charUnits c).length + [c].count '"' + [c].count '\\' := by
  unfold charUnits unitsOfNat
  split
  · simp only [weight, List.count_singleton, beq_iff_eq, Char.toNat_inj]
  · rename_i large
    have notMem {d : Char} (hd : d.toNat < 0x10000) : [c].count d = 0 := by
      refine List.count_eq_zero.2 fun h => large ?_
      rw [← List.mem_singleton.1 h]
      exact hd
    rw [weight_pair (by omega) (by omega), notMem (by decide), notMem (by decide)]
    rfl

theorem weight_units (s : String) :
    weight (units s) = (units s).length + s.toList.count '"' + s.toList.count '\\' := by
  unfold units
  induction s.toList with
  | nil => rfl
  | cons c cs ih =>
    have first (d : Char) : (c :: cs).count d = [c].count d + cs.count d := by
      rw [← List.count_append, List.singleton_append]
    rw [List.flatMap_cons, weight_append, weight_charUnits, ih, first, first, List.length_append]
    omega

theorem weight_escapedUnits (c : Char) : weight (escapedUnits c) ≤ 2 := by
  unfold escapedUnits
  split
  · exact weight_singleton _
  · exact weight_unitsOfNat _

section Reading

variable {breaks : Bool}

theorem plainStep_weight {c : Char} {us : List Nat} {q : State}
    (h : plainStep breaks c = some (us, q)) : weight us + q.credit ≤ (charUnits c).length := by
  have taken := charUnits_length_pos c
  unfold plainStep at h
  split at h
  · obtain ⟨rfl, rfl⟩ := Prod.mk.inj (Option.some.inj h)
    exact taken
  split at h
  · obtain ⟨rfl, rfl⟩ := Prod.mk.inj (Option.some.inj h)
    exact taken
  split at h
  · cases h
  · rename_i quote backslash _
    obtain ⟨rfl, rfl⟩ := Prod.mk.inj (Option.some.inj h)
    rw [weight_charUnits, List.count_eq_zero.2, List.count_eq_zero.2]
    · exact Nat.le_refl _
    · simpa using Ne.symm backslash
    · simpa using Ne.symm quote

theorem weight_nothing (q : State) : weight [] + q.credit ≤ 2 := by
  cases q <;> exact Nat.le_of_ble_eq_true rfl

theorem escapeStep_weight {c : Char} {next : Option Char} {us : List Nat} {q : State}
    (h : escapeStep c next = some (us, q)) : weight us + q.credit ≤ 2 := by
  have nothing {q' : State} (h : some ([], q') = some (us, q)) : weight us + q.credit ≤ 2 := by
    obtain ⟨rfl, rfl⟩ := Prod.mk.inj (Option.some.inj h)
    exact weight_nothing _
  unfold escapeStep at h
  split at h
  · exact nothing h
  split at h
  · exact nothing h
  split at h
  · exact nothing h
  split at h
  · exact nothing h
  split at h
  · split at h
    · obtain ⟨rfl, rfl⟩ := Prod.mk.inj (Option.some.inj h)
      decide
    · cases h
  · obtain ⟨rfl, rfl⟩ := Prod.mk.inj (Option.some.inj h)
    exact weight_escapedUnits c

theorem digitStep_weight {c : Char} {value more : Nat} {us : List Nat} {q : State}
    (h : digitStep c value more = some (us, q)) : weight us + q.credit ≤ 2 := by
  cases more with
  | zero =>
    obtain ⟨d, -, h⟩ := Option.map_eq_some_iff.1 h
    obtain ⟨rfl, rfl⟩ := Prod.mk.inj h
    exact weight_singleton _
  | succ more =>
    obtain ⟨d, -, h⟩ := Option.map_eq_some_iff.1 h
    obtain ⟨rfl, rfl⟩ := Prod.mk.inj h
    exact weight_nothing _

theorem pointStep_weight {c : Char} {value : Option Nat} {us : List Nat} {q : State}
    (h : pointStep c value = some (us, q)) : weight us + q.credit ≤ 2 := by
  cases value with
  | none =>
    obtain ⟨d, -, h⟩ := Option.map_eq_some_iff.1 h
    obtain ⟨rfl, rfl⟩ := Prod.mk.inj h
    exact weight_nothing _
  | some n =>
    rw [pointStep] at h
    split at h
    · obtain ⟨d, -, h⟩ := Option.map_eq_some_iff.1 h
      obtain ⟨rfl, rfl⟩ := Prod.mk.inj h
      exact weight_nothing _
    split at h
    · obtain ⟨rfl, rfl⟩ := Prod.mk.inj (Option.some.inj h)
      exact weight_unitsOfNat n
    · cases h

theorem State.step_weight {q q' : State} {c : Char} {next : Option Char} {us : List Nat}
    (h : q.step breaks c next = some (us, q')) :
    weight us + q'.credit ≤ (charUnits c).length + q.credit := by
  have taken := charUnits_length_pos c
  have enough (given : weight us + q'.credit ≤ 2) (credit : q.credit = 1) :
      weight us + q'.credit ≤ (charUnits c).length + q.credit := by
    omega
  cases q with
  | plain => exact plainStep_weight h
  | escape => exact enough (escapeStep_weight h) rfl
  | lineFeed =>
    obtain ⟨rfl, rfl⟩ := Prod.mk.inj (Option.some.inj h)
    exact Nat.zero_le _
  | brace =>
    obtain ⟨rfl, rfl⟩ := Prod.mk.inj (Option.some.inj h)
    exact Nat.le_add_left _ _
  | digits more value => exact enough (digitStep_weight h) rfl
  | point value => exact enough (pointStep_weight h) rfl
  | closed => cases h

theorem read_weight {q : State} {cs : List Char} {us : List Nat}
    (h : read breaks q cs = some us) :
    weight us + 1 ≤ (cs.flatMap charUnits).length + q.credit := by
  induction cs generalizing q us with
  | nil =>
    rw [read] at h
    split at h
    · rename_i closed
      obtain rfl := Option.some.inj h
      rw [closed]
      decide
    · cases h
  | cons c cs ih =>
    obtain ⟨⟨vs, q'⟩, step, h⟩ := Option.bind_eq_some_iff.1 h
    obtain ⟨ws, behind, rfl⟩ := Option.map_eq_some_iff.1 h
    have here := State.step_weight step
    have rest := ih behind
    rw [List.flatMap_cons, List.length_append, weight_append]
    omega

def escaped (cs : List Char) : List Char := cs.flatMap fun c => if c = '"' then ['\\', '"'] else [c]

theorem denoted?_inQuotes (s : String) :
    denoted? breaks (inQuotes s) = read breaks .plain (escaped s.toList ++ ['"']) := by
  have chars : (inQuotes s).toList = '"' :: (escaped s.toList ++ ['"']) := by
    simp [inQuotes, escaped]
  rw [denoted?, chars]
  rfl

theorem length_escaped (cs : List Char) :
    ((escaped cs).flatMap charUnits).length = (cs.flatMap charUnits).length + cs.count '"' := by
  induction cs with
  | nil => rfl
  | cons c cs ih =>
    rw [escaped, List.flatMap_cons, ← escaped, List.flatMap_append, List.length_append, ih,
      List.flatMap_cons, List.length_append]
    by_cases hc : c = '"'
    · rw [if_pos hc, hc, List.count_cons_self]
      have : (['\\', '"'].flatMap charUnits).length = 2 := rfl
      have : (charUnits '"').length = 1 := rfl
      omega
    · rw [if_neg hc, List.flatMap_singleton, List.count_cons_of_ne hc]
      omega

theorem backslash_notMem {s : String} (h : denoted? breaks (inQuotes s) = some (units s)) :
    '\\' ∉ s.toList := by
  rw [denoted?_inQuotes] at h
  have weights := read_weight h
  have closing : (['"'].flatMap charUnits).length = 1 := rfl
  have credit : State.plain.credit = 0 := rfl
  rw [weight_units, List.flatMap_append, List.length_append, length_escaped, closing, credit,
    units] at weights
  exact List.count_eq_zero.1 (by omega)

theorem read_step {q q' : State} {c : Char} {cs : List Char} {us : List Nat}
    (h : q.step breaks c cs.head? = some (us, q')) :
    read breaks q (c :: cs) = (read breaks q' cs).map (us ++ ·) := by
  rw [read, h]
  rfl

theorem read_quote (cs : List Char) :
    read breaks .plain ('\\' :: '"' :: cs) = (read breaks .plain cs).map (charUnits '"' ++ ·) := by
  have begun : State.plain.step breaks '\\' (some '"') = some ([], .escape) := rfl
  have ended : State.escape.step breaks '"' cs.head? = some (charUnits '"', .plain) := rfl
  rw [read_step begun, read_step ended]
  exact Option.map_id'

section Char

variable {c : Char} (hquote : c ≠ '"') (hbackslash : c ≠ '\\') (cs : List Char)
include hquote hbackslash

theorem read_char (hbreak : isLineBreak c = true → breaks = true) :
    read breaks .plain (c :: cs) = (read breaks .plain cs).map (charUnits c ++ ·) := by
  have taken : State.plain.step breaks c cs.head? = some (charUnits c, .plain) := by
    rw [State.step, plainStep, if_neg hquote, if_neg hbackslash, if_neg]
    simpa using hbreak
  exact read_step taken

theorem read_break (hbreak : isLineBreak c = true) (hb : breaks = false) :
    read breaks .plain (c :: cs) = none := by
  have refused : State.plain.step breaks c cs.head? = none := by
    rw [State.step, plainStep, if_neg hquote, if_neg hbackslash, if_pos]
    simp [hbreak, hb]
  rw [read, refused]
  rfl

end Char

theorem map_append_eq_some_iff {us vs : List Nat} {o : Option (List Nat)} :
    o.map (us ++ ·) = some (us ++ vs) ↔ o = some vs := by
  cases o <;> simp

theorem read_escaped {cs : List Char} (h : '\\' ∉ cs) :
    read breaks .plain (escaped cs ++ ['"']) = some (cs.flatMap charUnits) ↔
      ∀ c ∈ cs, isLineBreak c = true → breaks = true := by
  induction cs with
  | nil => simp [escaped, read, State.step, plainStep]
  | cons c cs ih =>
    rw [List.mem_cons, not_or] at h
    rw [List.forall_mem_cons, ← ih h.2, escaped, List.flatMap_cons, ← escaped, List.append_assoc,
      List.flatMap_cons]
    by_cases hquote : c = '"'
    · subst hquote
      have noBreak : isLineBreak '"' = true → breaks = true := fun h => absurd h (by decide)
      rw [if_pos rfl, List.cons_append, List.singleton_append, read_quote, map_append_eq_some_iff]
      exact (and_iff_right noBreak).symm
    rw [if_neg hquote, List.singleton_append]
    by_cases hbreak : isLineBreak c = true → breaks = true
    · rw [read_char hquote (Ne.symm h.1) _ hbreak, map_append_eq_some_iff]
      exact (and_iff_right hbreak).symm
    · obtain ⟨isBreak, refused⟩ := Classical.not_imp.1 hbreak
      rw [read_break hquote (Ne.symm h.1) _ isBreak (eq_false_of_ne_true refused)]
      exact iff_of_false nofun fun all => hbreak all.1

end Reading

def Unescaped (breaks : Bool) (s : String) : Prop :=
  ∀ c ∈ s.toList, c ≠ '\\' ∧ (isLineBreak c = true → breaks = true)

instance (breaks : Bool) (s : String) : Decidable (Unescaped breaks s) :=
  List.decidableBAll (fun c => c ≠ '\\' ∧ (isLineBreak c = true → breaks = true)) s.toList

theorem denoted?_inQuotes_iff (breaks : Bool) (s : String) :
    denoted? breaks (inQuotes s) = some (units s) ↔ Unescaped breaks s := by
  constructor
  · intro h c hc
    have noBackslash := backslash_notMem h
    rw [denoted?_inQuotes, units, read_escaped noBackslash] at h
    exact ⟨fun hbackslash => noBackslash (hbackslash ▸ hc), h c hc⟩
  · intro h
    rw [denoted?_inQuotes, units, read_escaped fun hc => (h _ hc).1 rfl]
    exact fun c hc => (h c hc).2

end StringLiteral

open StringLiteral

theorem Reflection.exists_memberText_eq (m : Reflection) :
    ∃ rest, m.memberText = memberName m.name ++ rest := by
  obtain ⟨name, kind, flags, comment, type, defaultValue, sources, signatures⟩ := m
  unfold memberText
  split
  · exact ⟨_, rfl⟩
  · rw [String.append_assoc, String.append_assoc]
    exact ⟨_, rfl⟩

/-- The quoted text of a string literal type, or of a member whose name is no identifier, is one
complete literal for its text just when the text has no backslash and no line break. Where line
breaks may stand in a literal, it has to have no backslash. -/
theorem TypeExpr.quoted_reads_back_iff (breaks : Bool) :
    (∀ value, denoted? breaks (TypeExpr.stringLiteral value).text = some (units value) ↔
      Unescaped breaks value) ∧
    ∀ m : Reflection, isIdentifier m.name = false →
      (∃ rest, m.memberText = memberName m.name ++ rest) ∧
      (denoted? breaks (memberName m.name) = some (units m.name) ↔ Unescaped breaks m.name) := by
  constructor
  · intro value
    rw [TypeExpr.text, denoted?_inQuotes_iff]
  · intro m hname
    refine ⟨m.exists_memberText_eq, ?_⟩
    rw [memberName, if_neg (by simp [hname]), denoted?_inQuotes_iff]

def Reflection.named (name : String) : Reflection :=
  ⟨name, .property, none, none, none, none, [], [], [], [], []⟩

theorem TypeExpr.quoted_reads_back_iff_quotes :
    denoted? false (TypeExpr.stringLiteral "a \"b\"").text = some (units "a \"b\"") ∧
    isIdentifier (Reflection.named "b \"c\"").name = false ∧
    denoted? false (memberName "b \"c\"") = some (units "b \"c\"") ∧
    denoted? false (memberName "b\nc") ≠ some (units "b\nc") ∧
    denoted? true (memberName "b\nc") = some (units "b\nc") := by
  refine ⟨((TypeExpr.quoted_reads_back_iff false).1 _).2 (by decide), by decide, ?quotes, ?strict,
    ?breaks⟩
  case quotes =>
    exact ((TypeExpr.quoted_reads_back_iff false).2 (.named "b \"c\"") (by decide)).2.2 (by decide)
  case strict =>
    exact mt ((TypeExpr.quoted_reads_back_iff false).2 (.named "b\nc") (by decide)).2.1 (by decide)
  case breaks =>
    exact ((TypeExpr.quoted_reads_back_iff true).2 (.named "b\nc") (by decide)).2.2 (by decide)

/-- A backslash at the end takes the closing quote, and one before a letter makes another text. -/
theorem TypeExpr.quoted_backslash_lost :
    denoted? true (TypeExpr.stringLiteral "a\\").text = none ∧
    denoted? true (TypeExpr.stringLiteral "\\n").text = some (units "\n") ∧
    denoted? true (memberName "a\\") = none ∧
    ¬ (∀ value, denoted? true (TypeExpr.stringLiteral value).text = some (units value)) ∧
    ¬ ∀ m : Reflection, isIdentifier m.name = false →
      denoted? true (memberName m.name) = some (units m.name) := by
  refine ⟨by decide, by decide, by decide, ?literal, ?member⟩
  case literal =>
    intro all
    exact absurd (all "a\\") (by decide)
  case member =>
    intro all
    exact absurd (all (.named "a\\") (by decide)) (by decide)

end DocTree
