import DocTree.Number.Binary64

/-!
# Shortest decimal text of a double

The decimal with the fewest digits that rounds back to the double is found by
testing, for one digit, two digits and so on, the two neighbours of the value on
the grid of decimals with that many digits. Of two hits the nearer is taken, and of
two equally near ones the even one.
-/
namespace DocTree.Binary64

structure Decimal where
  digits : Nat
  exponent : Int
  deriving DecidableEq, Repr

def Decimal.ratio (d : Decimal) : Nat × Nat :=
  (d.digits * Nat.pow 10 d.exponent.toNat, Nat.pow 10 (-d.exponent).toNat)

def Decimal.dropZeros : Nat → Decimal → Decimal
  | 0, d => d
  | n + 1, d =>
      if d.digits ≠ 0 ∧ d.digits % 10 = 0 then dropZeros n ⟨d.digits / 10, d.exponent + 1⟩ else d

def decimalExponent (num den : Nat) : Int :=
  if den ≤ num then ((Nat.toDigits 10 (num / den)).length : Int) - 1
  else
    let c := (den + num - 1) / num
    Int.negOfNat (Nat.toDigits 10 (c - 1)).length

/-- Whether a decimal rounds back to the double: it lies between the midpoints to the two
neighbouring doubles, the midpoints included when the mantissa is even. -/
def reads (x : Binary64) (d : Decimal) : Bool :=
  let unit := Binary64.ratio ⟨1, x.exponent - 2⟩
  let below := if x.mantissa = mantissaBound / 2 ∧ -1074 < x.exponent then 1 else 2
  let v := d.ratio
  let at4 := v.1 * unit.2
  let low := (4 * x.mantissa - below) * unit.1 * v.2
  let high := (4 * x.mantissa + 2) * unit.1 * v.2
  if x.mantissa % 2 = 0 then low ≤ at4 && at4 ≤ high else low < at4 && at4 < high

def neighbours (x : Binary64) (n : Nat) : Decimal × Decimal :=
  let r := x.ratio
  let e := decimalExponent r.1 r.2 - (n - 1 : Nat)
  let floor := (r.1 * Nat.pow 10 (-e).toNat) / (r.2 * Nat.pow 10 e.toNat)
  (⟨floor, e⟩, ⟨floor + 1, e⟩)

def distance (x : Binary64) (d : Decimal) : Nat :=
  let a := x.ratio
  let b := d.ratio
  let u := a.1 * b.2
  let v := b.1 * a.2
  (u - v) + (v - u)

def withDigits (x : Binary64) (n : Nat) : Option Decimal :=
  let (a, b) := x.neighbours n
  match x.reads a, x.reads b with
  | true, true =>
      let nearB := x.distance b < x.distance a
      let tie := x.distance b = x.distance a
      some (if nearB ∨ (tie ∧ a.digits % 2 = 1) then b else a)
  | true, false => some a
  | false, true => some b
  | false, false => none

def shortest (x : Binary64) : Decimal :=
  match (List.range 17).findSome? (fun n => x.withDigits (n + 1)) with
  | some d => d.dropZeros 20
  | none => ⟨0, 0⟩

/-- Positional from `1e-5` up to `1e16`, with at least one digit after the point; scientific
outside, with a signed exponent and a point only before further digits. -/
def text (x : Binary64) : String :=
  if x.isZero then "0.0"
  else
    let d := x.shortest
    let ds := (toString d.digits).toList
    let n := ds.length
    let k := d.exponent + n - 1
    String.ofList <|
      if -5 ≤ k && k < 16 then
        if 0 ≤ d.exponent then ds ++ List.replicate d.exponent.toNat '0' ++ ['.', '0']
        else if 0 ≤ k then ds.take (k.toNat + 1) ++ '.' :: ds.drop (k.toNat + 1)
        else '0' :: '.' :: List.replicate ((-k).toNat - 1) '0' ++ ds
      else
        let sign := if 0 ≤ k then '+' else '-'
        let tail := if n = 1 then [] else '.' :: ds.drop 1
        ds.take 1 ++ tail ++ 'e' :: sign :: (toString k.natAbs).toList

end DocTree.Binary64
