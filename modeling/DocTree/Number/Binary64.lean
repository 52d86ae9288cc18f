/-!
# Double precision magnitudes

A finite non-negative double is `mantissa * 2 ^ exponent`. Every operation takes
the exact quotient of its operands as a ratio of natural numbers and rounds it
once, to the nearest double and to the even mantissa of two equally near ones.
-/
namespace DocTree

structure Binary64 where
  mantissa : Nat
  exponent : Int
  deriving DecidableEq, Repr

namespace Binary64

def zero : Binary64 := ⟨0, -1074⟩

def isZero (x : Binary64) : Bool := x.mantissa == 0

def ratio (x : Binary64) : Nat × Nat :=
  (x.mantissa * Nat.pow 2 x.exponent.toNat, Nat.pow 2 (-x.exponent).toNat)

def roundQuotient (num den : Nat) : Nat :=
  let q := num / den
  let r := 2 * (num % den)
  if r < den then q else if den < r then q + 1 else q + q % 2

def scaled (num den : Nat) (e : Int) : Nat × Nat :=
  (num * Nat.pow 2 (-e).toNat, den * Nat.pow 2 e.toNat)

def mantissaBound : Nat := 0x20000000000000

/-- The exponent whose mantissa for `num / den` has 53 bits, or the least one there is. -/
def exponentFor (num den : Nat) : Int :=
  let e : Int := (num.log2 : Int) - den.log2 - 53
  let s := scaled num den e
  max (if mantissaBound ≤ s.1 / s.2 then e + 1 else e) (-1074)

/-- The nearest double, `none` when it is above every finite one. -/
def ofRatio (num den : Nat) : Option Binary64 :=
  if num = 0 then some zero
  else
    let e := exponentFor num den
    let s := scaled num den e
    let m := roundQuotient s.1 s.2
    let x : Binary64 := if m = mantissaBound then ⟨mantissaBound / 2, e + 1⟩ else ⟨m, e⟩
    if 971 < x.exponent then none else some x

def ofNat (n : Nat) : Option Binary64 := ofRatio n 1

def mul (x y : Binary64) : Option Binary64 :=
  let a := x.ratio
  let b := y.ratio
  ofRatio (a.1 * b.1) (a.2 * b.2)

def div (x y : Binary64) : Option Binary64 :=
  let a := x.ratio
  let b := y.ratio
  ofRatio (a.1 * b.2) (a.2 * b.1)

def powerOfTen (k : Nat) : Option Binary64 := ofRatio (Nat.pow 10 k) 1

end Binary64

end DocTree
