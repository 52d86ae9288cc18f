import DocTree.Json.Basic
import DocTree.Number.Shortest

/-!
# Numbers

A numeral without point and exponent that fits 64 bits is an integer; every other
one, and `-0`, is a double. Of a numeral with too many digits only those count
that fit an unsigned 64 bit significand.
-/
namespace DocTree.Json

def takeDigits (cs : List Char) : List Nat × List Char :=
  ((cs.takeWhile Char.isDigit).map (fun c => c.toNat - '0'.toNat), cs.dropWhile Char.isDigit)

def digitsBreach : List Char → Breach
  | [] => .numberEnded
  | _ :: _ => .wrongNumber

namespace Numeral

def scanWhole (cs : List Char) : Except Breach (List Nat × List Char) :=
  match takeDigits cs with
  | ([], rest) => .error (digitsBreach rest)
  | (0 :: _ :: _, _) => .error .wrongNumber
  | scanned => .ok scanned

def scanFraction (cs : List Char) : Except Breach (List Nat × List Char) :=
  match cs with
  | '.' :: r =>
      match takeDigits r with
      | ([], rest) => .error (digitsBreach rest)
      | scanned => .ok scanned
  | _ => .ok ([], cs)

def scanSign : List Char → Bool × List Char
  | '+' :: r => (false, r)
  | '-' :: r => (true, r)
  | cs => (false, cs)

def scanExponent (cs : List Char) : Except Breach (Option (Bool × List Nat) × List Char) :=
  match cs with
  | c :: r =>
      if c = 'e' ∨ c = 'E' then
        let (negative, s) := scanSign r
        match takeDigits s with
        | ([], rest) => .error (digitsBreach rest)
        | (ds, rest) => .ok (some (negative, ds), rest)
      else .ok (none, cs)
  | [] => .ok (none, cs)

def scan (cs : List Char) : Except Breach (Numeral × List Char) := do
  let (negative, cs) := match cs with
    | '-' :: r => (true, r)
    | _ => (false, cs)
  let (whole, cs) ← scanWhole cs
  let (fraction, cs) ← scanFraction cs
  let (exponent, cs) ← scanExponent cs
  return (⟨negative, whole, fraction, exponent⟩, cs)

end Numeral

inductive Number where
  | integer (n : Int)
  | float (negative : Bool) (x : Binary64)
  deriving DecidableEq, Repr

def Number.found : Number → Found
  | .integer n => .integer n
  | .float negative x => .float (if negative then "-" ++ x.text else x.text)

def integerBound : Nat := 0x10000000000000000

/-- Appends digits to a significand as long as it has 64 bits, and returns the digits that found no
room. -/
def accumulate : Nat → List Nat → Nat × List Nat
  | n, [] => (n, [])
  | n, d :: ds => if n * 10 + d < integerBound then accumulate (n * 10 + d) ds else (n, d :: ds)

def valueOfDigits (ds : List Nat) : Nat := ds.foldl (fun n d => n * 10 + d) 0

/-- `x / 10 ^ e`, dividing by at most `10 ^ 308` at a time. Three divisions leave nothing of a
64 bit significand. -/
def shrink : Nat → Binary64 → Nat → Option Binary64
  | 0, _, _ => some .zero
  | steps + 1, x, e =>
      if e ≤ 308 then (Binary64.powerOfTen e).bind x.div
      else if x.isZero then some x
      else do
        let p ← Binary64.powerOfTen 308
        let y ← x.div p
        shrink steps y (e - 308)

def scaleByTen (significand : Nat) (exponent : Int) : Option Binary64 := do
  let x ← Binary64.ofNat significand
  if exponent < 0 then shrink 4 x exponent.natAbs
  else if 308 < exponent then if x.isZero then some x else none
  else
    let p ← Binary64.powerOfTen exponent.toNat
    x.mul p

namespace Numeral

def isInteger (n : Numeral) : Bool := n.fraction.isEmpty && n.exponent.isNone

def toDouble (n : Numeral) : Option Binary64 :=
  let (whole, dropped) := accumulate 0 n.whole
  let (significand, unread) := accumulate whole n.fraction
  let shift : Int := (dropped.length : Int) - (n.fraction.length - unread.length : Nat)
  match n.exponent with
  | none => scaleByTen significand shift
  | some (negative, ds) =>
      let e := valueOfDigits ds
      if 0x80000000 ≤ e then if significand = 0 ∨ negative then some .zero else none
      else scaleByTen significand (if negative then shift - e else shift + e)

def toInteger? (n : Numeral) : Option Int :=
  let v := valueOfDigits n.whole
  if !n.isInteger then none
  else if n.negative then if 0 < v ∧ v ≤ integerBound / 2 then some (-(v : Int)) else none
  else if v < integerBound then some v else none

def value (n : Numeral) : Except Fault Number :=
  match n.toInteger? with
  | some i => .ok (.integer i)
  | none =>
      match n.toDouble with
      | some x => .ok (.float n.negative x)
      | none => .error (.malformed .numberOutOfRange)

end Numeral

end DocTree.Json
