/-!
# The shortest decimal of a double

A finite double is `m * 2 ^ q`. Every real in an interval around it rounds to it; of the decimals in
the interval, the one with the fewest digits is written, and of those the nearest.
-/

namespace HindiScript.Decimal

/-- `2 ^ n`. -/
def twoTo (n : Nat) : Nat := Nat.pow 2 n

/-- `10 ^ n`. -/
def tenTo (n : Nat) : Nat := Nat.pow 10 n

/-- A positive double as an integer times a power of two. `atPower` tells that the doubles below it
are twice as close as those above. -/
structure Binary where
  mantissa : Nat
  exponent : Int
  atPower : Bool

/-- The size of a finite double. -/
def Binary.ofFloat (x : Float) : Binary :=
  let bits : Nat := x.toBits.toNat
  let fraction : Nat := bits % twoTo 52
  let biased : Nat := bits / twoTo 52 % twoTo 11
  if biased = 0 then ⟨fraction, -1074, false⟩
  else ⟨fraction + twoTo 52, (biased : Int) - 1075, fraction = 0 && 1 < biased⟩

/-- A decimal: digits times a power of ten. -/
structure Digits where
  digits : Nat
  power : Int
  deriving DecidableEq, Repr

/-- The number of decimal digits. -/
def digitCount (n : Nat) : Nat := (Nat.toDigits 10 n).length

/-- `a * 10 ^ i ≤ b * 2 ^ j`, without fractions. -/
def leBinary (a : Nat) (i : Int) (b : Nat) (j : Int) : Bool :=
  a * tenTo i.toNat * twoTo (-j).toNat ≤ b * twoTo j.toNat * tenTo (-i).toNat

/-- `a * 2 ^ i ≤ b * 10 ^ j`, without fractions. -/
def binaryLe (a : Nat) (i : Int) (b : Nat) (j : Int) : Bool :=
  a * twoTo i.toNat * tenTo (-j).toNat ≤ b * tenTo j.toNat * twoTo (-i).toNat

/-- The decimal `d` rounds to `b`. The ends of the interval do so if the mantissa is even. -/
def rounds (b : Binary) (d : Digits) : Bool :=
  let low := 4 * b.mantissa - (if b.atPower then 1 else 2)
  let high := 4 * b.mantissa + 2
  let unit := b.exponent - 2
  if b.mantissa % 2 = 0 then
    binaryLe low unit d.digits d.power && leBinary d.digits d.power high unit
  else
    !leBinary d.digits d.power low unit && !binaryLe high unit d.digits d.power

/-- The power of ten of the first digit of `b`. -/
def leadingPower (b : Binary) : Int :=
  let num := b.mantissa * twoTo b.exponent.toNat
  let den := twoTo (-b.exponent).toNat
  if den ≤ num then (digitCount (num / den) : Int) - 1
  else -(digitCount ((den - 1) / num) : Int)

/-- The decimals just below and above `b` on the grid of `10 ^ power`: the one below, and whether the other is
strictly nearer. -/
def neighbours (b : Binary) (power : Int) : Nat × Bool :=
  let num := b.mantissa * twoTo b.exponent.toNat * tenTo (-power).toNat
  let den := twoTo (-b.exponent).toNat * tenTo power.toNat
  (num / den, den < 2 * (num % den) || (den = 2 * (num % den) && num / den % 2 = 1))

/-- The decimal with `count` digits that rounds to `b`, if there is one. -/
def withDigits (b : Binary) (count : Nat) : Option Digits :=
  let power := leadingPower b - count + 1
  let (below, aboveIsNearer) := neighbours b power
  let nearer : Digits := ⟨if aboveIsNearer then below + 1 else below, power⟩
  let farther : Digits := ⟨if aboveIsNearer then below else below + 1, power⟩
  if rounds b nearer then some nearer
  else if rounds b farther then some farther
  else none

/-- The shortest decimal that `rounds` to a positive double; seventeen digits are always enough. -/
def shortest (b : Binary) : Digits :=
  ((List.range 17).findSome? fun n => withDigits b (n + 1)).getD ⟨b.mantissa, 0⟩

/-- How a double is written out. -/
structure Format where
  /-- The text of a value that is no number. -/
  notANumber : String
  /-- The text of a value beyond all numbers. -/
  infinite : String

/-- The digits without the zeros at their end. -/
def significant (n : Nat) : List Char :=
  ((Nat.toDigits 10 n).reverse.dropWhile (· = '0')).reverse

/-- A decimal written out. The point stands among the digits where at most sixteen stand before it and
at most three zeros after it; otherwise the digits are followed by a power of ten, which has a sign
and at least two digits. -/
def writeDigits (d : Digits) : String :=
  let digits := significant d.digits
  let point : Int := (digitCount d.digits : Int) + d.power
  if -4 < point ∧ point ≤ 16 then
    if point ≤ 0 then
      String.ofList ("0.".toList ++ List.replicate (-point).toNat '0' ++ digits)
    else
      let whole := digits.take point.toNat ++ List.replicate (point.toNat - digits.length) '0'
      let part := digits.drop point.toNat
      String.ofList (whole ++ ['.'] ++ if part.isEmpty then ['0'] else part)
  else
    let exponent := point - 1
    let size := Nat.toDigits 10 exponent.natAbs
    let sign := if exponent < 0 then '-' else '+'
    let part := if digits.length ≤ 1 then [] else '.' :: digits.drop 1
    String.ofList (digits.take 1 ++ part ++ ['e', sign] ++
      List.replicate (2 - size.length) '0' ++ size)

def write (format : Format) (x : Float) : String :=
  if x.isNaN then format.notANumber
  else
    let sign := if x.toBits.toNat / twoTo 63 = 1 then "-" else ""
    if x.isInf then sign ++ format.infinite
    else
      let b := Binary.ofFloat x
      if b.mantissa = 0 then sign ++ "0.0" else sign ++ writeDigits (shortest b)

/-- The double nearest to a decimal. A power of ten far out of range is not computed. -/
def toFloat (d : Digits) : Float :=
  if d.digits = 0 then 0.0
  else
    let size := (digitCount d.digits : Int) + d.power
    if size < -400 then 0.0
    else if 400 < size then 1.0 / 0.0
    else Float.ofScientific d.digits (d.power < 0) d.power.natAbs

end HindiScript.Decimal
