/-!
# Floating-point numbers

Numbers as they are read and written: the nearest number to a decimal, and the shortest decimal for a number.
-/

namespace DocOutline

/-! ## Binary floating-point numbers of 64 bits

A number is its sign and the 63 bits below it. Read as a natural number, these bits order the magnitudes by
size, so "the next larger magnitude" is the successor. All arithmetic is exact: a magnitude stands for a
whole number of units of 2 to the power -1074, and a decimal is read by comparing fractions.
-/

/-- A binary floating-point number: its sign, and its exponent and fraction bits as one number. -/
structure Binary64 where
  negative : Bool
  magnitude : Nat
deriving DecidableEq, Repr

namespace Binary64

/-- One more than the largest fraction: the fraction is the last 52 bits of a magnitude. -/
def fractionModulus : Nat := 1 <<< 52

/-- The magnitude of infinity. All larger ones are no numbers. -/
def infinity : Nat := 2047 * fractionModulus

def notANumber : Binary64 := ⟨false, infinity + fractionModulus / 2⟩

/-- How many units make one: the smallest positive number is a unit. -/
def unitsPerOne : Nat := 1 <<< 1074

def units (magnitude : Nat) : Nat :=
  if magnitude < 2 * fractionModulus then magnitude
  else (fractionModulus + magnitude % fractionModulus) <<< (magnitude / fractionModulus - 1)

/-- The largest magnitude that stands for at most `n` units. -/
def below (n : Nat) : Nat :=
  if n < 2 * fractionModulus then n else (n.log2 - 52) * fractionModulus + (n >>> (n.log2 - 52))

/-- The magnitude nearest to `num / den` units. A tie goes to the even one. -/
def nearest (num den : Nat) : Nat :=
  let low := below (num / den)
  let middle := (units low + units (low + 1)) * den
  if 2 * num < middle then low
  else if middle < 2 * num then low + 1
  else if low % 2 = 0 then low else low + 1

/-- The largest power of ten that a finite number can need. -/
def maxPower : Nat := 400

/-- The magnitude nearest to `digits` times ten to the power `exponent`, infinity at most. The first three
cases are those in which the answer needs no computation. -/
def magnitudeOfDecimal (digits : Nat) (exponent : Int) : Nat :=
  if digits = 0 then 0
  else if maxPower < exponent then infinity
  else if exponent + (digits.log2 / 3 + 1) < -maxPower then 0
  else min infinity
    (nearest (digits * Nat.pow 10 exponent.toNat * unitsPerOne) (Nat.pow 10 (-exponent).toNat))

def ofDecimal (negative : Bool) (digits : Nat) (exponent : Int) : Binary64 :=
  ⟨negative, magnitudeOfDecimal digits exponent⟩

def isFinite (x : Binary64) : Bool := x.magnitude < infinity

/-- The integer next to a finite number on the side of zero. -/
def truncate (x : Binary64) : Int :=
  let whole : Int := units x.magnitude / unitsPerOne
  if x.negative then -whole else whole

/-- The units of a finite number, below zero if it is negative. -/
def signedUnits (x : Binary64) : Int := if x.negative then -(units x.magnitude : Int) else units x.magnitude

end Binary64

end DocOutline

namespace DocOutline.Binary64

/-! ## The shortest decimal of a number

A finite number is written with the fewest significant digits that read back as the number, and among the
decimals with that many digits as the one nearest to it, a tie going to the even digit. The point stands where
it belongs as long as the first digit's place is from ten to the power -4 up to ten to the power 15; beyond, an
exponent is written.
-/

/-- How many decimal digits a number has; zero has none. -/
def digitCount (n : Nat) : Nat := if n = 0 then 0 else (Nat.toDigits 10 n).length

/-- The power of ten at the first digit of the positive fraction `num / den`. -/
def leadingPower (num den : Nat) : Int :=
  if den ≤ num then (digitCount (num / den) : Int) - 1
  else -(digitCount ((den + num - 1) / num - 1) : Int)

/-- Moves the zeros at the end of the digits into the exponent; `fuel` bounds their number. -/
def trim : (fuel : Nat) → (digits : Nat) → (exponent : Int) → Nat × Int
  | 0, digits, exponent => (digits, exponent)
  | fuel + 1, digits, exponent =>
    if digits ≠ 0 ∧ digits % 10 = 0 then trim fuel (digits / 10) (exponent + 1) else (digits, exponent)

/-- The two decimals of `count` significant digits around `num / den`, the nearer one first. Of two that are
equally near the one with the even last digit comes first. -/
def neighbours (num den : Nat) (count : Nat) : List (Nat × Int) :=
  let exponent := leadingPower num den - count + 1
  let scaled := num * Nat.pow 10 (-exponent).toNat
  let step := den * Nat.pow 10 exponent.toNat
  let low := scaled / step
  let middle := (2 * low + 1) * step
  let (first, second) :=
    if 2 * scaled < middle ∨ 2 * scaled = middle ∧ low % 2 = 0 then (low, low + 1) else (low + 1, low)
  [trim 20 first exponent, trim 20 second exponent]

/-- The shortest decimal that reads back as a finite magnitude. Seventeen digits are always enough; the
exact decimal expansion, which comes last, makes that plain without an argument. -/
def shortest (magnitude : Nat) : Nat × Int :=
  if magnitude = 0 then (0, 0)
  else
    let candidates := (List.range 17).flatMap fun n => neighbours (units magnitude) unitsPerOne (n + 1)
    (candidates.find? fun (digits, exponent) => magnitudeOfDecimal digits exponent = magnitude).getD
      (units magnitude * Nat.pow 5 1074, -1074)

/-- A decimal as text. `point` is the number of digits in front of the point. -/
def layout (digits : List Char) (point : Int) : List Char :=
  if -4 < point ∧ point ≤ 16 then
    if point ≤ 0 then '0' :: '.' :: List.replicate (-point).toNat '0' ++ digits
    else if digits.length ≤ point.toNat then
      digits ++ List.replicate (point.toNat - digits.length) '0' ++ ['.', '0']
    else digits.take point.toNat ++ '.' :: digits.drop point.toNat
  else
    let power := Nat.toDigits 10 (point - 1).natAbs
    digits.take 1 ++ (if digits.length ≤ 1 then [] else '.' :: digits.drop 1) ++
      'e' :: (if point ≤ 0 then '-' else '+') :: List.replicate (2 - power.length) '0' ++ power

def finiteText (x : Binary64) : List Char :=
  let (digits, exponent) := shortest x.magnitude
  let digits := Nat.toDigits 10 digits
  let text := if x.magnitude = 0 then ['0', '.', '0'] else layout digits (digits.length + exponent)
  if x.negative then '-' :: text else text

end DocOutline.Binary64
