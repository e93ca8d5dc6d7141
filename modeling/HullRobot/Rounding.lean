/-!
# Numbers with 53 significant bits

A fraction of a time unit is worked out in binary numbers of 53 significant bits, each operation
rounded to the nearest of them and a tie to the even one.  Exponents are not bounded.
-/

namespace HullRobot

/-- The number `mantissa * 2 ^ exponent`. -/
structure Binary where
  mantissa : Nat
  exponent : Int
  deriving DecidableEq

namespace Binary

/-- How many bits a mantissa has. -/
def precision : Nat := 53

/-- The quotient `num / den`, rounded to the nearest whole number, a tie to the even one. -/
def roundDiv (num den : Nat) : Nat :=
  let q := num / den
  let r := num % den
  if 2 * r < den then q
  else if den < 2 * r then q + 1
  else q + q % 2

/-- The quotient `num / den` in units of `2 ^ exponent`. -/
def scaled (num den : Nat) (exponent : Int) : Nat × Nat :=
  (num * Nat.pow 2 (-exponent).toNat, den * Nat.pow 2 exponent.toNat)

/-- The number nearest to `num / den * 2 ^ shift`. -/
def ofQuotient (num den : Nat) (shift : Int) : Binary :=
  if num = 0 then ⟨0, 0⟩
  else
    let guess : Int := (num.log2 : Int) - den.log2 - (precision - 1)
    let (n, d) := scaled num den guess
    let exponent := if n / d < Nat.pow 2 (precision - 1) then guess - 1 else guess
    let (n, d) := scaled num den exponent
    ⟨roundDiv n d, exponent + shift⟩

/-- The number nearest to `n`. -/
def ofNat (n : Nat) : Binary := ofQuotient n 1 0

/-- The rounded product. -/
def mul (a b : Binary) : Binary := ofQuotient (a.mantissa * b.mantissa) 1 (a.exponent + b.exponent)

/-- The rounded quotient. -/
def div (a b : Binary) : Binary := ofQuotient a.mantissa b.mantissa (a.exponent - b.exponent)

/-- The whole part of a number. -/
def floor (a : Binary) : Nat :=
  a.mantissa * Nat.pow 2 a.exponent.toNat / Nat.pow 2 (-a.exponent).toNat

end Binary

end HullRobot
