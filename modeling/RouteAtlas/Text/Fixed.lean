/-
  RouteAtlas: numbers with a fixed count of decimal places.

  A floating-point number is a whole number times a power of two, so the nearest number with the
  wanted places is found in exact arithmetic; a number half way between two goes to the even one.

  * `roundedQuotient` is the nearest whole number to a quotient (`two_mul_roundedQuotient`: it is
    off by at most half a unit);
  * `Binary.ofFloat` takes a floating-point number apart, `fixed` writes it.
-/
namespace RouteAtlas.Text

/-! ## Rounding -/

/-- The whole number nearest to a quotient, and the even one of two that are equally near. -/
def roundedQuotient (dividend divisor : Nat) : Nat :=
  let quotient := dividend / divisor
  let rest := dividend % divisor
  if 2 * rest < divisor then quotient
  else if divisor < 2 * rest then quotient + 1
  else if quotient % 2 == 0 then quotient
  else quotient + 1

/-- Rounding is off by at most half a unit. -/
theorem two_mul_roundedQuotient (m d : Nat) (h : 0 < d) :
    2 * (roundedQuotient m d * d) ≤ 2 * m + d ∧ 2 * m ≤ 2 * (roundedQuotient m d * d) + d := by
  have key := Nat.div_add_mod m d
  have lt := Nat.mod_lt m h
  have comm : d * (m / d) = m / d * d := Nat.mul_comm _ _
  have step : (m / d + 1) * d = m / d * d + d := by rw [Nat.add_mul, Nat.one_mul]
  unfold roundedQuotient
  dsimp only
  split
  · omega
  · split
    · omega
    · split <;> omega

/-! ## Floating-point numbers -/

/-- A finite binary number: its sign, and `digits` times two to the power `exponent`. -/
structure Binary where
  negative : Bool
  digits : Nat
  exponent : Int
  deriving DecidableEq, Repr

/-- The parts of a floating-point number, none if it is infinite or no number. -/
def Binary.ofFloat (x : Float) : Option Binary :=
  let bits := x.toBits.toNat
  let fraction := bits % Nat.pow 2 52
  let power := bits / Nat.pow 2 52 % Nat.pow 2 11
  let negative := bits / Nat.pow 2 63 == 1
  if power == 2047 then none
  else if power == 0 then some ⟨negative, fraction, -1074⟩
  else some ⟨negative, fraction + Nat.pow 2 52, (power : Int) - 1075⟩

/-- A number in units of the last decimal place, rounded. -/
def Binary.units (places : Nat) (b : Binary) : Nat :=
  if b.exponent < 0 then
    roundedQuotient (b.digits * Nat.pow 10 places) (Nat.pow 2 (-b.exponent).toNat)
  else b.digits * Nat.pow 2 b.exponent.toNat * Nat.pow 10 places

/-- A whole number with zeros before it up to a width. -/
def padded (width n : Nat) : String :=
  let digits := Nat.toDigits 10 n
  .ofList (List.replicate (width - digits.length) '0' ++ digits)

/-- A count of units of the last decimal place, written with the point. -/
def Binary.write (places : Nat) (b : Binary) : String :=
  let n := b.units places
  (if b.negative then "-" else "") ++ toString (n / Nat.pow 10 places) ++ "."
    ++ padded places (n % Nat.pow 10 places)

/-- A floating-point number with a fixed count of decimal places. -/
def fixed (places : Nat) (x : Float) : String :=
  match Binary.ofFloat x with
  | some b => b.write places
  | none => if x.isNaN then "nan" else if x < 0 then "-inf" else "inf"

end RouteAtlas.Text
