import CodeMarkup.Text.Numeral

/-!
# Shortest decimals

A binary floating-point value stands for every real number that rounds to it, an interval around it. To
show the value, the decimal with the fewest digits in that interval is taken, and of two with as few
digits the nearer one.

Everything is exact. The value is `m · 2 ^ q`, and the ends of the interval lie half a step below and
half a step above it, where the step below is only half as wide if `m` is the least of its binade. The
ends belong to the interval exactly if `m` is even. For each number of digits only the two decimals next
to the value need to be tried.
-/

namespace CodeMarkup.Decimal

/-- A decimal number, its digits taken as one natural number. -/
structure Scaled where
  /-- the digits -/
  digits : Nat
  /-- the power of ten that they are multiplied by -/
  exponent : Int
  deriving DecidableEq, Repr

/-- A power as a fraction. -/
def power (base : Nat) (exponent : Int) : Nat × Nat :=
  if 0 ≤ exponent then (Nat.pow base exponent.toNat, 1) else (1, Nat.pow base (-exponent).toNat)

/-- A positive binary value `m · 2 ^ q`. -/
structure Binary where
  /-- the significand -/
  m : Nat
  /-- the power of two -/
  q : Int
  /-- whether the step below is half as wide as the one above -/
  narrowBelow : Bool

namespace Binary

/-- The quarter of a step, as a fraction; the value is `4 · m` of them. -/
def quarter (value : Binary) : Nat × Nat :=
  power 2 (value.q - 2)

/-- How many quarter steps of the value the interval starts at. -/
def low (value : Binary) : Nat :=
  4 * value.m - if value.narrowBelow then 1 else 2

/-- How many quarter steps of the value the interval ends at. -/
def high (value : Binary) : Nat :=
  4 * value.m + 2

/-- Whether a decimal rounds to the value. -/
def admits (value : Binary) (decimal : Scaled) : Bool :=
  let (stepUp, stepDown) := value.quarter
  let (tenUp, tenDown) := power 10 decimal.exponent
  let scaled := decimal.digits * tenUp * stepDown
  let unit := stepUp * tenDown
  if value.m % 2 = 0 then value.low * unit ≤ scaled && scaled ≤ value.high * unit
  else value.low * unit < scaled && scaled < value.high * unit

/-- The greatest multiple of a power of ten that is not above the value. -/
def floorAt (value : Binary) (exponent : Int) : Nat :=
  let (stepUp, stepDown) := value.quarter
  let (tenUp, tenDown) := power 10 exponent
  4 * value.m * stepUp * tenDown / (stepDown * tenUp)

/-- Whether the value is nearer to the multiple above than to the given one below. -/
def isNearerAbove (value : Binary) (exponent : Int) (below : Nat) : Bool :=
  let (stepUp, stepDown) := value.quarter
  let (tenUp, tenDown) := power 10 exponent
  (2 * below + 1) * tenUp * stepDown < 2 * (4 * value.m * stepUp * tenDown)

/-- The decimal that rounds to the value on a grid of powers of ten, if there is one. -/
def onGrid? (value : Binary) (exponent : Int) : Option Scaled :=
  let below := value.floorAt exponent
  -- the nearer of the two neighbours comes first
  let first := if value.isNearerAbove exponent below then below + 1 else below
  let second := if first = below then below + 1 else below
  [first, second].map (⟨·, exponent⟩) |>.find? fun decimal =>
    decimal.digits ≠ 0 && value.admits decimal

/-- The power of ten of the value's leading digit: the greatest one not above the value. -/
def leading (value : Binary) : Int :=
  let exponents := (List.range 640).map fun (index : Nat) => (315 - index : Int)
  (exponents.find? fun exponent => value.floorAt exponent ≠ 0).getD (-325)

/-- The shortest decimal that rounds to the value. Seventeen digits are always enough. -/
def shortest (value : Binary) : Scaled :=
  let lead := value.leading
  ((List.range 17).findSome? fun (index : Nat) => value.onGrid? (lead - index)).getD
    ⟨value.floorAt (lead - 17), lead - 17⟩

/-- The size of a finite number that is not zero. -/
def ofFloat (number : Float) : Binary :=
  let bits := number.toBits.toNat % Nat.pow 2 63
  let field : Nat := bits / Nat.pow 2 52
  let fraction : Nat := bits % Nat.pow 2 52
  if field = 0 then ⟨fraction, -1074, false⟩
  else ⟨Nat.pow 2 52 + fraction, Int.ofNat field - 1075, fraction = 0 && 1 < field⟩

end Binary

/-! ## Layouts -/

/-- The digits of a decimal, and the power of ten of the first, with no zeros at the end. -/
def Scaled.normal (decimal : Scaled) : List Char × Int :=
  let digits := Text.decimal decimal.digits
  let kept := (digits.reverse.dropWhile (· = '0')).reverse
  (kept, decimal.exponent + digits.length - 1)

/-- Digits with a point where it belongs; nothing stands after the point of a whole number. -/
def positional (digits : List Char) (lead : Int) : List Char :=
  if lead < 0 then
    ['0', '.'] ++ List.replicate (-lead - 1).toNat '0' ++ digits
  else
    let whole := lead.toNat + 1
    let padded := digits ++ List.replicate (whole - digits.length) '0'
    match padded.drop whole with
    | [] => padded.take whole
    | fraction => padded.take whole ++ '.' :: fraction

/-- Digits with a point after the first, and a power of ten. -/
def scientific (digits : List Char) (lead : Int) : List Char :=
  let mantissa := match digits with
    | first :: second :: rest => first :: '.' :: second :: rest
    | short => short
  mantissa ++ 'e' :: (if lead < 0 then '-' :: Text.decimal (-lead).toNat else Text.decimal lead.toNat)

end CodeMarkup.Decimal
