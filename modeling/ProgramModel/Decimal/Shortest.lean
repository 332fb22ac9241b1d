/-
# ProgramModel.Decimal.Shortest -- the shortest decimal that reads back as a number

A finite positive `Float` is m · 2^q.  The decimals that round to it fill an
interval around it, whose ends belong to it when m is even.  For one digit, two
digits and so on the two neighbours of the value on that grid are tried; the
first grid that has one inside the interval gives the digits, and of two
neighbours inside it the nearer, or the even one in a tie.  Seventeen digits are
always enough.

`text` lays the digits out: positionally while the leading digit is worth between
10^-5 and 10^15, and with an exponent otherwise.
-/
namespace ProgramModel.Decimal

set_option autoImplicit false

/-- The number `mantissa · 2 ^ exponent`; `closeBelow` says that the next number below is only
half as far away as the next one above. -/
structure Binary where
  mantissa : Nat
  exponent : Int
  closeBelow : Bool

/-- What the bit that holds the sign of a number is worth. -/
def signBit : Nat := 0x8000000000000000

/-- What the lowest bit above the fraction of a number is worth. -/
def fractionEnd : Nat := 0x10000000000000

/-- The magnitude of a finite number. -/
def Binary.ofFloat (number : Float) : Binary :=
  let bits := number.toBits.toNat % signBit
  let fraction := bits % fractionEnd
  let power : Nat := bits / fractionEnd
  if power = 0 then ⟨fraction, -1074, false⟩
  else ⟨fractionEnd + fraction, (power : Int) - 1075, fraction == 0 && power != 1⟩

/-- Decimal digits, most significant first, the first of them worth `10 ^ exponent`. -/
structure Digits where
  digits : List Char
  exponent : Int

/-- A quotient, scaled by a power of ten. -/
def scaled (numerator denominator : Nat) (power : Int) : Nat × Nat :=
  if power < 0 then (numerator, denominator * Nat.pow 10 power.natAbs)
  else (numerator * Nat.pow 10 power.natAbs, denominator)

/-- The exponent of the leading digit of a positive quotient. -/
def leadingExponent (numerator denominator : Nat) : Int :=
  let guess : Int :=
    ((Nat.toDigits 10 numerator).length : Int) - (Nat.toDigits 10 denominator).length
  let (low, high) := scaled numerator denominator (-guess)
  if high ≤ low then guess else guess - 1

/-- The digits of a natural number whose last digit is worth `10 ^ power`. -/
def digitsOf (value : Nat) (power : Int) : Digits :=
  let digits := Nat.toDigits 10 value
  let significant := (digits.reverse.dropWhile (· == '0')).reverse
  ⟨significant, power + (digits.length - 1 : Nat)⟩

/-- The interval of a number, and its middle, as numerators over one denominator. -/
structure Interval where
  low : Nat
  middle : Nat
  high : Nat
  denominator : Nat
  closed : Bool

/-- The decimals that round to a number. -/
def Binary.interval (number : Binary) : Interval :=
  let factor := if number.exponent < 2 then 1 else Nat.pow 2 (number.exponent - 2).natAbs
  let denominator := if number.exponent < 2 then Nat.pow 2 (2 - number.exponent).natAbs else 1
  let middle := 4 * number.mantissa
  { low := (middle - if number.closeBelow then 1 else 2) * factor
    middle := middle * factor
    high := (middle + 2) * factor
    denominator
    closed := number.mantissa % 2 == 0 }

/-- Whether `value · 10 ^ power` lies in an interval. -/
def Interval.holds (interval : Interval) (value : Nat) (power : Int) : Bool :=
  let (value, denominator) := scaled value 1 power
  let point := value * interval.denominator
  let low := interval.low * denominator
  let high := interval.high * denominator
  if interval.closed then low ≤ point && point ≤ high else low < point && point < high

/-- The neighbour of the middle on the grid of `10 ^ power` that lies in the interval; of two the
nearer one, or the even one. -/
def Interval.onGrid? (interval : Interval) (power : Int) : Option Nat :=
  let (numerator, denominator) := scaled interval.middle interval.denominator (-power)
  let below := numerator / denominator
  let twice := 2 * (numerator % denominator)
  let belowIsNearer := twice < denominator || (twice == denominator && below % 2 == 0)
  let near := if belowIsNearer then below else below + 1
  let far := if belowIsNearer then below + 1 else below
  if interval.holds near power then some near
  else if interval.holds far power then some far
  else none

/-- Try grids with more and more digits. -/
def Interval.search (interval : Interval) (leading : Int) : Nat → Nat → Digits
  | 0, count => digitsOf ((interval.onGrid? (leading - (count : Int) + 1)).getD 0)
      (leading - (count : Int) + 1)
  | more + 1, count =>
      let power := leading - (count : Int) + 1
      match interval.onGrid? power with
      | some value => digitsOf value power
      | none => interval.search leading more (count + 1)

def shortest (number : Binary) : Digits :=
  let interval := number.interval
  interval.search (leadingExponent interval.middle interval.denominator) 16 1

/-- Digits with a point, or with an exponent where the point would be far away. -/
def Digits.layout (number : Digits) : List Char :=
  let count := number.digits.length
  let exponent := number.exponent
  if 0 ≤ exponent ∧ exponent ≤ 15 then
    let whole := exponent.natAbs + 1
    if count ≤ whole then
      number.digits ++ List.replicate (whole - count) '0' ++ ['.', '0']
    else number.digits.take whole ++ '.' :: number.digits.drop whole
  else if -5 ≤ exponent ∧ exponent < 0 then
    ['0', '.'] ++ List.replicate (exponent.natAbs - 1) '0' ++ number.digits
  else
    let mantissa := match number.digits with
      | first :: second :: rest => first :: '.' :: second :: rest
      | digits => digits
    mantissa ++ ['e', if exponent < 0 then '-' else '+'] ++ Nat.toDigits 10 exponent.natAbs

/-- A finite number in the fewest digits that read back as it. -/
def text (number : Float) : String :=
  let sign := if signBit ≤ number.toBits.toNat then ['-'] else []
  let magnitude := Binary.ofFloat number
  if magnitude.mantissa = 0 then String.ofList (sign ++ ['0', '.', '0'])
  else String.ofList (sign ++ (shortest magnitude).layout)

end ProgramModel.Decimal
