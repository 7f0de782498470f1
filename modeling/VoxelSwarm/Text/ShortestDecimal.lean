/-!
# Shortest decimals

The decimal text of a floating-point number: the fewest digits that read back as the number, and of
these the nearest, with an even last digit where two are equally near. `shortest` finds the digits
by exact arithmetic, testing for one digit, two digits and so on the two neighbors of the number
among the decimals of that many digits; `text` sets the point.
-/

namespace VoxelSwarm.ShortestDecimal

/-- A positive binary number `mantissa · 2 ^ exponent` between two neighbors in its format. The
lower neighbor of a power of two is at half the distance of the upper one. -/
structure Binary where
  mantissa : Nat
  exponent : Int
  powerOfTwo : Bool

/-- The magnitude of a finite number that is not zero. -/
def Binary.ofFloat (x : Float) : Binary :=
  let bits := x.toBits.toNat
  let fraction : Nat := bits % Nat.pow 2 52
  let scale : Nat := bits / Nat.pow 2 52 % 2048
  if scale = 0 then ⟨fraction, -1074, false⟩
  else ⟨fraction + Nat.pow 2 52, (scale : Int) - 1075, fraction == 0 && 1 < scale⟩

/-- A positive decimal number `digits · 10 ^ exponent`. -/
structure Decimal where
  digits : Nat
  exponent : Int
  deriving DecidableEq, Repr

/-- `numerator / denominator` with both multiplied by powers of `base` until the exponent is gone.
-/
def scaled (base : Nat) (numerator denominator : Nat) (exponent : Int) : Nat × Nat :=
  if 0 ≤ exponent then (numerator * Nat.pow base exponent.toNat, denominator)
  else (numerator, denominator * Nat.pow base (-exponent).toNat)

/-- The candidate `d · 10 ^ k` reads back as `b`: it lies between the middles of the gaps to the
neighbors, which themselves read back as the number with an even mantissa. Everything is in quarters
of the last place. -/
def readsBack (b : Binary) (d : Nat) (k : Int) : Bool :=
  let (p, q) := scaled 10 d 1 k
  let (n, m) := scaled 2 1 1 (b.exponent - 2)
  let low := (4 * b.mantissa - if b.powerOfTwo then 1 else 2) * n * q
  let high := (4 * b.mantissa + 2) * n * q
  let middle := p * m
  if b.mantissa % 2 = 0 then low ≤ middle ∧ middle ≤ high else low < middle ∧ middle < high

/-- The whole number nearest to `n / m`, the even one of two that are equally near. -/
def nearestEven (n m : Nat) : Nat :=
  let d := n / m
  match compare (2 * (n - d * m)) m with
  | .lt => d
  | .eq => d + d % 2
  | .gt => d + 1

/-- The nearer of the neighbors of `b` among the multiples of `10 ^ k` that read back as `b`. -/
def neighbor? (b : Binary) (k : Int) : Option Nat :=
  let (n, m) := scaled 2 b.mantissa 1 b.exponent
  let (n, m) := scaled 10 n m (-k)
  let d := n / m
  match readsBack b d k && 0 < d, readsBack b (d + 1) k with
  | true, true => some (nearestEven n m)
  | true, false => some d
  | false, true => some (d + 1)
  | false, false => none

/-- The number of decimal digits before the point, negative for zeros after it. -/
def magnitude (b : Binary) : Int :=
  let (n, m) := scaled 2 b.mantissa 1 b.exponent
  if m ≤ n then (Nat.toDigits 10 (n / m)).length
  else 1 - (Nat.toDigits 10 ((m - 1) / n)).length

/-- The first of the numbers of digits from `n` on for which a neighbor reads back. -/
def shortestFrom (b : Binary) (n : Nat) : (fuel : Nat) → Decimal
  | 0 => ⟨0, 0⟩
  | fuel + 1 =>
    let k := magnitude b - n
    match neighbor? b k with
    | some d => ⟨d, k⟩
    | none => shortestFrom b (n + 1) fuel

/-- The shortest decimal that reads back as `b`. Seventeen digits are always enough. -/
def shortest (b : Binary) : Decimal := shortestFrom b 1 17

/-- The digits without the zeros at their end, and the number of digits before the point. -/
def significant (d : Decimal) : List Char × Int :=
  let digits := Nat.toDigits 10 d.digits
  ((digits.reverse.dropWhile (· = '0')).reverse, digits.length + d.exponent)

def exponentText (e : Int) : List Char :=
  'e' :: (if 0 ≤ e then '+' :: Nat.toDigits 10 e.toNat else '-' :: Nat.toDigits 10 (-e).toNat)

/-- Sets the point among the digits: written out with at most sixteen digits before the point and
four zeros after it, else with an exponent. -/
def layout (digits : List Char) (point : Int) : List Char :=
  let count : Int := digits.length
  if count ≤ point ∧ point ≤ 16 then
    digits ++ List.replicate (point - count).toNat '0' ++ ".0".toList
  else if 0 < point ∧ point ≤ 16 then
    digits.take point.toNat ++ '.' :: digits.drop point.toNat
  else if -5 < point ∧ point ≤ 0 then
    "0.".toList ++ List.replicate (-point).toNat '0' ++ digits
  else
    match digits with
    | d :: e :: rest => d :: '.' :: e :: rest ++ exponentText (point - 1)
    | digits => digits ++ exponentText (point - 1)

def text (x : Float) : String :=
  let negative := x.toBits.toNat / Nat.pow 2 63 = 1
  let magnitude :=
    if x == 0 then "0.0".toList
    else
      let (digits, point) := significant (shortest (Binary.ofFloat x))
      layout digits point
  String.ofList (if negative then '-' :: magnitude else magnitude)

end VoxelSwarm.ShortestDecimal
