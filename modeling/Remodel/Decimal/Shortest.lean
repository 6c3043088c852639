/-!
# The fewest decimal digits of a binary number

A finite double is `m · 2^q`.  The decimals that round to it fill an interval
around it, whose ends belong to it exactly when `m` is even.  The text of the
double uses the fewest digits of any decimal in that interval, and of those with
so few digits the one nearest to the double.

## Strategy

All arithmetic is on natural numbers: the double and the ends of its interval are
numerators over one power of two.  For one digit, two digits and so on the two
neighbours of the double on the grid of that many digits are tried.  Seventeen
digits always suffice.
-/

namespace Remodel.Decimal

/-- The sign, significand and exponent of a finite double: `± m · 2^q`. -/
structure Binary where
  negative : Bool
  significand : Nat
  exponent : Int
  deriving Repr, DecidableEq

/-- What a double stands for. -/
inductive Magnitude
  | notANumber
  | infinite (negative : Bool)
  | finite (value : Binary)
  deriving Repr, DecidableEq

/-- The number of doubles in a binade: the least significand of a normal one. -/
def binade : Nat := 0x10000000000000

/-- The parts of a double, from its bits. -/
def magnitude (x : Float) : Magnitude :=
  let bits := x.toBits.toNat
  let negative := decide (0x8000000000000000 ≤ bits)
  let exponentField : Nat := bits / binade % 2048
  let fraction : Nat := bits % binade
  if exponentField = 2047 then
    if fraction = 0 then .infinite negative else .notANumber
  else if exponentField = 0 then
    .finite ⟨negative, fraction, -1074⟩
  else
    .finite ⟨negative, binade + fraction, (exponentField : Int) - 1075⟩

/-- Decimal digits with the place of the point: `0.d₁d₂… · 10^point`. -/
structure Digits where
  digits : Nat
  count : Nat
  point : Int
  deriving Repr, DecidableEq

/-- The interval of decimals that round to a double, over a common denominator. -/
structure Rounding where
  low : Nat
  value : Nat
  high : Nat
  denominator : Nat
  closed : Bool
  deriving Repr

/-- The rounding interval of `m · 2^q`.  Below a power of two the next double is
only half as far away. -/
def roundingOf (m : Nat) (q : Int) : Rounding :=
  let halved := m = binade && q ≠ -1074
  let up := Nat.pow 2 (q - 2).toNat
  let down := Nat.pow 2 (2 - q).toNat
  { low := (if halved then 4 * m - 1 else 4 * m - 2) * up
    value := 4 * m * up
    high := (4 * m + 2) * up
    denominator := down
    closed := m % 2 = 0 }

/-- Whether the decimal `n · 10^e` rounds to the double. -/
def Rounding.holds (r : Rounding) (n : Nat) (e : Int) : Bool :=
  let scaled := n * Nat.pow 10 e.toNat * r.denominator
  let unit := Nat.pow 10 (-e).toNat
  if r.closed then r.low * unit ≤ scaled && scaled ≤ r.high * unit
  else r.low * unit < scaled && scaled < r.high * unit

/-- The least `p` with `value < 10^p`, searched upwards from `p`. -/
def pointFrom (value denominator : Nat) : Nat → Int → Int
  | 0, p => p
  | fuel + 1, p =>
    if value * Nat.pow 10 (-p).toNat < Nat.pow 10 p.toNat * denominator then p
    else pointFrom value denominator fuel (p + 1)

/-- The place of the decimal point of a double.  The search starts at most one below
the answer, found from the number of binary digits. -/
def pointOf (m : Nat) (q : Int) (r : Rounding) : Int :=
  let bits : Int := q + m.log2
  pointFrom r.value r.denominator 4 ((bits * 30103) / 100000)

/-- Which of two decimals at the same distance is taken. -/
inductive Tie
  | up
  | toEven
  deriving Repr, DecidableEq

/-- The neighbour on the grid of `count` digits that rounds to the double, the nearer
one if both do. -/
def onGrid? (tie : Tie) (r : Rounding) (point : Int) (count : Nat) : Option Digits :=
  let e := point - count
  let numerator := r.value * Nat.pow 10 (-e).toNat
  let unit := r.denominator * Nat.pow 10 e.toNat
  let below := numerator / unit
  let rest := numerator % unit
  let above := below + 1
  let found := fun (n : Nat) => some (Digits.mk n count point)
  match r.holds below e, r.holds above e with
  | true, true =>
    if 2 * rest < unit then found below
    else if unit < 2 * rest then found above
    else match tie with
      | .up => found above
      | .toEven => if below % 2 = 0 then found below else found above
  | true, false => found below
  | false, true => found above
  | false, false => none

/-- The first grid with a hit, from `count` digits on. -/
def searchGrids (tie : Tie) (r : Rounding) (point : Int) : Nat → Nat → Digits
  | 0, count => ⟨r.value / r.denominator, count, point⟩
  | fuel + 1, count =>
    match onGrid? tie r point count with
    | some found => found
    | none => searchGrids tie r point fuel (count + 1)

/-- Digits that fill `count` places again after rounding up to a power of ten. -/
def Digits.normal (d : Digits) : Digits :=
  if d.digits = Nat.pow 10 d.count then ⟨1, 1, d.point + 1⟩ else d

/-- The fewest digits of `m · 2^q`, for `m` not zero. -/
def shortest (tie : Tie) (m : Nat) (q : Int) : Digits :=
  let r := roundingOf m q
  (searchGrids tie r (pointOf m q r) 17 1).normal

end Remodel.Decimal
