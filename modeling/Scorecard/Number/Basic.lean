set_option autoImplicit false

/-! # Machine numbers

Scores, weights and thresholds are double precision numbers. A `Number` keeps the exact rational
value of such a number, and every operation is the exact rational operation followed by one
`Rounding`. The program runs with `Rounding.nearest`, the rounding of double precision arithmetic;
`Rounding.exact` keeps the rational result and gives the ideal arithmetic that the laws of averaging
speak about.

Both zeros have the value `0`. The negative zero is a constructor of its own because it prints with
its sign.
-/

namespace Scorecard

/-- A machine number: a finite value, the negative zero, an infinity, or not a number. -/
inductive Number where
  | finite (value : Rat)
  | negZero
  | infinite (negative : Bool)
  | nan
deriving DecidableEq, Repr

/-- How the exact result of an operation becomes a number. -/
abbrev Rounding := Rat → Number

namespace Number

instance : Inhabited Number := ⟨.finite 0⟩

/-- The zero of the given sign. -/
def zero (negative : Bool) : Number := if negative then .negZero else .finite 0

/-- The exact value; the numbers without one count as `0`. -/
def value : Number → Rat
  | finite x => x
  | _ => 0

/-- Neither an infinity nor `nan`. -/
def isFinite : Number → Bool
  | finite _ | negZero => true
  | infinite _ | nan => false

def isZero : Number → Bool
  | finite x => x == 0
  | negZero => true
  | _ => false

/-- Whether the number is written with a minus sign. -/
def isNegative : Number → Bool
  | finite x => decide (x < 0)
  | negZero => true
  | infinite s => s
  | nan => false

/-! ## Order

The numbers other than `nan` are ordered as the rationals with an infinity at each end; `nan` is
comparable with no number, itself included. -/

/-- The place of a number in the order: the infinities before and after all finite values. -/
def place : Number → Option (Int × Rat)
  | finite x => some (0, x)
  | negZero => some (0, 0)
  | infinite true => some (-1, 0)
  | infinite false => some (1, 0)
  | nan => none

def lt (a b : Number) : Bool :=
  match a.place, b.place with
  | some (i, x), some (j, y) => decide (i < j) || (decide (i = j) && decide (x < y))
  | _, _ => false

def le (a b : Number) : Bool :=
  match a.place, b.place with
  | some (i, x), some (j, y) => decide (i < j) || (decide (i = j) && decide (x ≤ y))
  | _, _ => false

/-- `x` moved into the interval from `lower` to `upper`; a number below no bound goes to `upper`. -/
def clamp (x lower upper : Number) : Number :=
  let y := if x.lt upper then x else upper
  if lower.lt y then y else lower

/-! ## Arithmetic -/

def neg : Number → Number
  | finite x => if x = 0 then .negZero else .finite (-x)
  | negZero => .finite 0
  | infinite s => .infinite (!s)
  | nan => .nan

def abs (a : Number) : Number := if a.isNegative then a.neg else a

/-- Addition. Opposite infinities have no sum, and only two negative zeros add up to the negative
zero. -/
def add (ρ : Rounding) : Number → Number → Number
  | nan, _ => .nan
  | _, nan => .nan
  | infinite s, infinite t => if s = t then .infinite s else .nan
  | infinite s, _ => .infinite s
  | _, infinite t => .infinite t
  | negZero, b => b
  | a, negZero => a
  | finite x, finite y => if x + y = 0 then .finite 0 else ρ (x + y)

def sub (ρ : Rounding) (a b : Number) : Number := add ρ a b.neg

/-- Multiplication. The sign of a zero or infinite product is the product of the signs. -/
def mul (ρ : Rounding) : Number → Number → Number
  | nan, _ => .nan
  | _, nan => .nan
  | infinite s, b => if b.isZero then .nan else .infinite (s != b.isNegative)
  | a, infinite t => if a.isZero then .nan else .infinite (a.isNegative != t)
  | a, b =>
    if a.value * b.value = 0 then .zero (a.isNegative != b.isNegative) else ρ (a.value * b.value)

/-- Division. A nonzero number over a zero is infinite. -/
def div (ρ : Rounding) : Number → Number → Number
  | nan, _ => .nan
  | _, nan => .nan
  | infinite _, infinite _ => .nan
  | infinite s, b => .infinite (s != b.isNegative)
  | a, infinite t => .zero (a.isNegative != t)
  | a, b =>
    if b.value = 0 then
      if a.value = 0 then .nan else .infinite (a.isNegative != b.isNegative)
    else if a.value = 0 then .zero (a.isNegative != b.isNegative)
    else ρ (a.value / b.value)

/-- The sum from left to right, starting at the positive zero. -/
def sum (ρ : Rounding) (xs : List Number) : Number := xs.foldl (add ρ) (.finite 0)

/-- The number of a fraction of integers. -/
def ratio (ρ : Rounding) (n : Int) (d : Nat) : Number :=
  if n = 0 then .finite 0 else ρ (mkRat n d)

/-- The number of an integer; an integer that rounds to an infinity has none. -/
def ofInt? (ρ : Rounding) (n : Int) : Option Number :=
  let x := ratio ρ n 1
  if x.isFinite then some x else none

end Number

/-! ## Rounding to the double precision grid -/

/-- The integer nearest to `n / d`; of two nearest ones the even one. -/
def roundQuotient (n d : Nat) : Nat :=
  let q := n / d
  let r := n % d
  if 2 * r < d then q else if d < 2 * r then q + 1 else q + q % 2

/-- `⌊log₂ (n / d)⌋` for positive `n` and `d`. -/
def floorLog2 (n d : Nat) : Int :=
  let e : Int := (n.log2 : Int) - (d.log2 : Int)
  if d <<< e.toNat ≤ n <<< (-e).toNat then e else e - 1

namespace Rounding

/-- No rounding: the result is the rational itself. -/
def exact : Rounding := Number.finite

/-- The exponent of the last place of a double near `n / d`: 53 binary places, and none below
`2 ^ (-1074)`. -/
def lastPlace (n d : Nat) : Int := max (floorLog2 n d - 52) (-1074)

/-- The double nearest to a rational, a tie going to the even last place. Values that would need an
exponent above the range become infinite, and a value that vanishes keeps its sign. -/
def nearest : Rounding := fun x =>
  let n := x.num.natAbs
  let negative := decide (x < 0)
  if n = 0 then .finite 0
  else
    let q := lastPlace n x.den
    -- the value in units of the last place, all in integers
    let m := roundQuotient (n <<< (-q).toNat) (x.den <<< q.toNat)
    if m = 0 then .zero negative
    else if 1 <<< 1024 ≤ m <<< q.toNat then .infinite negative
    else
      let magnitude : Rat := mkRat (m <<< q.toNat : Nat) (1 <<< (-q).toNat)
      .finite (if negative then -magnitude else magnitude)

end Rounding

namespace Number

/-! ## Tenths -/

/-- The number of tenths nearest to the magnitude of `x`, ties to even. -/
def tenths (x : Rat) : Nat := roundQuotient (10 * x.num.natAbs) x.den

/-- `x` rounded to one decimal place, decided on its exact value. -/
def roundTenth (ρ : Rounding) : Number → Number
  | finite x =>
    let k := tenths x
    if k = 0 then .zero (decide (x < 0))
    -- the tenths are exact, only their quotient by ten is rounded
    else ρ (mkRat (if x < 0 then -(k : Int) else k) 10)
  | a => a

end Number

end Scorecard
