import Ontograph.Number.Binary64
import Ontograph.Number.Decimal

/-!
# Shortest decimals

The shortest decimal of a double is the decimal with the fewest digits that lies nearer to it than to
any other double, and of those with equally many digits the nearest one.  Everything is computed in
exact natural numbers: for one digit, two digits and so on the two neighbours of the value on that
decimal grid are tried, and the first grid with a hit wins.  A double needs at most seventeen digits.
-/

namespace Ontograph

/-- Which of two equally near decimals is taken: the upper one, or the one with an even last digit. -/
inductive Tie where
  | upward
  | toEven

namespace Shortest

/-- A positive number between the bounds of the numbers that round to it, all three over one
denominator; the bounds belong to them if `closed` says so. -/
structure Interval where
  low : Nat
  value : Nat
  high : Nat
  denominator : Nat
  closed : Bool

/-- The numbers that round to a positive double.  They reach half-way to its neighbours; the lower
neighbour of a power of two is only half as far away as the upper one. -/
def interval (x : Binary64) : Interval :=
  let m := x.significand
  let q := x.exponent - 2
  let atPower := m = Binary64.leadingUnit ∧ 2 * Binary64.leadingUnit ≤ x.magnitude
  let scale := if 0 ≤ q then 1 <<< q.toNat else 1
  let low := 4 * m - if atPower then 1 else 2
  { low := low * scale
    value := 4 * m * scale
    high := (4 * m + 2) * scale
    denominator := if 0 ≤ q then 1 else 1 <<< (-q).toNat
    closed := m % 2 = 0 }

/-- Whether `num / den` lies in the interval. -/
def Interval.contains (i : Interval) (num den : Nat) : Bool :=
  if i.closed then i.low * den ≤ num * i.denominator && num * i.denominator ≤ i.high * den
  else i.low * den < num * i.denominator && num * i.denominator < i.high * den

/-- The greatest `k` with `10 ^ k ≤ num / den`, for positive operands, searched downwards from an
upper bound; the search is bounded by `fuel`. -/
def floorLog10 (num den : Nat) : Nat → Int → Int
  | 0, k => k
  | fuel + 1, k =>
      let reaches := if 0 ≤ k then den * tenTo k.toNat ≤ num else den ≤ num * tenTo (-k).toNat
      if reaches then k else floorLog10 num den fuel (k - 1)

/-- An upper bound of the decimal exponent of `num / den`, at most two above it. -/
def exponentBound (num den : Nat) : Int :=
  Int.fdiv ((Binary64.floorLog2 num den + 1) * 30103) 100000 + 1

/-- Drops the zeros at the end, but never the first digit. -/
def trimZeros : List Digit → List Digit
  | [] => []
  | d :: rest => d :: (rest.reverse.dropWhile (· = Digit.zero)).reverse

/-- The neighbour that is taken on the grid of the numbers with `count` digits, if one of them lies in
the interval.  The grid's unit is `10 ^ (exponent - count + 1)`. -/
def onGrid (tie : Tie) (i : Interval) (exponent : Int) (count : Nat) : Option Nat :=
  let unit : Int := exponent - (count - 1 : Nat)
  let up := if 0 ≤ unit then tenTo unit.toNat else 1
  let down := if 0 ≤ unit then 1 else tenTo (-unit).toNat
  -- `n` units are `n * up / down`, and the value is `units / each` units
  let units := i.value * down
  let each := i.denominator * up
  let floor := units / each
  let rest := units % each
  let below := i.contains (floor * up) down
  let above := i.contains ((floor + 1) * up) down
  match below, above with
  | false, false => none
  | true, false => some floor
  | false, true => some (floor + 1)
  | true, true =>
      if 2 * rest < each then some floor
      else if each < 2 * rest then some (floor + 1)
      else match tie with
        | .upward => some (floor + 1)
        | .toEven => some (floor + floor % 2)

/-- The first grid with a hit, from `count` digits on. -/
def search (tie : Tie) (i : Interval) (exponent : Int) : Nat → Nat → Nat × Nat
  | 0, count => (i.value / i.denominator, count)
  | fuel + 1, count =>
      match onGrid tie i exponent count with
      | some n => (n, count)
      | none => search tie i exponent fuel (count + 1)

/-- The shortest decimal of a finite double, without its sign; zero has the digit zero. -/
def scientific (tie : Tie) (x : Binary64) : Scientific :=
  if x.isZero then ⟨[Digit.zero], 0⟩
  else
    let i := interval x
    let exponent := floorLog10 i.value i.denominator 4 (exponentBound i.value i.denominator)
    let (n, count) := search tie i exponent 17 1
    let digits := Digit.ofNat n
    -- the upper neighbour may be the next power of ten, with one digit more
    ⟨trimZeros digits, exponent + ((digits.length : Int) - count)⟩

end Shortest

end Ontograph
