/- The shortest decimal that reads back as a given binary floating-point number.
   All tests are exact: a finite number is a whole multiple of a power of two. -/
namespace ClusterLedger.Decimal

/-- The magnitude `mantissa * 2 ^ exponent` of a finite number. `atBoundary` holds where the gap
    to the next smaller number is half the gap to the next larger one. -/
structure Magnitude where
  mantissa : Nat
  exponent : Int
  atBoundary : Bool
deriving DecidableEq, Repr

inductive Tie
  | toEven
  | awayFromZero
deriving DecidableEq, Repr

inductive Decoded
  | notANumber
  | infinite (negative : Bool)
  | finite (negative : Bool) (magnitude : Magnitude)
deriving DecidableEq, Repr

def decodeBits (bits : Nat) : Decoded :=
  let fraction : Nat := bits % Nat.pow 2 52
  let biased : Nat := bits / Nat.pow 2 52 % Nat.pow 2 11
  let negative := bits / Nat.pow 2 63 % 2 == 1
  if biased = 2047 then (if fraction = 0 then .infinite negative else .notANumber)
  else if biased = 0 then .finite negative ⟨fraction, -1074, false⟩
  else .finite negative ⟨Nat.pow 2 52 + fraction, (biased : Int) - 1075, fraction == 0 && biased > 1⟩

def binaryFraction (n : Nat) (e : Int) : Nat × Nat :=
  (n * Nat.pow 2 e.toNat, Nat.pow 2 (-e).toNat)

/-- The reals that read as the magnitude, in quarters of its unit: from `low` to `high`.
    The ends belong to it when the mantissa is even. -/
def Magnitude.low (m : Magnitude) : Nat := 4 * m.mantissa - if m.atBoundary then 1 else 2
def Magnitude.high (m : Magnitude) : Nat := 4 * m.mantissa + 2

def Magnitude.admits (m : Magnitude) (digits : Nat) (scale : Int) : Bool :=
  let (unit, per) := binaryFraction 1 (m.exponent - 2)
  let value := digits * Nat.pow 10 scale.toNat * per
  let grid := Nat.pow 10 (-scale).toNat
  let below := m.low * unit * grid
  let above := m.high * unit * grid
  if m.mantissa % 2 = 0 then below ≤ value && value ≤ above
  else below < value && value < above

def Magnitude.cut (m : Magnitude) (scale : Int) : Nat × Nat × Nat :=
  let (num, den) := binaryFraction m.mantissa m.exponent
  let top := num * Nat.pow 10 (-scale).toNat
  let bottom := den * Nat.pow 10 scale.toNat
  (top / bottom, 2 * (top % bottom), bottom)

def Magnitude.onGrid? (m : Magnitude) (tie : Tie) (scale : Int) : Option Nat :=
  let (down, rest, unit) := m.cut scale
  let upFirst := unit < rest || (unit == rest && (tie == .awayFromZero || down % 2 == 1))
  let candidates := if upFirst then [down + 1, down] else [down, down + 1]
  candidates.find? fun digits => m.admits digits scale

def Magnitude.search (m : Magnitude) (tie : Tie) : Nat → Int → Nat × Int
  | 0, scale => ((m.cut scale).1, scale)
  | tries + 1, scale =>
    match m.onGrid? tie scale with
    | some digits => (digits, scale)
    | none => m.search tie tries (scale - 1)

def trimZeros : Nat → Nat × Int → Nat × Int
  | 0, d => d
  | fuel + 1, (digits, scale) =>
    if digits ≠ 0 ∧ digits % 10 = 0 then trimZeros fuel (digits / 10, scale + 1)
    else (digits, scale)

/-- The fewest digits, and their scale, that read back as the magnitude. -/
def Magnitude.shortest (m : Magnitude) (tie : Tie) : Nat × Int :=
  if m.mantissa = 0 then (0, 0)
  else
    let top : Int := (Nat.toDigits 10 (m.cut 0).1).length
    let (digits, scale) :=
      if (m.cut 0).1 ≠ 0 then m.search tie 20 top
      else m.search tie 400 0
    trimZeros 20 (digits, scale)

end ClusterLedger.Decimal
