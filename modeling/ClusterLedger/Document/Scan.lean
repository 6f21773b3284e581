/- Scanning of characters, shared by the document formats. -/
namespace ClusterLedger.Scan

abbrev Reader (α : Type) := List Char → Option (α × List Char)

def isDigit (c : Char) : Bool := '0' ≤ c && c ≤ '9'

def digitValue (c : Char) : Nat := c.toNat - '0'.toNat

def digitIn? (base : Nat) (c : Char) : Option Nat :=
  let value? :=
    if isDigit c then some (digitValue c)
    else if 'a' ≤ c ∧ c ≤ 'f' then some (c.toNat - 'a'.toNat + 10)
    else if 'A' ≤ c ∧ c ≤ 'F' then some (c.toNat - 'A'.toNat + 10)
    else none
  value?.filter (· < base)

def digitsValue (base : Nat) (digits : List Nat) : Nat :=
  digits.foldl (fun n d => n * base + d) 0

def spanDigits (cs : List Char) : List Char × List Char := cs.span isDigit

def hexDigits (count : Nat) : Reader Nat := fun cs => do
  let front := cs.take count
  if front.length < count then none
  else
    let digits ← front.mapM (digitIn? 16)
    return (digitsValue 16 digits, cs.drop count)

def charOf? (code : Nat) : Option Char :=
  if code.isValidChar then some (.ofNat code) else none

def dropText : List Char → List Char → Option (List Char)
  | [], cs => some cs
  | f :: front, c :: cs => if f = c then dropText front cs else none
  | _, [] => none

/-- The floating-point number nearest to `mantissa * 10 ^ scale`, where `mantissa` has `length`
    digits. Sizes far outside the range of floating-point numbers are not computed. -/
def nearestFloat (mantissa length : Nat) (scale : Int) : Float :=
  if mantissa = 0 ∨ scale + length < -400 then 0.0
  else if 400 < scale then 1.0 / 0.0
  else .ofScientific mantissa (scale < 0) scale.natAbs

def decimalValue (negative : Bool) (digits : List Char) (scale : Int) : Float :=
  let mantissa := digitsValue 10 (digits.map digitValue)
  let magnitude := nearestFloat mantissa digits.length scale
  if negative then -magnitude else magnitude

end ClusterLedger.Scan
