import ClusterLedger.Decimal.Shortest
/- How chosen digits are laid out as text. -/
namespace ClusterLedger.Decimal

/-- Choices of a number format. `positional k` decides on numbers whose point stands after `k` digits. -/
structure Layout where
  tie : Tie
  positional : Int → Bool
  wholeMark : String
  notANumber : String
  infinite : String
  minusInfinite : String

def Layout.plain : Layout := ⟨.awayFromZero, fun _ => true, "", "NaN", "inf", "-inf"⟩

/-- Numbers in documents: a point in every positional number, an exponent beyond 16 digits before
    the point or four zeros after it. Documents cannot hold what is not finite. -/
def Layout.document : Layout :=
  ⟨.toEven, fun k => -5 < k && k ≤ 16, ".0", "null", "null", "null"⟩

def zeros (n : Nat) : String := "".pushn '0' n

def Layout.magnitude (l : Layout) (digits : Nat) (scale : Int) : String :=
  let ds := Nat.toDigits 10 digits
  let point := (ds.length : Int) + scale
  if digits = 0 then "0" ++ l.wholeMark
  else if l.positional point then
    if 0 ≤ scale then .ofList ds ++ zeros scale.toNat ++ l.wholeMark
    else if 0 < point then .ofList (ds.take point.toNat) ++ "." ++ .ofList (ds.drop point.toNat)
    else "0." ++ zeros (-point).toNat ++ .ofList ds
  else
    let rest := if ds.length = 1 then "" else "." ++ .ofList (ds.drop 1)
    .ofList (ds.take 1) ++ rest ++ "e" ++ toString (point - 1)

def Layout.text (l : Layout) (x : Float) : String :=
  match decodeBits x.toBits.toNat with
  | .notANumber => l.notANumber
  | .infinite negative => if negative then l.minusInfinite else l.infinite
  | .finite negative m =>
    let (digits, scale) := m.shortest l.tie
    (if negative then "-" else "") ++ l.magnitude digits scale

end ClusterLedger.Decimal
