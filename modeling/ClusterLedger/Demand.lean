import ClusterLedger.Table
import ClusterLedger.Name
import ClusterLedger.Resource
/- Outstanding requests of an application, by priority and place. -/
namespace ClusterLedger

inductive Locality
  | nodeLocal
  | rackLocal
  | offSwitch
deriving DecidableEq, Repr

/-- The places whose demand a container on `node` serves, the closest first. -/
def Locality.places (locality : Locality) (node : NodeId) (rack : String) : List String :=
  match locality with
  | nodeLocal => [node.text, rack, anyPlace]
  | rackLocal => [rack, anyPlace]
  | offSwitch => [anyPlace]

/-- `count` containers of `capability` at `place`: a node, a rack or `anyPlace`. -/
structure Request where
  priority : Priority
  place : String
  capability : Resource
  count : UInt32
  relaxLocality : Bool := true
  label : Partition := .default
deriving DecidableEq, Repr, Inhabited

namespace Request

def isAnyPlace (r : Request) : Bool := r.place == anyPlace

def weight (r : Request) : Resource := r.capability.times r.count

end Request

/-- A priority stays on record once requests named it. -/
structure Demand where
  requests : Table Priority (Table String Request) := ∅
deriving DecidableEq, Repr, Inhabited

namespace Demand

def request? (d : Demand) (priority : Priority) (place : String) : Option Request :=
  (d.requests.get? priority).bind (·.get? place)

def outstanding (d : Demand) (priority : Priority) : UInt32 :=
  ((d.request? priority anyPlace).map (·.count)).getD 0

def atPriority (d : Demand) (priority : Priority) : List Request :=
  ((d.requests.get? priority).map (·.values)).getD []

def all (d : Demand) : List Request := d.requests.values.flatMap (·.values)

def priorities (d : Demand) : List Priority := d.requests.keys

def put (d : Demand) (r : Request) : Demand :=
  ⟨d.requests.insert r.priority (((d.requests.get? r.priority).getD ∅).insert r.place r)⟩

def update (d : Demand) (requests : List Request) : Demand := requests.foldl put d

/-- A request with one container less; an exhausted one leaves, except at `anyPlace`. -/
def served (requests : Table String Request) (place : String) (r : Request) : Table String Request :=
  let count := UInt32.ofNatClamp (r.count.toNat - 1)
  if count = 0 ∧ place ≠ anyPlace then requests.erase place
  else requests.insert place { r with count }

def serve (d : Demand) (priority : Priority) (place : String) : Option Request × Demand :=
  match d.requests.get? priority with
  | none => (none, d)
  | some requests =>
    match requests.get? place with
    | none => (none, d)
    | some r => (some { r with count := 1 }, ⟨d.requests.insert priority (served requests place r)⟩)

def consume (d : Demand) (priority : Priority) : List String → List Request × Demand
  | [] => ([], d)
  | place :: places =>
    let (copy, rest) := d.serve priority place
    let (copies, final) := rest.consume priority places
    (copy.toList ++ copies, final)

def pending (d : Demand) : Resource :=
  .sum ((d.all.filter (·.isAnyPlace)).map (·.weight))

def pendingByPartition (d : Demand) : Table Partition Resource :=
  (d.all.filter (·.isAnyPlace)).foldl
    (fun totals r => totals.insert r.label ((totals.get? r.label).getD .zero + r.weight)) ∅

end Demand
end ClusterLedger
