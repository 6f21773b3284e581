import ClusterLedger.Demand
import ClusterLedger.Proofs.Amount
import ClusterLedger.Proofs.Table
/- What an application still waits for, in all and partition by partition. Products and sums are cut
   to their widths on the way, once for each request, each partition and the total, which comes to
   the same as cutting the exact sum once. -/
namespace ClusterLedger

def Request.exact (r : Request) (x : Dimension) : Nat := r.capability.amount x * r.count.toNat

namespace Demand

variable (totals : Table Partition Resource) (l : List Request) (p : Partition) (x : Dimension)

end Demand
end ClusterLedger
