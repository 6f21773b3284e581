import ClusterLedger.Codec.Config
import ClusterLedger.Document.Json
import ClusterLedger.Document.Toml.Writer
/- Settings and cluster descriptions as texts. -/
namespace ClusterLedger

inductive ConfigError
  /-- The text is no document, or the document has the wrong shape. -/
  | malformed
  | unwritable
  | zeroMinimum
  | cluster (e : ClusterError)
  | unreadable
  | reading (path : String) (cause : ConfigError)
  | parsing (path : String) (cause : ConfigError)
deriving DecidableEq, Repr

namespace ConfigError

def message : ConfigError → String
  | malformed => "not a TOML document of the expected shape"
  | unwritable => "a number is out of range for TOML"
  | zeroMinimum => "minimum_allocation must be non-zero"
  | cluster e => e.message
  | unreadable => "the file cannot be read"
  | reading path _ => s!"reading cluster config {path}"
  | parsing path _ => s!"parsing cluster config {path}"

/-- An error and its causes, the outermost first. -/
def chain : ConfigError → List ConfigError
  | reading path cause => reading path cause :: cause.chain
  | parsing path cause => parsing path cause :: cause.chain
  | e => [e]

end ConfigError

def ofToml [Decodable α] (text : String) : Except ConfigError α :=
  match (Toml.read text).bind (decode Toml.dialect) with
  | some x => .ok x
  | none => .error .malformed

namespace SchedulerConfig

def ofText (text : String) : Except ConfigError SchedulerConfig := do
  let config : SchedulerConfig ← ofToml text
  if config.minimumAllocation.isZero then throw .zeroMinimum
  return config

def toText (c : SchedulerConfig) : Except ConfigError String :=
  match Toml.write (encode c) with
  | some text => .ok text
  | none => .error .unwritable

def ofFile (content : Option String) : Except ConfigError SchedulerConfig :=
  match content with
  | some text => ofText text
  | none => .error .unreadable

end SchedulerConfig

namespace Cluster

def ofText (text : String) : Except ConfigError Cluster := do
  let c : Cluster ← ofToml text
  c.validate.mapError .cluster
  return c

def ofFile (path : String) (content : Option String) : Except ConfigError Cluster :=
  match content with
  | some text => (ofText text).mapError (.parsing path)
  | none => .error (.reading path .unreadable)

end Cluster
end ClusterLedger
