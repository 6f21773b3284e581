import ClusterLedger.Codec.Simulation
import ClusterLedger.Config.Text
import ClusterLedger.Text.Quoted
/- The command line: reading arguments, and what each command answers. -/
namespace ClusterLedger.CommandLine

inductive Command
  | simulate (path : String)
  | checkConfig (path : String)
  | help
deriving DecidableEq, Repr

def Command.path? : Command → Option String
  | simulate path => some path
  | checkConfig path => some path
  | help => none

/-- What has been seen of a command line so far. `--log-json` may be given once before the command
    and once after it. -/
structure Seen where
  name : Option String := none
  path : Option String := none
  logJson : Bool := false
deriving DecidableEq, Repr

def isCommand (name : String) : Bool := name == "simulate" || name == "check-config"

def isValue (arg : String) : Bool :=
  !arg.isEmpty && (arg == "-" || !arg.startsWith "-")

def Seen.setPath (seen : Seen) (path : String) : Option Seen :=
  if seen.name.isSome && seen.path.isNone && !path.isEmpty then some { seen with path := some path }
  else none

def inlinePath? (arg : String) : Option String :=
  if arg.startsWith "--config=" then some (arg.drop 9).toString else none

/-- Reads the arguments in order; `none` is a wrong use of the command line. -/
def scan (seen : Seen) : List String → Option (Seen ⊕ Unit)
  | [] => some (.inl seen)
  | ["--"] => some (.inl seen)
  | "--help" :: _ => some (.inr ())
  | "-h" :: _ => some (.inr ())
  | "--log-json" :: rest => if seen.logJson then none else scan { seen with logJson := true } rest
  | "--config" :: path :: rest =>
    if isValue path then (seen.setPath path).bind fun seen => scan seen rest else none
  | arg :: rest =>
    match inlinePath? arg with
    | some path => (seen.setPath path).bind fun seen => scan seen rest
    | none =>
      if seen.name.isNone && isCommand arg then scan { name := some arg } rest
      else none

def parse (args : List String) : Option Command := do
  match args with
  | ["help"] => return .help
  | ["help", name] => if isCommand name || name == "help" then some .help else none
  | _ =>
    match ← scan {} args with
    | .inr () => return .help
    | .inl seen =>
      let path ← seen.path
      match seen.name with
      | some "simulate" => return .simulate path
      | some "check-config" => return .checkConfig path
      | _ => none

inductive Line
  | text (s : String)
  | document (d : Document)

def Line.render : Line → String
  | text s => s
  | document d => Json.write d

def usage : List String := [
  "usage: simulate --config PATH [--log-json]",
  "       check-config --config PATH [--log-json]"]

def overview (c : Cluster) : String :=
  s!"ok: {c.nodes.length} nodes, {c.queues.length} queues, {c.attempts.length} attempts, " ++
  s!"cluster {c.resource}, partitions {Quoted.quoteAll c.partitions}"

def linesOf (text : String) : List String :=
  (text.splitOn "\n").dropLast

def checkConfig (c : Cluster) : List Line × Option ConfigError :=
  match c.scheduler.toText with
  | .ok text => (.text (overview c) :: (linesOf text).map .text, none)
  | .error e => ([.text (overview c)], some e)

def simulate (c : Cluster) : List Line × Option ConfigError :=
  match Simulation.run c with
  | .error e => ([], some (.cluster e))
  | .ok report =>
    (report.heartbeats.map (.document <| encode ·) ++ [.document (.object [
      ("cluster", encode report.cluster), ("passes", encode report.passes),
      ("preempted", encode report.preempted), ("attempts", encode report.attempts)])], none)

def withCluster (path : String) (content : Option String)
    (f : Cluster → List Line × Option ConfigError) : List Line × Option ConfigError :=
  match Cluster.ofFile path content with
  | .ok c => f c
  | .error e => ([], some e)

def execute (content : Option String) : Command → List Line × Option ConfigError
  | .help => (usage.map .text, none)
  | .simulate path => withCluster path content simulate
  | .checkConfig path => withCluster path content checkConfig

def indent (text : String) : String :=
  "\n".intercalate ((text.splitOn "\n").map ("    " ++ ·))

def errorText (e : ConfigError) : String :=
  match e.chain with
  | [] => ""
  | [outermost] => "Error: " ++ outermost.message
  | outermost :: causes =>
    "\n".intercalate (("Error: " ++ outermost.message) :: "" :: "Caused by:" ::
      causes.map fun cause => indent cause.message)

end ClusterLedger.CommandLine
