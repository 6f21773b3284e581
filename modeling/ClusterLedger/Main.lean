import ClusterLedger.CommandLine
/- The program: arguments and files come in, lines go out. -/
namespace ClusterLedger.CommandLine

def contentFor (command : Command) : IO (Option String) := do
  match command.path? with
  | none => return none
  | some path => try return some (← IO.FS.readFile path) catch _ => return none

def run (args : List String) : IO UInt32 := do
  match parse args with
  | none =>
    for line in usage do IO.eprintln line
    return 2
  | some command =>
    let (lines, problem) := execute (← contentFor command) command
    for line in lines do IO.println line.render
    match problem with
    | none => return 0
    | some e =>
      IO.eprintln (errorText e)
      return 1

end ClusterLedger.CommandLine

def main (args : List String) : IO UInt32 := ClusterLedger.CommandLine.run args
