import ClusterLedger.Document.Toml.Reader
/- TOML: writing a table of plain values and of tables. -/
namespace ClusterLedger.Toml
open Scan

def hexDigit (n : Nat) : Char := (Nat.digitChar (n % 16)).toUpper

def writeChar (c : Char) : String :=
  match c with
  | '"' => "\\\""
  | '\\' => "\\\\"
  | '\n' => "\\n"
  | '\r' => "\\r"
  | '\t' => "\\t"
  | '\x08' => "\\b"
  | '\x0c' => "\\f"
  | c =>
    if isPlain c then c.toString
    else "\\u00" ++ .ofList [hexDigit (c.toNat / 16), hexDigit c.toNat]

def writeText (s : String) : String :=
  s.toList.foldl (fun out c => out ++ writeChar c) "\"" ++ "\""

def writeKey (key : String) : String :=
  if key.toList.all isBareKey && !key.isEmpty then key else writeText key

/-- A value on its line. Whole numbers beyond 64 bits with sign cannot be written. -/
def writeValue : Document → Option String
  | .bool b => some (if b then "true" else "false")
  | .int n => (integer? n).map fun _ => toString n
  | .text s => some (writeText s)
  | _ => none

def writeValues : List (String × Document) → Option String
  | [] => some ""
  | (_, .object _) :: rest => writeValues rest
  | (key, d) :: rest => do
    return writeKey key ++ " = " ++ (← writeValue d) ++ "\n" ++ (← writeValues rest)

def writeTables : List (String × Document) → Option String
  | [] => some ""
  | (key, .object fields) :: rest => do
    return "\n[" ++ writeKey key ++ "]\n" ++ (← writeValues fields) ++ (← writeTables rest)
  | _ :: rest => writeTables rest

/-- The text of a table whose inner tables hold plain values only. -/
def write : Document → Option String
  | .object fields => do return (← writeValues fields) ++ (← writeTables fields)
  | _ => none

end ClusterLedger.Toml
