import ClusterLedger.Document
import ClusterLedger.Document.Scan
import ClusterLedger.Decimal.Layout
/- JSON: reading and writing documents as text.
   Whole numbers of 64 bits stay whole; larger ones become floating-point numbers. -/
namespace ClusterLedger.Json
open Scan

/-- A list must not be longer than its structure, and only `null` may follow a bare choice. -/
def dialect : Dialect where
  allowsSpareItems := false
  isBlankContent d := match d with
    | .null => true
    | _ => false

def depthLimit : Nat := 127

def isBlank (c : Char) : Bool := c == ' ' || c == '\n' || c == '\t' || c == '\r'

def skipBlanks (cs : List Char) : List Char := cs.dropWhile isBlank

def joinHalves (high low : Nat) : Nat := 0x10000 + (high - 0xD800) * 0x400 + (low - 0xDC00)

def readUnicode : Reader Char := fun cs => do
  let (high, rest) ← hexDigits 4 cs
  if 0xD800 ≤ high ∧ high < 0xDC00 then
    let rest ← dropText ['\\', 'u'] rest
    let (low, rest) ← hexDigits 4 rest
    if 0xDC00 ≤ low ∧ low < 0xE000 then return (← charOf? (joinHalves high low), rest) else none
  else return (← charOf? high, rest)

def readEscape : Reader Char
  | '"' :: rest => some ('"', rest)
  | '\\' :: rest => some ('\\', rest)
  | '/' :: rest => some ('/', rest)
  | 'b' :: rest => some ('\x08', rest)
  | 'f' :: rest => some ('\x0c', rest)
  | 'n' :: rest => some ('\n', rest)
  | 'r' :: rest => some ('\r', rest)
  | 't' :: rest => some ('\t', rest)
  | 'u' :: rest => readUnicode rest
  | _ => none

/-- The rest of a text after its opening quote. `seen` holds what came before, last first. -/
def readText : Nat → List Char → Reader String
  | 0, _, _ => none
  | fuel + 1, seen, cs =>
    match cs with
    | '"' :: rest => some (.ofList seen.reverse, rest)
    | '\\' :: rest => do
      let (c, rest) ← readEscape rest
      readText fuel (c :: seen) rest
    | c :: rest => if c.toNat < 32 then none else readText fuel (c :: seen) rest
    | [] => none

def readFraction : Reader (Option (List Char))
  | '.' :: rest =>
    match spanDigits rest with
    | ([], _) => none
    | (digits, rest) => some (some digits, rest)
  | rest => some (none, rest)

def readSign : List Char → Bool × List Char
  | '+' :: rest => (false, rest)
  | '-' :: rest => (true, rest)
  | rest => (false, rest)

def readExponent : Reader (Option Int)
  | c :: rest =>
    if c = 'e' ∨ c = 'E' then
      let (negative, rest) := readSign rest
      match spanDigits rest with
      | ([], _) => none
      | (digits, rest) =>
        let size : Int := digitsValue 10 (digits.map digitValue)
        some (some (if negative then -size else size), rest)
    else some (none, c :: rest)
  | [] => some (none, [])

/-- A whole number, if it fits in 64 bits with its sign; minus zero is no whole number. -/
def wholeNumber (negative : Bool) (digits : List Char) : Document :=
  let n : Int := digitsValue 10 (digits.map digitValue)
  if negative then
    if 0 < n ∧ n ≤ 9223372036854775808 then .int (-n) else .float (decimalValue true digits 0)
  else if n < UInt64.size then .int n
  else .float (decimalValue false digits 0)

def readNumber : Reader Document := fun cs => do
  let (negative, cs) := match cs with
    | '-' :: rest => (true, rest)
    | _ => (false, cs)
  let (digits, rest) := spanDigits cs
  if digits.isEmpty || (digits.head? == some '0' && 1 < digits.length) then none
  else
    let (fraction, rest) ← readFraction rest
    let (exponent, rest) ← readExponent rest
    if fraction.isNone && exponent.isNone then return (wholeNumber negative digits, rest)
    else
      let fraction := fraction.getD []
      let x := decimalValue negative (digits ++ fraction) (exponent.getD 0 - fraction.length)
      if x.isInf then none else return (.float x, rest)

def readWord (word : String) (d : Document) : Reader Document := fun cs =>
  (dropText word.toList cs).map (d, ·)

def readItems (item : Reader Document) : Nat → List Document → Reader (List Document)
  | 0, _, _ => none
  | fuel + 1, seen, cs => do
    let (d, rest) ← item (skipBlanks cs)
    match skipBlanks rest with
    | ',' :: rest => readItems item fuel (d :: seen) rest
    | ']' :: rest => some ((d :: seen).reverse, rest)
    | _ => none

def putField (name : String) (d : Document) (fields : List (String × Document)) :
    List (String × Document) :=
  if fields.any (·.1 == name) then fields.map fun f => if f.1 == name then (name, d) else f
  else (name, d) :: fields

def readFields (item : Reader Document) :
    Nat → List (String × Document) → Reader (List (String × Document))
  | 0, _, _ => none
  | fuel + 1, seen, cs => do
    match skipBlanks cs with
    | '"' :: rest =>
      let (name, rest) ← readText rest.length.succ [] rest
      match skipBlanks rest with
      | ':' :: rest =>
        let (d, rest) ← item (skipBlanks rest)
        match skipBlanks rest with
        | ',' :: rest => readFields item fuel (putField name d seen) rest
        | '}' :: rest => some ((putField name d seen).reverse, rest)
        | _ => none
      | _ => none
    | _ => none

/-- A document in front; `depth` more levels may open in it. -/
def readDocument : Nat → Reader Document
  | _, '"' :: rest => (readText rest.length.succ [] rest).map fun (s, rest) => (.text s, rest)
  | 0, '[' :: _ => none
  | 0, '{' :: _ => none
  | depth + 1, '[' :: rest =>
    match skipBlanks rest with
    | ']' :: rest => some (.list [], rest)
    | rest => (readItems (readDocument depth) rest.length.succ [] rest).map fun (items, rest) =>
      (.list items, rest)
  | depth + 1, '{' :: rest =>
    match skipBlanks rest with
    | '}' :: rest => some (.object [], rest)
    | rest => (readFields (readDocument depth) rest.length.succ [] rest).map fun (fields, rest) =>
      (.object fields, rest)
  | _, 'n' :: rest => readWord "null" .null ('n' :: rest)
  | _, 't' :: rest => readWord "true" (.bool true) ('t' :: rest)
  | _, 'f' :: rest => readWord "false" (.bool false) ('f' :: rest)
  | _, cs => readNumber cs

def read (s : String) : Option Document := do
  let (d, rest) ← readDocument depthLimit (skipBlanks s.toList)
  if (skipBlanks rest).isEmpty then some d else none

def hexDigit (n : Nat) : Char := Nat.digitChar (n % 16)

def writeChar (c : Char) : String :=
  match c with
  | '"' => "\\\""
  | '\\' => "\\\\"
  | '\n' => "\\n"
  | '\r' => "\\r"
  | '\t' => "\\t"
  | '\x08' => "\\b"
  | '\x0c' => "\\f"
  | c =>
    if c.toNat < 32 then "\\u00" ++ .ofList [hexDigit (c.toNat / 16), hexDigit c.toNat]
    else c.toString

def writeText (s : String) : String :=
  s.toList.foldl (fun out c => out ++ writeChar c) "\"" ++ "\""

mutual

def write : Document → String
  | .null => "null"
  | .bool b => if b then "true" else "false"
  | .int n => toString n
  | .float x => Decimal.Layout.document.text x
  | .text s => writeText s
  | .moment => "null"
  | .list [] => "[]"
  | .list (d :: rest) => "[" ++ write d ++ writeItems rest
  | .object [] => "\x7b\x7d"
  | .object ((name, d) :: rest) => "\x7b" ++ writeText name ++ ":" ++ write d ++ writeFields rest

def writeItems : List Document → String
  | [] => "]"
  | d :: rest => "," ++ write d ++ writeItems rest

def writeFields : List (String × Document) → String
  | [] => "\x7d"
  | (name, d) :: rest => "," ++ writeText name ++ ":" ++ write d ++ writeFields rest

end

end ClusterLedger.Json
