import ClusterLedger.Document.Scan
import ClusterLedger.Document.Toml.Tree
/- TOML 1.0: reading a text as a document. Whole numbers have 64 bits. -/
namespace ClusterLedger.Toml
open Scan

/-- Spare list items are passed over, and an empty table or list may follow a bare choice. -/
def dialect : Dialect where
  allowsSpareItems := true
  isBlankContent d := match d with
    | .object [] => true
    | .list [] => true
    | _ => false

def depthLimit : Nat := 79

def isSpace (c : Char) : Bool := c == ' ' || c == '\t'

def skipSpaces (cs : List Char) : List Char := cs.dropWhile isSpace

def isPlain (c : Char) : Bool := c == '\t' || (32 ≤ c.toNat && c.toNat != 127)

def newline? : List Char → Option (List Char)
  | '\n' :: rest => some rest
  | '\r' :: '\n' :: rest => some rest
  | _ => none

def skipComment : List Char → List Char
  | '#' :: rest => rest.dropWhile isPlain
  | cs => cs

def endLine (cs : List Char) : Option (List Char) :=
  match skipComment (skipSpaces cs) with
  | [] => some []
  | rest => newline? rest

def skipLines : Nat → List Char → List Char
  | 0, cs => cs
  | fuel + 1, cs =>
    match cs with
    | ' ' :: rest => skipLines fuel rest
    | '\t' :: rest => skipLines fuel rest
    | '\n' :: rest => skipLines fuel rest
    | '\r' :: '\n' :: rest => skipLines fuel rest
    | '#' :: rest => skipLines fuel (rest.dropWhile isPlain)
    | cs => cs

def skipAll (cs : List Char) : List Char := skipLines cs.length cs

def readEscape : Reader Char
  | 'b' :: rest => some ('\x08', rest)
  | 't' :: rest => some ('\t', rest)
  | 'n' :: rest => some ('\n', rest)
  | 'f' :: rest => some ('\x0c', rest)
  | 'r' :: rest => some ('\r', rest)
  | '"' :: rest => some ('"', rest)
  | '\\' :: rest => some ('\\', rest)
  | 'u' :: rest => do
    let (code, rest) ← hexDigits 4 rest
    return (← charOf? code, rest)
  | 'U' :: rest => do
    let (code, rest) ← hexDigits 8 rest
    return (← charOf? code, rest)
  | _ => none

/-- The rest of a text within one line; `quote` ends it. Backslashes escape only between double
    quotes. `seen` holds what came before, last first. -/
def readLineText (quote : Char) : Nat → List Char → Reader String
  | 0, _, _ => none
  | fuel + 1, seen, cs =>
    match cs with
    | [] => none
    | c :: rest =>
      if c = quote then some (.ofList seen.reverse, rest)
      else if c = '\\' ∧ quote = '"' then do
        let (c, rest) ← readEscape rest
        readLineText quote fuel (c :: seen) rest
      else if isPlain c then readLineText quote fuel (c :: seen) rest
      else none

def continuation? (cs : List Char) : Option (List Char) :=
  (newline? (skipSpaces cs)).map fun rest => skipBlankLines rest.length rest
where
  skipBlankLines : Nat → List Char → List Char
    | 0, cs => cs
    | fuel + 1, cs =>
      match skipSpaces cs with
      | '\n' :: rest => skipBlankLines fuel rest
      | '\r' :: '\n' :: rest => skipBlankLines fuel rest
      | rest => rest

/-- The rest of a text over several lines, which three quotes end. Up to two more quotes belong to
    the text, and every line end is read as one character. -/
def readLongText (quote : Char) : Nat → List Char → Reader String
  | 0, _, _ => none
  | fuel + 1, seen, cs =>
    match cs with
    | [] => none
    | c :: rest =>
      if c = quote then
        let quotes := min (cs.takeWhile (· == quote)).length 5
        if 3 ≤ quotes then
          some (.ofList (seen.reverse ++ .replicate (quotes - 3) quote), cs.drop quotes)
        else readLongText quote fuel (quote :: seen) rest
      else if c = '\\' ∧ quote = '"' then
        match continuation? rest with
        | some rest => readLongText quote fuel seen rest
        | none => do
          let (c, rest) ← readEscape rest
          readLongText quote fuel (c :: seen) rest
      else
        match newline? cs with
        | some rest => readLongText quote fuel ('\n' :: seen) rest
        | none => if isPlain c then readLongText quote fuel (c :: seen) rest else none

def readText (quote : Char) (cs : List Char) : Option (String × List Char) :=
  match dropText [quote, quote] cs with
  | some rest => readLongText quote rest.length [] ((newline? rest).getD rest)
  | none => readLineText quote cs.length [] cs

def isBareKey (c : Char) : Bool :=
  isDigit c || ('a' ≤ c && c ≤ 'z') || ('A' ≤ c && c ≤ 'Z') || c == '_' || c == '-'

def readKeyPart : Reader String
  | '"' :: rest => readLineText '"' rest.length [] rest
  | '\'' :: rest => readLineText '\'' rest.length [] rest
  | cs =>
    match cs.span isBareKey with
    | ([], _) => none
    | (key, rest) => some (.ofList key, rest)

def readKeyParts : Nat → Reader (List String)
  | 0, _ => none
  | fuel + 1, cs => do
    let (part, rest) ← readKeyPart (skipSpaces cs)
    match skipSpaces rest with
    | '.' :: rest => do
      let (parts, rest) ← readKeyParts fuel rest
      return (part :: parts, rest)
    | rest => return ([part], rest)

def readKey : Reader (List String × String) := fun cs => do
  let (parts, rest) ← readKeyParts depthLimit cs
  let key ← parts.getLast?
  return ((parts.dropLast, key), rest)

def readDigits (isDigit : Char → Bool) : Nat → Reader (List Char)
  | 0, _ => none
  | fuel + 1, cs =>
    match cs with
    | [] => none
    | c :: rest =>
      if isDigit c then
        match rest with
        | '_' :: rest => (readDigits isDigit fuel rest).map fun (more, rest) => (c :: more, rest)
        | d :: _ =>
          if isDigit d then
            (readDigits isDigit fuel rest).map fun (more, rest) => (c :: more, rest)
          else some ([c], rest)
        | [] => some ([c], [])
      else none

def decimalDigits : Reader (List Char) := fun cs => readDigits isDigit cs.length cs

def readSign : List Char → Bool × List Char
  | '+' :: rest => (false, rest)
  | '-' :: rest => (true, rest)
  | rest => (false, rest)

def integer? (n : Int) : Option Document :=
  if -9223372036854775808 ≤ n ∧ n < 9223372036854775808 then some (.int n) else none

def readInBase (base : Nat) : Reader Document := fun cs => do
  let (digits, rest) ← readDigits (fun c => (digitIn? base c).isSome) cs.length cs
  let values ← digits.mapM (digitIn? base)
  return (← integer? (digitsValue base values), rest)

def readPower : Reader Int := fun cs => do
  let (negative, rest) := readSign cs
  let (digits, rest) ← decimalDigits rest
  let size : Int := digitsValue 10 (digits.map digitValue)
  return (if negative then -size else size, rest)

def readExponent : Reader (Option Int)
  | 'e' :: rest => (readPower rest).map fun (n, rest) => (some n, rest)
  | 'E' :: rest => (readPower rest).map fun (n, rest) => (some n, rest)
  | rest => some (none, rest)

def readFraction : Reader (Option (List Char))
  | '.' :: rest => (decimalDigits rest).map fun (digits, rest) => (some digits, rest)
  | rest => some (none, rest)

def readWhole : Reader (List Char)
  | '0' :: rest => some (['0'], rest)
  | cs => decimalDigits cs

/-- A decimal number. Only floating-point numbers may leave the range of whole ones, but not
    beyond all bounds. -/
def readDecimal : Reader Document := fun cs => do
  let (negative, rest) := readSign cs
  match rest with
  | 'i' :: 'n' :: 'f' :: rest => return (.float (if negative then -(1.0 / 0.0) else 1.0 / 0.0), rest)
  | 'n' :: 'a' :: 'n' :: rest => return (.float (0.0 / 0.0), rest)
  | _ =>
    let (digits, rest) ← readWhole rest
    let (fraction, rest) ← readFraction rest
    let (exponent, rest) ← readExponent rest
    if fraction.isNone && exponent.isNone then
      let n : Int := digitsValue 10 (digits.map digitValue)
      return (← integer? (if negative then -n else n), rest)
    else
      let fraction := fraction.getD []
      let x := decimalValue negative (digits ++ fraction) (exponent.getD 0 - fraction.length)
      if x.isInf && !negative then none else return (.float x, rest)

def readNumber : Reader Document
  | '0' :: 'x' :: rest => readInBase 16 rest
  | '0' :: 'o' :: rest => readInBase 8 rest
  | '0' :: 'b' :: rest => readInBase 2 rest
  | cs => readDecimal cs

def readField (count least most : Nat) : Reader Nat := fun cs => do
  let digits := cs.take count
  if digits.length = count ∧ digits.all isDigit then
    let n := digitsValue 10 (digits.map digitValue)
    if least ≤ n ∧ n ≤ most then some (n, cs.drop count) else none
  else none

def daysIn (year month : Nat) : Nat :=
  if month = 2 then
    if year % 4 = 0 ∧ (year % 100 ≠ 0 ∨ year % 400 = 0) then 29 else 28
  else if month = 4 ∨ month = 6 ∨ month = 9 ∨ month = 11 then 30
  else 31

def skipDate (cs : List Char) : Option (List Char) := do
  let (year, rest) ← readField 4 0 9999 cs
  let rest ← dropText ['-'] rest
  let (month, rest) ← readField 2 1 12 rest
  let rest ← dropText ['-'] rest
  let (_, rest) ← readField 2 1 (daysIn year month) rest
  return rest

def skipSplitSecond : List Char → Option (List Char)
  | '.' :: rest =>
    match spanDigits rest with
    | ([], _) => none
    | (_, rest) => some rest
  | rest => some rest

def skipTime (cs : List Char) : Option (List Char) := do
  let (_, rest) ← readField 2 0 23 cs
  let rest ← dropText [':'] rest
  let (_, rest) ← readField 2 0 59 rest
  let rest ← dropText [':'] rest
  let (_, rest) ← readField 2 0 60 rest
  skipSplitSecond rest

def skipOffset : List Char → Option (List Char)
  | 'Z' :: rest => some rest
  | 'z' :: rest => some rest
  | c :: rest =>
    if c = '+' ∨ c = '-' then do
      let (_, rest) ← readField 2 0 23 rest
      let rest ← dropText [':'] rest
      let (_, rest) ← readField 2 0 59 rest
      return rest
    else some (c :: rest)
  | [] => some []

def skipTimeOfDay : List Char → Option (List Char)
  | c :: rest =>
    if c = 'T' ∨ c = 't' then (skipTime rest).bind skipOffset
    else if c = ' ' then
      match skipTime rest with
      | some after => skipOffset after
      | none => some (c :: rest)
    else some (c :: rest)
  | [] => some []

def readMoment : Reader Document := fun cs =>
  match skipDate cs with
  | some rest => (skipTimeOfDay rest).map (.moment, ·)
  | none => (skipTime cs).map (.moment, ·)

def readItems (item : Reader Document) : Nat → List Document → Reader (List Document)
  | 0, _, _ => none
  | fuel + 1, seen, cs =>
    match skipAll cs with
    | ']' :: rest => some (seen.reverse, rest)
    | cs => do
      let (d, rest) ← item cs
      match skipAll rest with
      | ',' :: rest => readItems item fuel (d :: seen) rest
      | ']' :: rest => some ((d :: seen).reverse, rest)
      | _ => none

def readPair (value : Reader Document) : Reader ((List String × String) × Document) := fun cs => do
  let (key, rest) ← readKey cs
  let rest ← dropText ['='] rest
  let (d, rest) ← value (skipSpaces rest)
  return ((key, d), rest)

def readPairs (value : Reader Document) : Nat → Fields → Reader Fields
  | 0, _, _ => none
  | fuel + 1, seen, cs => do
    let (((path, key), d), rest) ← readPair value cs
    let fields ← putValue path key d seen
    match skipSpaces rest with
    | ',' :: rest => readPairs value fuel fields rest
    | '}' :: rest => some (fields, rest)
    | _ => none

def readValue : Nat → Reader Document
  | _, '"' :: rest => (readText '"' rest).map fun (s, rest) => (.text s, rest)
  | _, '\'' :: rest => (readText '\'' rest).map fun (s, rest) => (.text s, rest)
  | 0, '[' :: _ => none
  | 0, '{' :: _ => none
  | depth + 1, '[' :: rest =>
    (readItems (readValue depth) rest.length [] rest).map fun (items, rest) => (.list items, rest)
  | depth + 1, '{' :: rest =>
    match skipSpaces rest with
    | '}' :: rest => some (.object [], rest)
    | rest => (readPairs (readValue depth) rest.length [] rest).map fun (fields, rest) =>
      (.object (fieldsToDocuments fields), rest)
  | _, 't' :: rest => (dropText ['r', 'u', 'e'] rest).map (.bool true, ·)
  | _, 'f' :: rest => (dropText ['a', 'l', 's', 'e'] rest).map (.bool false, ·)
  | _, cs =>
    match readMoment cs with
    | some found => some found
    | none => readNumber cs

def readLine (draft : Draft) : List Char → Option (Draft × List Char)
  | '[' :: '[' :: rest => do
    let ((path, key), rest) ← readKey rest
    let rest ← dropText [']', ']'] rest
    return (← draft.openRepeated (path ++ [key]), ← endLine rest)
  | '[' :: rest => do
    let ((path, key), rest) ← readKey rest
    let rest ← dropText [']'] rest
    return (← draft.openTable (path ++ [key]), ← endLine rest)
  | cs => do
    let (((path, key), d), rest) ← readPair (readValue depthLimit) cs
    return (← draft.put path key d, ← endLine rest)

def readLines : Nat → Draft → List Char → Option Draft
  | 0, _, _ => none
  | fuel + 1, draft, cs =>
    match skipAll cs with
    | [] => some draft
    | cs => do
      let (draft, rest) ← readLine draft cs
      readLines fuel draft rest

def skipByteOrderMark : List Char → List Char
  | '\ufeff' :: rest => rest
  | cs => cs

def read (s : String) : Option Document := do
  let cs := skipByteOrderMark s.toList
  let draft ← readLines cs.length.succ {} cs
  let root ← draft.close
  return .object (fieldsToDocuments root)

end ClusterLedger.Toml
