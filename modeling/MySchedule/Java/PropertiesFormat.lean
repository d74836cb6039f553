import Mathlib.Data.UInt
import MySchedule.Java.Throwable
import MySchedule.Keyed.PutAll

/-!
# The line format of `java.util.Properties`

A text is split into natural lines. Comment and blank lines are dropped, and a line that
ends in an odd number of backslashes goes on with the next one. A logical line is a key,
up to the first blank, `=` or `:` that no backslash escapes, and a value; both may hold
escapes.
-/

namespace MySchedule.Java

open Keyed

/-- A string as its UTF-16 code units. -/
abbrev Text := List UInt16

/-- The code unit of a character of the basic plane. -/
def unit (c : Char) : UInt16 := UInt16.ofNat c.toNat

/-- The code units of a literal. -/
def text (literal : String) : Text := literal.toList.map unit

namespace PropertiesFormat

def lineFeed : UInt16 := unit '\n'

def carriageReturn : UInt16 := unit '\r'

def backslash : UInt16 := unit '\\'

/-- Space, tab or form feed. -/
def isBlank (c : UInt16) : Bool := c = unit ' ' || c = unit '\t' || c = 12

def isBreak (c : UInt16) : Bool := c = lineFeed || c = carriageReturn

def isSeparator (c : UInt16) : Bool := c = unit '=' || c = unit ':'

/-- A unit that ends a key. -/
def isTerminator (c : UInt16) : Bool := isBlank c || isSeparator c

/-- The natural lines: a line ends at a line feed, at a carriage return, or at a carriage
return with a line feed after it. -/
def naturalLines (afterReturn : Bool) : Text → List Text
  | [] => [[]]
  | c :: text =>
    if c = carriageReturn then [] :: naturalLines true text
    else if c = lineFeed then
      if afterReturn then naturalLines false text else [] :: naturalLines false text
    else (naturalLines false text).modifyHead (c :: ·)

def skipBlanks (line : Text) : Text := line.dropWhile isBlank

def isComment (line : Text) : Bool :=
  line.head? = some (unit '#') || line.head? = some (unit '!')

/-- The line ends in an odd number of backslashes. -/
def continues (line : Text) : Bool :=
  line.foldl (fun precedingBackslash c => c = backslash && !precedingBackslash) false

/-- The logical lines; `begun` is a line that the natural lines before have left open. -/
def logicalLines : Option Text → List Text → List Text
  | none, [] => []
  | some begun, [] => if begun = [] then [] else [begun]
  | none, natural :: rest =>
    let line := skipBlanks natural
    if line = [] || isComment line then logicalLines none rest
    else if continues line then logicalLines (some line.dropLast) rest
    else line :: logicalLines none rest
  | some begun, natural :: rest =>
    let line := skipBlanks natural
    if continues line then logicalLines (some (begun ++ line.dropLast)) rest
    else if begun ++ line = [] then logicalLines none rest
    else (begun ++ line) :: logicalLines none rest

/-- The key as it is written, and the rest of the line from its terminator on. -/
def splitKey (precedingBackslash : Bool) : Text → Text × Text
  | [] => ([], [])
  | c :: line =>
    if isTerminator c && !precedingBackslash then ([], c :: line)
    else
      let split := splitKey (c = backslash && !precedingBackslash) line
      (c :: split.1, split.2)

/-- The value as it is written: after the key come blanks, with one separator among them. -/
def rawValue (rest : Text) : Text :=
  match skipBlanks rest with
  | [] => []
  | c :: value => if isSeparator c then skipBlanks value else c :: value

def malformedEncoding : Throwable :=
  .plain (.runtimeException "IllegalArgumentException") (some "Malformed \\uxxxx encoding.")

def hexDigit (c : UInt16) : Except Throwable UInt16 :=
  if unit '0' ≤ c ∧ c ≤ unit '9' then .ok (c - unit '0')
  else if unit 'a' ≤ c ∧ c ≤ unit 'f' then .ok (10 + c - unit 'a')
  else if unit 'A' ≤ c ∧ c ≤ unit 'F' then .ok (10 + c - unit 'A')
  else .error malformedEncoding

/-- The code unit that four hexadecimal digits stand for. -/
def hexUnit (digits : Text) : Except Throwable UInt16 :=
  digits.foldlM (fun value c => (hexDigit c).map fun digit => (value <<< 4) + digit) 0

/-- The unit that a backslash and `c` stand for. -/
def control (c : UInt16) : UInt16 :=
  if c = unit 't' then unit '\t'
  else if c = unit 'r' then carriageReturn
  else if c = unit 'n' then lineFeed
  else if c = unit 'f' then 12
  else c

/-- A key or a value with its escapes replaced. -/
def loadConvert : Text → Except Throwable Text
  | [] => .ok []
  | c :: rest =>
    if c = backslash then
      match rest with
      | [] => .ok []
      | escaped :: rest =>
        if escaped = unit 'u' then
          match rest with
          | a :: b :: c :: d :: rest => do
            let decoded ← hexUnit [a, b, c, d]
            let rest ← loadConvert rest
            .ok (decoded :: rest)
          | _ => .error malformedEncoding
        else (loadConvert rest).map (control escaped :: ·)
    else (loadConvert rest).map (c :: ·)

/-- The key and the value of a logical line. -/
def property (line : Text) : Except Throwable (Text × Text) := do
  let split := splitKey false line
  let key ← loadConvert split.1
  let value ← loadConvert (rawValue split.2)
  .ok (key, value)

/-- Put the properties of logical lines into a table, one after the other. -/
def loadLines (props : LinkedMap Text Text) : List Text → Except Throwable (LinkedMap Text Text)
  | [] => .ok props
  | line :: lines => do
    let (key, value) ← property line
    loadLines (props.put key value) lines

/-- `props.load(reader)` on a new table. -/
def load (input : Text) : Except Throwable (LinkedMap Text Text) :=
  loadLines .empty (logicalLines none (naturalLines false input))

end PropertiesFormat

end MySchedule.Java
