/-
  File:      Retro24/Json/Issue.lean
  Subject:   What can be wrong with a JSON text, or with a value that should hold certain data.

  * `Found`, `Mismatch`: a value is not of the kind, size or name that is expected.
  * `Issue`: a text is no JSON, or a value inside it is a mismatch; `Issue.endedEarly` tells the
    texts that stop too soon from the others.
  * `Position`: the place of an issue, in lines from one and bytes within the line.
-/
import Retro24.Decimal
import Retro24.Json.Value
import Retro24.Text.Quoted

namespace Retro24.Json

/-! ## 1. Mismatches -/

/-- What stands where something else is expected. -/
inductive Found where
  | null
  | bool (b : Bool)
  | number (n : Number)
  | string (s : String)
  | sequence
  | map

/-- Doubles in messages: a point alone from 0.00001 to sixteen digits before the point. -/
def layout : Layout := ⟨-5, 15⟩

/-- How a message names what was found. -/
def Found.text : Found → String
  | null => "null"
  | bool b => "boolean `" ++ (if b then "true" else "false") ++ "`"
  | number (.integer i) => "integer `" ++ toString i ++ "`"
  | number (.real x) => "floating point `" ++ layout.text x ++ "`"
  | string s => "string " ++ Text.quoted s
  | sequence => "sequence"
  | map => "map"

/-- What a value is found to be. -/
def Value.found : Value → Found
  | null => .null
  | bool b => .bool b
  | number n => .number n
  | string s => .string s
  | array _ => .sequence
  | object _ => .map

/-- A value that does not hold what is expected of it. -/
inductive Mismatch where
  /-- It is of another kind. -/
  | wrongType (found : Found) (expected : String)
  /-- It is of the right kind and out of bounds. -/
  | wrongValue (found : Found) (expected : String)
  /-- A sequence has another number of elements. -/
  | wrongLength (length : Nat) (expected : String)
  /-- A name is none of the choices. -/
  | unknownVariant (name : String) (choices : List String)
  | missingField (name : String)
  | duplicateField (name : String)

/-- The choices of a message, each between backquotes. -/
def choicesText (choices : List String) : String :=
  let quoted := choices.map fun c => "`" ++ c ++ "`"
  match quoted with
  | [a] => a
  | [a, b] => a ++ " or " ++ b
  | _ => "one of " ++ ", ".intercalate quoted

/-- The text of a mismatch. -/
def Mismatch.message : Mismatch → String
  | wrongType found expected => "invalid type: " ++ found.text ++ ", expected " ++ expected
  | wrongValue found expected => "invalid value: " ++ found.text ++ ", expected " ++ expected
  | wrongLength length expected => "invalid length " ++ toString length ++ ", expected " ++ expected
  | unknownVariant name choices =>
    "unknown variant `" ++ name ++ "`, expected " ++ choicesText choices
  | missingField name => "missing field `" ++ name ++ "`"
  | duplicateField name => "duplicate field `" ++ name ++ "`"

/-! ## 2. Issues -/

/-- Why a text cannot be read. -/
inductive Issue where
  | endInList
  | endInObject
  | endInString
  | endInValue
  | expectedColon
  | expectedListCommaOrEnd
  | expectedObjectCommaOrEnd
  | expectedWord
  | expectedValue
  | invalidEscape
  | invalidNumber
  | numberOutOfRange
  | controlCharacter
  | keyMustBeString
  | loneSurrogate
  | trailingComma
  | trailingCharacters
  | unfinishedSurrogatePair
  | nestedTooDeep
  | mismatch (m : Mismatch)

namespace Issue

/-- The text of an issue, without its place. -/
def message : Issue → String
  | endInList => "EOF while parsing a list"
  | endInObject => "EOF while parsing an object"
  | endInString => "EOF while parsing a string"
  | endInValue => "EOF while parsing a value"
  | expectedColon => "expected `:`"
  | expectedListCommaOrEnd => "expected `,` or `]`"
  | expectedObjectCommaOrEnd => "expected `,` or `\x7d`"
  | expectedWord => "expected ident"
  | expectedValue => "expected value"
  | invalidEscape => "invalid escape"
  | invalidNumber => "invalid number"
  | numberOutOfRange => "number out of range"
  | controlCharacter => "control character (\\u0000-\\u001F) found while parsing a string"
  | keyMustBeString => "key must be a string"
  | loneSurrogate => "lone leading surrogate in hex escape"
  | trailingComma => "trailing comma"
  | trailingCharacters => "trailing characters"
  | unfinishedSurrogatePair => "unexpected end of hex escape"
  | nestedTooDeep => "recursion limit exceeded"
  | mismatch m => m.message

/-- Whether the text is a beginning that ends too soon. -/
def endedEarly : Issue → Bool
  | endInList | endInObject | endInString | endInValue => true
  | _ => false

end Issue

/-! ## 3. Places -/

/-- A place in a text: the line, from one, and the bytes of it that lie before the place. -/
structure Position where
  line : Nat
  column : Nat
  deriving DecidableEq

namespace Position

/-- The start of a text. -/
def start : Position := ⟨1, 0⟩

/-- The place behind a character. -/
def behind (p : Position) (c : Char) : Position :=
  if c = '\n' then ⟨p.line + 1, 0⟩ else ⟨p.line, p.column + c.utf8Size⟩

/-- The place that lies a number of bytes further on, or at the end of the text. -/
def forward (p : Position) : Nat → List Char → Position
  | _, [] => p
  | bytes, c :: cs =>
    if c.utf8Size ≤ bytes then (p.behind c).forward (bytes - c.utf8Size) cs
    else ⟨p.line, p.column + bytes⟩

end Position

/-- An issue and its place: a number of bytes behind the start of what is left of the text. -/
structure Failure where
  issue : Issue
  rest : List Char
  ahead : Nat

/-- An issue with its place in the text. -/
structure Complaint where
  issue : Issue
  position : Position

/-- The place of a failure in the text. -/
def Failure.complaint (text : List Char) (f : Failure) : Complaint :=
  let read := text.take (text.length - f.rest.length)
  ⟨f.issue, (read.foldl Position.behind .start).forward f.ahead f.rest⟩

/-- The text of an issue and its place. -/
def Complaint.message (c : Complaint) : String :=
  c.issue.message ++ " at line " ++ toString c.position.line ++ " column " ++
    toString c.position.column

end Retro24.Json
