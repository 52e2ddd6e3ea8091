/-
  File:      Retro24/Json/Reading.lean
  Subject:   Values, read from a text.

  * `nextElement`, `endList`, `nextKey`, `expectColon`, `endObject`: what stands between the parts
    of a container.
  * `readItems`, `readEntries`: the insides of a container, given how one value is read.
  * `readValue`: a value with a bound on the containers that may stand inside one another.
  * `skipValue`: a value that nobody looks at. It may be nested to any depth, its numbers may be of
    any size and its escapes any code units.
  * `Value.parse`: the value of a whole text.

  The loops count down from the length of the text, of which every turn takes something off.
-/
import Retro24.Json.Lexeme

namespace Retro24.Json

/-! ## 1. Between the parts -/

/-- Whether another element of a list follows. The answer stands with the text from that element on,
    or from the closing bracket on. -/
def nextElement (first : Bool) (cs : List Char) : Read Bool :=
  let cs := skipSpace cs
  match cs with
  | [] => .error (failure .endInList [] 0)
  | ']' :: _ => .ok (false, cs)
  | c :: rest =>
    if first then .ok (true, cs)
    else if c = ',' then
      let rest := skipSpace rest
      match rest with
      | [] => .error (failure .endInValue [] 0)
      | ']' :: _ => .error (failure .trailingComma rest 1)
      | _ => .ok (true, rest)
    else .error (failure .expectedListCommaOrEnd cs 1)

/-- The rest of a text behind the closing bracket of a list. -/
def endList (cs : List Char) : Except Failure (List Char) :=
  let cs := skipSpace cs
  match cs with
  | [] => .error (failure .endInList [] 0)
  | ']' :: rest => .ok rest
  | ',' :: rest =>
    let rest := skipSpace rest
    match rest with
    | ']' :: _ => .error (failure .trailingComma rest 1)
    | _ => .error (failure .trailingCharacters rest 1)
  | _ => .error (failure .trailingCharacters cs 1)

/-- Whether another key of an object follows. The answer stands with the text behind its opening
    quote, or from the closing bracket on. -/
def nextKey (first : Bool) (cs : List Char) : Read Bool :=
  let cs := skipSpace cs
  match cs with
  | [] => .error (failure .endInObject [] 0)
  | '}' :: _ => .ok (false, cs)
  | c :: rest =>
    if first then
      if c = '"' then .ok (true, rest) else .error (failure .keyMustBeString cs 1)
    else if c = ',' then
      let rest := skipSpace rest
      match rest with
      | [] => .error (failure .endInValue [] 0)
      | '"' :: rest => .ok (true, rest)
      | '}' :: _ => .error (failure .trailingComma rest 1)
      | _ => .error (failure .keyMustBeString rest 1)
    else .error (failure .expectedObjectCommaOrEnd cs 1)

/-- The rest of a text behind the colon after a key. -/
def expectColon (cs : List Char) : Except Failure (List Char) :=
  let cs := skipSpace cs
  match cs with
  | [] => .error (failure .endInObject [] 0)
  | ':' :: rest => .ok rest
  | _ => .error (failure .expectedColon cs 1)

/-- The rest of a text behind the closing bracket of an object. -/
def endObject (cs : List Char) : Except Failure (List Char) :=
  let cs := skipSpace cs
  match cs with
  | [] => .error (failure .endInObject [] 0)
  | '}' :: rest => .ok rest
  | ',' :: _ => .error (failure .trailingComma cs 1)
  | _ => .error (failure .trailingCharacters cs 1)

/-! ## 2. Containers -/

/-- The elements of a list up to its closing bracket, `done` being those already read, the last one
    first. -/
def readItems {α : Type} (item : List Char → Read α) (first : Bool) (done : List α)
    (cs : List Char) : Nat → Read (List α)
  | 0 => .error (failure .endInList cs 0)
  | limit + 1 =>
    match nextElement first cs with
    | .error e => .error e
    | .ok (false, rest) => (endList rest).map fun rest => (done.reverse, rest)
    | .ok (true, rest) =>
      match item rest with
      | .error e => .error e
      | .ok (x, rest) => readItems item false (x :: done) rest limit

/-- The entries of an object up to its closing bracket, on top of those already read. Of two entries
    with one key the later one stays. -/
def readEntries {α : Type} (item : List Char → Read α) (first : Bool) (done : List (String × α))
    (cs : List Char) : Nat → Read (List (String × α))
  | 0 => .error (failure .endInObject cs 0)
  | limit + 1 =>
    match nextKey first cs with
    | .error e => .error e
    | .ok (false, rest) => (endObject rest).map fun rest => (done, rest)
    | .ok (true, rest) =>
      match readString rest with
      | .error e => .error e
      | .ok (key, rest) =>
        match expectColon rest with
        | .error e => .error e
        | .ok rest =>
          match item rest with
          | .error e => .error e
          | .ok (x, rest) => readEntries item false (insertEntry key x done) rest limit

/-! ## 3. Values -/

/-- A value, given how the values inside it are read; nothing is given where no container may be
    opened any more. -/
def readValueWith (limit : Nat) (nested : Option (List Char → Read Value)) (cs : List Char) :
    Read Value :=
  let cs := skipSpace cs
  match cs with
  | [] => .error (failure .endInValue [] 0)
  | 'n' :: rest => (expectWord ['u', 'l', 'l'] rest).map fun rest => (.null, rest)
  | 't' :: rest => (expectWord ['r', 'u', 'e'] rest).map fun rest => (.bool true, rest)
  | 'f' :: rest => (expectWord ['a', 'l', 's', 'e'] rest).map fun rest => (.bool false, rest)
  | '"' :: rest => (readString rest).map fun (s, rest) => (.string s, rest)
  | '[' :: rest =>
    match nested with
    | none => .error (failure .nestedTooDeep cs 1)
    | some item => (readItems item true [] rest limit).map fun (xs, rest) => (.array xs, rest)
  | '{' :: rest =>
    match nested with
    | none => .error (failure .nestedTooDeep cs 1)
    | some item => (readEntries item true [] rest limit).map fun (xs, rest) => (.object xs, rest)
  | '-' :: rest => (readNumber true rest).map fun (n, rest) => (.number n, rest)
  | c :: _ =>
    if c.isDigit then (readNumber false cs).map fun (n, rest) => (.number n, rest)
    else .error (failure .expectedValue cs 1)

/-- A value with at most `depth` containers inside one another. -/
def readValue (limit : Nat) : Nat → List Char → Read Value
  | 0 => readValueWith limit none
  | depth + 1 => readValueWith limit (some (readValue limit depth))

/-- The number of containers that may stand inside one another. -/
def deepest : Nat := 127

/-- Nothing but spaces is left of a text. -/
def expectEnd (cs : List Char) : Except Failure Unit :=
  match skipSpace cs with
  | [] => .ok ()
  | rest => .error (failure .trailingCharacters rest 1)

/-- What a whole text holds, given how it is read from the front. -/
def readAll {α : Type} (read : List Char → Read α) (text : String) : Except Complaint α :=
  let cs := text.toList
  let answer : Except Failure α :=
    match read cs with
    | .error e => .error e
    | .ok (x, rest) => (expectEnd rest).map fun _ => x
  answer.mapError (Failure.complaint cs)

/-- The value of a whole text. -/
def Value.parse (text : String) : Except Complaint Value :=
  readAll (readValue text.length deepest) text

/-! ## 4. Values that nobody looks at -/

/-- A kind of container. -/
inductive Container where
  | list
  | object

/-- What is to come while values are passed over. -/
inductive Awaited where
  /-- A value. -/
  | value
  /-- The first part of the innermost container, or its end. -/
  | firstPart
  /-- A comma and the next part of the innermost container, or its end. -/
  | nextPart

/-- The rest of a text behind the key and the colon that open a part of a container, if it is an
    object. -/
def skipKey (container : Container) (cs : List Char) : Except Failure (List Char) :=
  match container with
  | .list => .ok cs
  | .object =>
    let cs := skipSpace cs
    match cs with
    | [] => .error (failure .endInObject [] 0)
    | '"' :: rest => (skipString rest).bind expectColon
    | _ => .error (failure .keyMustBeString cs 1)

/-- The rest of a text behind a value that opens no container. -/
def skipScalar (cs : List Char) : Except Failure (List Char) :=
  match cs with
  | [] => .error (failure .endInValue [] 0)
  | 'n' :: rest => expectWord ['u', 'l', 'l'] rest
  | 't' :: rest => expectWord ['r', 'u', 'e'] rest
  | 'f' :: rest => expectWord ['a', 'l', 's', 'e'] rest
  | '"' :: rest => skipString rest
  | '-' :: rest => skipNumber rest
  | c :: _ => if c.isDigit then skipNumber cs else .error (failure .expectedValue cs 1)

/-- The issue of a container that neither goes on nor ends. -/
def expectedCommaOrEnd : Container → Issue
  | .list => .expectedListCommaOrEnd
  | .object => .expectedObjectCommaOrEnd

/-- The rest of a text behind a value inside open containers, the innermost one first. -/
def skipFrom (awaited : Awaited) (enclosing : List Container) (cs : List Char) :
    Nat → Except Failure (List Char)
  | 0 => .error (failure .endInValue cs 0)
  | limit + 1 =>
    let cs := skipSpace cs
    match awaited, enclosing with
    | .value, _ =>
      match cs with
      | '[' :: rest => skipFrom .firstPart (.list :: enclosing) rest limit
      | '{' :: rest => skipFrom .firstPart (.object :: enclosing) rest limit
      | _ => (skipScalar cs).bind fun rest => skipFrom .nextPart enclosing rest limit
    | _, [] => .ok cs
    | _, container :: outer =>
      match container, cs with
      | .list, [] => .error (failure .endInList [] 0)
      | .object, [] => .error (failure .endInObject [] 0)
      | .list, ']' :: rest => skipFrom .nextPart outer rest limit
      | .object, '}' :: rest => skipFrom .nextPart outer rest limit
      | _, c :: rest =>
        match awaited with
        | .nextPart =>
          if c = ',' then
            (skipKey container rest).bind fun rest => skipFrom .value enclosing rest limit
          else .error (failure (expectedCommaOrEnd container) cs 1)
        | _ => (skipKey container cs).bind fun rest => skipFrom .value enclosing rest limit

theorem skipFrom_zero (awaited : Awaited) (enclosing : List Container) (cs : List Char) :
    skipFrom awaited enclosing cs 0 = .error (failure .endInValue cs 0) := by
  rw [skipFrom]

/-- The rest of a text behind a value. Every second turn at least takes a character. -/
def skipValue (limit : Nat) (cs : List Char) : Except Failure (List Char) :=
  skipFrom .value [] cs (2 * limit + 3)

end Retro24.Json
