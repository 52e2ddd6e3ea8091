/-
  File:      Retro24/Arguments.lean
  Subject:   The command line of a session.

  * `Arguments`: what may be asked for, with `Arguments.none` for an empty command line.
  * `Arguments.parse`: reads a command line. An option has its value behind an equals sign or in the
    next word, a switch has none, and neither may stand twice. One other word names the program, and
    behind two dashes every word is taken for it.
  * `Arguments.apply`: the settings with the options in place of what they say.
-/
import Retro24.Settings

namespace Retro24

/-! ## 1. Options -/

/-- What a session is asked to do. -/
structure Arguments where
  /-- The program to load. -/
  program : Option String
  /-- The settings file to start from. -/
  config : Option String
  /-- Where the settings in force are written. -/
  configOut : Option String
  /-- The most cycles to run; zero for no limit. -/
  cycles : UInt64
  batchLength : Option UInt32
  speed : Option String
  /-- The run is to keep pace with the clock; what it does is the same. -/
  realtime : Bool
  /-- The key held for the whole run. -/
  key : Option String
  /-- Every executed instruction is reported. -/
  trace : Bool
  /-- The number of statements listed before the run. -/
  disasm : Option Nat
  /-- The region dumped after the run. -/
  dump : Option String
  /-- The state restored before the run. -/
  stateIn : Option String
  /-- Where the state is written after the run. -/
  save : Option String
  /-- The final frame is shown in characters. -/
  shown : Bool
  /-- Where the final frame is written as a picture. -/
  png : Option String
  scale : Option UInt8
  deriving DecidableEq

/-- An empty command line. -/
def Arguments.none : Arguments :=
  { program := .none, config := .none, configOut := .none, cycles := 1000000
    batchLength := .none, speed := .none, realtime := false, key := .none, trace := false
    disasm := .none, dump := .none, stateIn := .none, save := .none, shown := false, png := .none
    scale := .none }

/-- A command line that asks for no session. -/
inductive UsageError where
  /-- It asks for help. -/
  | help
  /-- It cannot be understood. -/
  | rejected
  deriving DecidableEq

/-- What an option does with its value. -/
inductive OptionAction where
  /-- It takes a value, which it may refuse. -/
  | value (put : String → Arguments → Option Arguments)
  /-- It takes none. -/
  | switch (put : Arguments → Arguments)

/-- A natural number, with or without a plus sign. -/
def parseNat? (bound : Nat) (s : String) : Option Nat :=
  let digits :=
    match s.toList with
    | '+' :: rest => rest
    | cs => cs
  if digits ≠ [] ∧ digits.all Char.isDigit then
    let n := digits.foldl (fun n c => 10 * n + (c.toNat - 48)) 0
    if n < bound then some n else .none
  else .none

/-- A natural number, in which zero may also have a minus sign. -/
def parseSigned? (bound : Nat) (s : String) : Option Nat :=
  match s.toList with
  | '-' :: rest => if rest ≠ [] ∧ rest.all (· == '0') then some 0 else .none
  | _ => parseNat? bound s

/-- A path, which is not empty. -/
def parsePath? (s : String) : Option String := if s = "" then .none else some s

/-- The options by their names. -/
def optionTable : List (String × OptionAction) :=
  [("config", .value fun s a => (parsePath? s).map fun x => { a with config := some x }),
   ("write-config", .value fun s a => (parsePath? s).map fun x => { a with configOut := some x }),
   ("cycles", .value fun s a =>
      (parseNat? 0x10000000000000000 s).map fun n => { a with cycles := UInt64.ofNat n }),
   ("cycles-per-frame", .value fun s a =>
      (parseSigned? 0x100000000 s).map fun n => { a with batchLength := some (UInt32.ofNat n) }),
   ("speed", .value fun s a => some { a with speed := some s }),
   ("realtime", .switch fun a => { a with realtime := true }),
   ("key", .value fun s a => some { a with key := some s }),
   ("trace", .switch fun a => { a with trace := true }),
   ("disasm", .value fun s a =>
      (parseNat? 0x10000000000000000 s).map fun n => { a with disasm := some n }),
   ("dump", .value fun s a => some { a with dump := some s }),
   ("load-state", .value fun s a => (parsePath? s).map fun x => { a with stateIn := some x }),
   ("save", .value fun s a => (parsePath? s).map fun x => { a with save := some x }),
   ("show", .switch fun a => { a with shown := true }),
   ("png", .value fun s a => (parsePath? s).map fun x => { a with png := some x }),
   ("scale", .value fun s a =>
      (parseSigned? 0x100 s).map fun n => { a with scale := some (UInt8.ofNat n) })]

/-! ## 2. Command lines -/

namespace Arguments

/-- A word of the command line, taken for what it looks like. -/
inductive Word where
  /-- Two dashes alone. -/
  | separator
  /-- A long option, with the value behind its equals sign. -/
  | long (name : String) (value : Option String)
  /-- One dash and at least one letter; whether the first one asks for help. -/
  | short (help : Bool)
  /-- Any other word. -/
  | plain (word : String)

/-- What a word looks like. -/
def Word.ofString (s : String) : Word :=
  match s.toList with
  | ['-', '-'] => .separator
  | '-' :: '-' :: rest =>
    let name := String.ofList (rest.takeWhile (· != '='))
    match rest.dropWhile (· != '=') with
    | [] => .long name .none
    | _ :: value => .long name (some (String.ofList value))
  | '-' :: c :: _ => .short (c == 'h')
  | _ => .plain s

/-- The program named by a word; there is one at most. -/
def nameProgram (a : Arguments) (word : String) : Except UsageError Arguments :=
  match a.program, parsePath? word with
  | .none, some path => .ok { a with program := some path }
  | _, _ => .error .rejected

/-- Words behind two dashes. -/
def parsePlain (a : Arguments) : List String → Except UsageError Arguments
  | [] => .ok a
  | word :: words =>
    match a.nameProgram word with
    | .error e => .error e
    | .ok a => a.parsePlain words

/-- An option put in force, unless it was before. -/
def putOption (a : Arguments) (seen : List String) (name : String)
    (put : Arguments → Option Arguments) : Except UsageError (Arguments × List String) :=
  if seen.contains name then .error .rejected
  else
    match put a with
    | some a => .ok (a, name :: seen)
    | .none => .error .rejected

/-- An option that stands complete in one word. -/
def parseComplete (a : Arguments) (seen : List String) (name : String) (value : Option String) :
    Except UsageError (Arguments × List String) :=
  match Json.lookup? name optionTable, value with
  | some (.value put), some value => a.putOption seen name (put value)
  | some (.switch put), .none => a.putOption seen name fun a => some (put a)
  | .none, .none => .error (if name = "help" then .help else .rejected)
  | _, _ => .error .rejected

/-- Whether an option takes the next word for its value. -/
def takesNext (name : String) (value : Option String) :
    Option (String → Arguments → Option Arguments) :=
  match Json.lookup? name optionTable, value with
  | some (.value put), .none => some put
  | _, _ => .none

/-- Words of a command line, on top of the options in `seen`. -/
def parseFrom (a : Arguments) (seen : List String) : List String → Except UsageError Arguments
  | [] => .ok a
  | word :: words =>
    match Word.ofString word with
    | .separator => a.parsePlain words
    | .short help => .error (if help then .help else .rejected)
    | .plain word =>
      match a.nameProgram word with
      | .error e => .error e
      | .ok a => a.parseFrom seen words
    | .long name value =>
      match takesNext name value with
      | .none =>
        match a.parseComplete seen name value with
        | .error e => .error e
        | .ok (a, seen) => a.parseFrom seen words
      | some put =>
        match words with
        | [] => .error .rejected
        | next :: words =>
          match Word.ofString next with
          | .plain value =>
            match a.putOption seen name (put value) with
            | .error e => .error e
            | .ok (a, seen) => a.parseFrom seen words
          | _ => .error .rejected

/-- A command line. -/
def parse (words : List String) : Except UsageError Arguments := none.parseFrom [] words

/-! ## 3. Settings in force -/

/-- The settings with the options in place of what they say, or the name of a clock rate that is
    none. -/
def apply (a : Arguments) (s : Settings) : Except String Settings :=
  let speed : Except String ClockRate :=
    match a.speed with
    | .none => .ok s.clockRate
    | some name =>
      match ClockRate.ofName? name with
      | some speed => .ok speed
      | .none => .error name
  speed.map fun speed =>
    { s with
      clockRate := speed
      batchLength := a.batchLength.getD s.batchLength
      scale := a.scale.getD s.scale }

end Arguments

end Retro24
