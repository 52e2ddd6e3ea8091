/-
  File:      Retro24/Session.lean
  Subject:   A session: everything that one command line asks for, in order.

  * `Outcome`: what was printed, the console at the end, and why the session ended early, if it did;
    `Outcome.exitCode` and `Outcome.errorLines` are how the outside sees it.
  * `Session.settings` to `Session.hold`: settings, machine, program, state, listing and key before
    the run.
  * `Session.execute` to `Session.save`: the run, and dump, screen, picture and state behind it.
  * `Session.run`: all of them in order, over any file store.
-/
import Retro24.Arguments
import Retro24.Controller
import Retro24.HexDump
import Retro24.Picture
import Retro24.SaveState

namespace Retro24

/-! ## 1. Outcomes -/

/-- Why a session ends early: what failed, and behind it why. -/
structure Setback where
  message : String
  causes : List String

/-- What a session has printed, and its console with everything it has reported. -/
structure Output where
  text : String
  console : Console

/-- What a session did. -/
structure Outcome where
  output : Output
  setback : Option Setback

namespace Outcome

/-- Zero for a session that ended in good order. -/
def exitCode (o : Outcome) : UInt32 := if o.setback.isSome then 1 else 0

/-- A text whose further lines are indented. -/
def indented (width : Nat) (s : String) : String :=
  (String.ofList ('\n' :: List.replicate width ' ')).intercalate (s.splitOn "\n")

/-- The causes of a setback as lines: one alone, or several with their numbers. -/
def causeLines (causes : List String) : List String :=
  match causes with
  | [] => []
  | [cause] => ["", "Caused by:", "    " ++ indented 4 cause]
  | causes =>
    "" :: "Caused by:" :: causes.mapIdx fun i cause =>
      String.ofList (List.replicate (5 - (toString i).length) ' ') ++ toString i ++ ": " ++
        indented 7 cause

/-- What the session reports beside its output: the journal, then the setback. -/
def errorLines (o : Outcome) : List String :=
  (o.output.console.journal.toList.map fun e => indented 4 e.line) ++
    match o.setback with
    | none => []
    | some s => ("Error: " ++ s.message) :: causeLines s.causes

end Outcome

/-! ## 2. Steps -/

namespace Session

variable {m : Type → Type} [Monad m]

/-- A step of a session: it may print, work at the console, use files, and end the session early. -/
abbrev Step (m : Type → Type) (α : Type) := ExceptT Setback (StateT Output m) α

/-- The session ends here. -/
def giveUp {α : Type} (message : String) (causes : List String) : Step m α :=
  throw ⟨message, causes⟩

/-- Text printed. -/
def print (text : String) : Step m Unit := modify fun o => { o with text := o.text ++ text }

/-- The console at this point. -/
def console : Step m Console := do return (← get).console

/-- The console from here on. -/
def setConsole (c : Console) : Step m Unit := modify fun o => { o with console := c }

/-- Entries put into the journal. -/
def report (entries : List Entry) : Step m Unit :=
  modify fun o =>
    { o with console := { o.console with journal := o.console.journal.noteAll entries } }

/-- What was asked of the file store. -/
def onFiles {α : Type} (action : m α) : Step m α := ExceptT.lift (StateT.lift action)

/-- Something done for an option that is given. -/
def forGiven {α : Type} (option : Option α) (action : α → Step m Unit) : Step m Unit :=
  match option with
  | some x => action x
  | none => pure ()

/-! ## 3. Before the run -/

/-- The settings that a session starts from. -/
def startSettings (files : FileStore m) (a : Arguments) : Step m Settings := do
  match a.config with
  | none => pure Settings.standard
  | some path => do
    let (settings, entries) := Settings.ofFile path (← onFiles (files.readText path))
    report entries
    pure settings

/-- The settings in force, which are written where they are asked for. -/
def settings (files : FileStore m) (a : Arguments) : Step m Settings := do
  match a.apply (← startSettings files a) with
  | .error name => giveUp ("Unknown clock speed: " ++ name) []
  | .ok settings =>
    forGiven a.configOut fun path => do
      match ← onFiles (files.write path settings.text.toUTF8) with
      | .error e => giveUp ("failed to write " ++ path ++ ": " ++ e.message) []
      | .ok () => pure ()
    pure settings

/-- The machine switched on. -/
def switchOn (settings : Settings) : Step m Unit := do
  report [.hardReset]
  setConsole ((← console).withMachine (·.setBatchLength settings.batchLength))

/-- The program of a file loaded; one that cannot be loaded is reported. -/
def installProgram (files : FileStore m) (path : String) : Step m Unit := do
  let contents ← onFiles (files.read path)
  match (← console).installFile path contents with
  | (.ok (), c) => setConsole c
  | (.error e, c) =>
    setConsole c
    report [.notLoaded e]

/-- The state of a file restored. -/
def restore (files : FileStore m) (path : String) : Step m Unit := do
  match ← onFiles (files.readText path) with
  | .error e => giveUp ("failed to read " ++ path) [e.message]
  | .ok text =>
    match Json.Value.parse text with
    | .error complaint => giveUp complaint.message []
    | .ok state =>
      let c ← console
      match c.machine.restore state with
      | .error e => giveUp ("invalid save state " ++ path) [e.message]
      | .ok machine => setConsole { c with machine }

/-- A line of a listing. -/
def listingText (line : ListingLine) : String := Hex.word line.address ++ "  " ++ line.text ++ "\n"

/-- The statements from IC on listed. -/
def list (count : Nat) : Step m Unit := do
  let machine := (← console).machine
  print (String.join ((sweep machine.bus machine.registers.ic count).map listingText))

/-- The key of a name held. -/
def hold (settings : Settings) (name : String) : Step m Unit := do
  match settings.findKey? name with
  | some key => setConsole ((← console).withMachine (·.press key))
  | none => giveUp ("Unknown key: " ++ name) []

/-! ## 4. The run and what follows it -/

/-- The most cycles to run: zero stands for no limit. -/
def budget (a : Arguments) : Option UInt64 := if a.cycles = 0 then none else some a.cycles

/-- The machine run to the end, and its registers printed. -/
def execute (a : Arguments) (settings : Settings) : Step m Unit := do
  let controller := Controller.start (← console)
  let controller := { controller with panel := controller.panel.setRate settings.clockRate }
  match controller.run? (fun (_ : Unit) _ => ()) () (budget a) with
  | none => giveUp "the run does not end" []
  | some (result, _, controller) =>
    setConsole controller.panel.console
    let registers := controller.panel.console.machine.registers
    match result with
    | .error e =>
      report [.stoppedAt registers]
      giveUp "execution stopped" (e.message :: e.causes)
    | .ok summary =>
      report [.finished summary.reason summary.cycles summary.frames]
      print (registers.line ++ " HLT=" ++ toString registers.halted ++ "\n")

/-- A region dumped. -/
def dump (name : String) : Step m Unit := do
  match Region.ofName? name with
  | some region =>
    print (HexDump.text region.start ((← console).machine.bus.region region).toList)
  | none => giveUp ("Unknown memory region: " ++ name) []

/-- The screen printed in characters. -/
def showScreen : Step m Unit := do print (screenText (← console).machine.bus)

/-- The frame written as a picture. -/
def savePicture (files : FileStore m) (settings : Settings) (path : String) : Step m Unit := do
  match ← onFiles (writePicture files (← console).machine.frame settings.scale.toUInt32 path) with
  | some (.ok ()) => pure ()
  | some (.error e) => giveUp e.message [e.causeMessage]
  | none => giveUp "the picture is too large" []

/-- The state of the machine written. -/
def save (files : FileStore m) (path : String) : Step m Unit := do
  let text := (← console).machine.toJson.pretty
  match ← onFiles (files.write path text.toUTF8) with
  | .ok () => pure ()
  | .error e => giveUp e.message []

/-! ## 5. Sessions -/

/-- Everything that a command line asks for, in order. -/
def steps (files : FileStore m) (a : Arguments) : Step m Unit := do
  let settings ← settings files a
  switchOn settings
  forGiven a.program (installProgram files)
  forGiven a.stateIn (restore files)
  forGiven a.disasm list
  forGiven a.key (hold settings)
  execute a settings
  forGiven a.dump dump
  if a.shown then showScreen
  forGiven a.png (savePicture files settings)
  forGiven a.save (save files)

/-- What a session reports at least. -/
def threshold (a : Arguments) : Level := if a.trace then .trace else .info

/-- A session. -/
def run (files : FileStore m) (a : Arguments) : m Outcome := do
  let start : Output := ⟨"", ⟨.powerOn, .blank (some (threshold a))⟩⟩
  let (result, output) ← (steps files a).run.run start
  match result with
  | .ok () => return ⟨output, none⟩
  | .error setback => return ⟨output, some setback⟩

end Session

end Retro24
