/-
  File:      Retro24/Journal.lean
  Subject:   What the machine and the programs around it report.

  * `Level`: how much an entry matters; a journal admits entries up to its threshold.
  * `Entry`: everything that is reported, with `Entry.level` and `Entry.text`.
  * `Journal`: the admitted entries; `Journal.note` adds one behind the others (`toList_note`). A full
    journal admits all of them (`Full.toList_noteAll`).
-/
import Retro24.Command
import Retro24.Json.Issue
import Retro24.Machine

namespace Retro24

/-! ## 1. Levels -/

/-- How much an entry matters. -/
inductive Level where
  | error
  | warn
  | info
  | debug
  | trace
  deriving DecidableEq

namespace Level

/-- The place of a level, what matters most first. -/
def rank : Level → Nat
  | error => 0
  | warn => 1
  | info => 2
  | debug => 3
  | trace => 4

/-- The name of a level in front of an entry. -/
def label : Level → String
  | error => "ERROR"
  | warn => "WARN"
  | info => "INFO"
  | debug => "DEBUG"
  | trace => "TRACE"

/-- The levels by the names for a threshold. -/
def names : List (String × Level) :=
  [("error", error), ("warn", warn), ("info", info), ("debug", debug), ("trace", trace)]

end Level

/-! ## 2. Entries -/

/-- A report. -/
inductive Entry where
  /-- The processor found no opcode. -/
  | fault (cause : CpuFault)
  /-- A statement is about to be executed, with the registers as they are before. -/
  | executing (address : UInt16) (statement : Statement) (regs : Registers)
  /-- A program asked for a picture; the number of pictures so far. -/
  | redrawn (count : UInt64)
  | softReset
  | hardReset
  | loaded (image : Program)
  | unreadable (cause : ProgramError)
  /-- A command was taken from the queue. -/
  | command (taken : Command)
  | clockRate (speed : ClockRate)
  | runEnded (reason : RunEnd) (cycles frames : UInt64)
  /-- A settings file is no settings. -/
  | settingsIgnored (path : String) (complaint : Json.Complaint)
  /-- The program of a session was not loaded. -/
  | notLoaded (cause : MachineError)
  /-- The registers behind a run that failed. -/
  | stoppedAt (regs : Registers)
  /-- The run of a session ended. -/
  | finished (reason : RunEnd) (cycles frames : UInt64)

namespace Entry

/-- How much an entry matters. -/
def level : Entry → Level
  | fault _ | notLoaded _ | stoppedAt _ => .error
  | unreadable _ | settingsIgnored _ _ => .warn
  | clockRate _ | finished _ _ _ => .info
  | redrawn _ | softReset | hardReset | loaded _ | command _ | runEnded _ _ _ => .debug
  | executing _ _ _ => .trace

/-- A text filled up with spaces to a width. -/
def filled (width : Nat) (s : String) : String :=
  s ++ String.ofList (List.replicate (width - s.length) ' ')

/-- The text of an entry. -/
def text : Entry → String
  | fault (.unknownOpcode byte ic) =>
    "CPU: unknown opcode $" ++ Hex.byte byte ++ " at $" ++ Hex.word ic
  | executing address statement regs =>
    Hex.word address ++ "  " ++ filled 16 statement.text ++ " " ++ regs.dataLine
  | redrawn count => "PPU: redraw #" ++ toString count.toNat
  | softReset => "System: soft reset"
  | hardReset => "System: hard reset"
  | loaded image =>
    "System: loaded " ++ toString image.length ++ " byte program" ++
      (match image.path with
        | some path => " from " ++ path
        | none => "")
  | unreadable cause => cause.message
  | command c => "Driver: " ++ c.label
  | clockRate speed => "Clock speed: " ++ toString speed.hertz ++ " Hz"
  | runEnded reason cycles frames =>
    "Driver: " ++ reason.label ++ " after " ++ toString cycles.toNat ++ " cycles, " ++
      toString frames.toNat ++ " frames"
  | settingsIgnored path complaint =>
    "Failed to parse " ++ path ++ ": " ++ complaint.message ++ ". Using defaults."
  | notLoaded cause => cause.message
  | stoppedAt regs => regs.line
  | finished reason cycles frames =>
    reason.words ++ " after " ++ toString cycles.toNat ++ " cycles, " ++ toString frames.toNat ++
      " frames redrawn"

/-- The line of an entry: its level and its text. -/
def line (e : Entry) : String := e.level.label ++ " " ++ e.text

end Entry

/-! ## 3. Journals -/

/-- The entries that were admitted, the newest first. Without a threshold none is. -/
structure Journal where
  threshold : Option Level
  newest : List Entry

namespace Journal

/-- A journal without entries. -/
def blank (threshold : Option Level) : Journal := ⟨threshold, []⟩

/-- Whether a journal keeps entries of a level. -/
def admits (j : Journal) (level : Level) : Bool :=
  match j.threshold with
  | some threshold => level.rank ≤ threshold.rank
  | none => false

/-- The entries, the oldest first. -/
def toList (j : Journal) : List Entry := j.newest.reverse

/-- The journal with an entry, if it admits it. -/
def note (j : Journal) (e : Entry) : Journal :=
  if j.admits e.level then { j with newest := e :: j.newest } else j

/-- The journal with the entries of a list that it admits. -/
def noteAll (j : Journal) (es : List Entry) : Journal := es.foldl note j

/-- The journal without its entries. -/
def cleared (j : Journal) : Journal := blank j.threshold

theorem toList_note (j : Journal) (e : Entry) :
    (j.note e).toList = j.toList ++ if j.admits e.level then [e] else [] := by
  unfold note
  split <;> simp [toList]

theorem threshold_note (j : Journal) (e : Entry) : (j.note e).threshold = j.threshold := by
  unfold note
  split <;> rfl

/-- A journal keeps every entry. -/
def Full (j : Journal) : Prop := j.threshold = some .trace

variable {j : Journal}

theorem Full.admits (h : j.Full) (level : Level) : j.admits level = true := by
  rw [Journal.admits, h]
  cases level <;> rfl

theorem Full.note (h : j.Full) (e : Entry) : (j.note e).Full := (threshold_note j e).trans h

theorem Full.toList_note (h : j.Full) (e : Entry) : (j.note e).toList = j.toList ++ [e] := by
  rw [Journal.toList_note, if_pos (h.admits _)]

theorem Full.toList_noteAll (h : j.Full) (es : List Entry) :
    (j.noteAll es).toList = j.toList ++ es := by
  induction es generalizing j with
  | nil => exact (List.append_nil _).symm
  | cons e es ih =>
    have behind := ih (h.note e)
    rw [h.toList_note, List.append_assoc] at behind
    exact behind

end Journal

end Retro24
