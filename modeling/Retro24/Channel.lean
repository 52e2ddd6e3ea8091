/-
  File:      Retro24/Channel.lean
  Subject:   The queue of commands between the holders of handles and the running machine.

  * `Arrival`: commands that are still to come while the machine runs, by the moment at which they
    are in the queue: at a look at the queue, or only once the machine waits for a command.
  * `Channel`: the queue, the arrivals to come, and the handles in use.
  * `Channel.send`: a command put behind the others.
  * `Channel.look`: the first command, if there is one (`look_pending`); `Channel.wait`: the first
    command there will be.
  * `Channel.pending`: the number of commands that may still be taken.
-/
import Retro24.Command

namespace Retro24

/-- Commands that come while the machine runs. -/
inductive Arrival where
  /-- Commands that are in the queue by the time of the next look at it. -/
  | atLook (commands : List Command)
  /-- A command that is sent once the queue is empty and the machine waits. -/
  | whenWaiting (command : Command)

/-- The number of commands that arrive. -/
def Arrival.count : Arrival → Nat
  | atLook commands => commands.length
  | whenWaiting _ => 1

/-- The commands that arrive. -/
def Arrival.commands : Arrival → List Command
  | atLook commands => commands
  | whenWaiting c => [c]

/-- The queue of commands and what will come into it. -/
structure Channel where
  queue : List Command
  upcoming : List Arrival
  handles : Nat

/-- What comes of waiting for a command. -/
inductive Reception where
  | command (taken : Command)
  /-- Nobody is left who could send one. -/
  | closed
  /-- Nobody ever sends one. -/
  | silent

namespace Channel

/-- An empty queue with one handle. -/
def fresh : Channel := ⟨[], [], 1⟩

/-- A command put behind the others, if there is a handle to send it by. -/
def send (ch : Channel) (c : Command) : Channel := { ch with queue := ch.queue ++ [c] }

/-- The number of commands that may still be taken. -/
def pending (ch : Channel) : Nat :=
  ch.queue.length + ch.upcoming.foldr (fun a n => a.count + n) 0

/-- The queue as it is at the next look. -/
def atLook (ch : Channel) : Channel :=
  match ch.upcoming with
  | .atLook commands :: rest => { ch with queue := ch.queue ++ commands, upcoming := rest }
  | _ => ch

theorem pending_atLook (ch : Channel) : ch.atLook.pending = ch.pending := by
  unfold atLook
  split
  · next commands rest h =>
    simp only [pending, h, List.length_append, List.foldr_cons, Arrival.count]
    omega
  · rfl

/-- The first command of the queue, if there is one now. -/
def look (ch : Channel) : Option Command × Channel :=
  let ch := ch.atLook
  match ch.queue with
  | [] => (none, ch)
  | c :: rest => (some c, { ch with queue := rest })

/-- A command that is taken is no longer pending. -/
theorem look_pending {ch ch' : Channel} {c : Command} (h : ch.look = (some c, ch')) :
    ch'.pending + 1 = ch.pending := by
  rw [← pending_atLook ch]
  simp only [look] at h
  split at h
  · cases h
  · next d rest hq =>
    cases h
    simp only [pending, hq, List.length_cons]
    omega

/-- The first command that comes, when the queue is empty. -/
def waitFor (handles : Nat) : List Arrival → Reception × Channel
  | [] => (if handles = 0 then .closed else .silent, ⟨[], [], handles⟩)
  | .atLook [] :: rest => waitFor handles rest
  | .atLook (c :: queue) :: rest => (.command c, ⟨queue, rest, handles⟩)
  | .whenWaiting c :: rest => (.command c, ⟨[], rest, handles⟩)

/-- The first command of the queue, now or later. -/
def wait (ch : Channel) : Reception × Channel :=
  let ch := ch.atLook
  match ch.queue with
  | [] => waitFor ch.handles ch.upcoming
  | c :: rest => (.command c, { ch with queue := rest })

/-- The queue when everything to come has come. -/
def settled (ch : Channel) : Channel :=
  { ch with queue := ch.queue ++ ch.upcoming.flatMap Arrival.commands, upcoming := [] }

end Channel

end Retro24
