import FieldWalk.Playback.Player
/-!
A host that hands out numbered ticks, and a listener that notes what it is told and answers with
cues given beforehand.
-/

namespace FieldWalk.Playback

/-- Ticks handed out and not yet fired, and those that were cancelled. -/
structure TickDesk where
  issued : Nat := 0
  pending : List Nat := []
  cancelled : List Nat := []
deriving Repr, DecidableEq

namespace TickDesk

/-- Hands out the next tick. -/
def request (d : TickDesk) : Nat × TickDesk :=
  (d.issued + 1, { d with issued := d.issued + 1, pending := d.pending ++ [d.issued + 1] })

/-- Drops a tick. -/
def cancel (h : Nat) (d : TickDesk) : TickDesk :=
  { d with pending := d.pending.erase h, cancelled := d.cancelled ++ [h] }

/-- The desk as a source of ticks. -/
def source : TickSource TickDesk := ⟨request, cancel⟩

/-- Takes a tick out to fire it, whether or not it is still pending. -/
def fire (h : Nat) (d : TickDesk) : TickDesk :=
  { d with pending := d.pending.erase h }

/-- The tick to fire: the one asked for if it was ever handed out, else the latest pending one. -/
def choose (d : TickDesk) : Option Nat → Option Nat
  | some h => if 1 ≤ h && h ≤ d.issued then some h else none
  | none => d.pending.max?

end TickDesk

/-- The event a cue waits for; a frame cue without an index waits for any frame. -/
inductive Occasion where
  | frame (index : Option Int)
  | finished
deriving Repr, DecidableEq

/-- The event is the one waited for. -/
def Occasion.meets : Occasion → Event → Bool
  | frame none, .frame _ => true
  | frame (some i), .frame j => i == j
  | finished, .finished => true
  | _, _ => false

/-- An order to be given once, at the first event it waits for. -/
structure Cue (α : Type) where
  occasion : Occasion
  order : Command α
deriving Repr

/-- The events so far and the cues not yet given. -/
structure Audience (α : Type) where
  frames : List Int := []
  finished : Nat := 0
  cues : List (Cue α) := []
deriving Repr

namespace Audience

variable {α : Type}

/-- Notes an event. -/
def note (a : Audience α) : Event → Audience α
  | .frame i => { a with frames := a.frames ++ [i] }
  | .finished => { a with finished := a.finished + 1 }

/-- Gives the first cue that waits for the event. -/
def react (e : Event) (a : Audience α) : List (Command α) × Audience α :=
  let a := a.note e
  match a.cues.findIdx? (·.occasion.meets e) with
  | none => ([], a)
  | some i => ((a.cues[i]?.map (·.order)).toList, { a with cues := a.cues.eraseIdx i })

/-- The listener that gives cues. -/
def listener : Listener α (Audience α) := ⟨react⟩

/-- The listener that is not told of the end. -/
def deafToEnd : Listener α (Audience α) :=
  ⟨fun e a => if e = .finished then ([], a) else react e a⟩

end Audience

end FieldWalk.Playback
