import FieldWalk.Playback.Player
/-!
A clock of whole milliseconds with timers that fire once. When time passes, the timers due by then
fire in the order of their times, those of one time in the order of their making; a timer started
meanwhile waits for the next passing of time.
-/

namespace FieldWalk.Playback

/-- A timer that has not fired. -/
structure Timer where
  handle : Nat
  due : Int
deriving Repr, DecidableEq

/-- The clock, with the time between the start of a timer and its firing. -/
structure Clock where
  now : Int := 0
  interval : Int := 16
  /-- Timers started so far. -/
  started : Nat := 0
  /-- Pending timers in the order of their making. -/
  timers : List Timer := []
deriving Repr, DecidableEq

namespace Clock

/-- Starts a timer. -/
def request (c : Clock) : Nat × Clock :=
  (c.started, { c with
    started := c.started + 1
    timers := c.timers ++ [⟨c.started, c.now + c.interval⟩] })

/-- Stops a timer; nothing happens if it is not pending. -/
def cancel (h : Nat) (c : Clock) : Clock :=
  { c with timers := c.timers.filter (·.handle ≠ h) }

/-- The clock as a source of ticks. -/
def source : TickSource Clock := ⟨request, cancel⟩

/-- The timer is pending. -/
def isPending (c : Clock) (h : Nat) : Bool :=
  c.timers.any (·.handle == h)

/-- The handles of the timers that are due, in the order of firing. -/
def due (c : Clock) : List Nat :=
  ((c.timers.filter (·.due ≤ c.now)).mergeSort fun a b => a.due ≤ b.due).map (·.handle)

/-- Lets time pass. -/
def advance (ms : Int) (c : Clock) : Clock :=
  { c with now := c.now + ms }

end Clock

/-- What holds a clock and reacts to its timers. -/
structure Clocked (σ : Type) where
  clock : σ → Clock
  setClock : Clock → σ → σ
  /-- A timer has fired at a time. -/
  fired : Nat → Int → σ → σ

namespace Clocked

variable {σ : Type} (k : Clocked σ)

/-- Fires a timer unless it has been stopped. -/
def fire (s : σ) (h : Nat) : σ :=
  let c := k.clock s
  if c.isPending h then k.fired h c.now (k.setClock (c.cancel h) s) else s

/-- Lets time pass and fires what is due. -/
def wait (ms : Int) (s : σ) : σ :=
  let s := k.setClock ((k.clock s).advance ms) s
  (k.clock s).due.foldl k.fire s

end Clocked

/-- Requests that are made again when they fire, as often as was said, and the times of firing. -/
structure Recurring where
  clock : Clock := {}
  /-- How often each request is to be made again, in the order of all requests. -/
  left : List Nat := []
  times : List Int := []
deriving Repr, DecidableEq

namespace Recurring

/-- A request to be made again a number of times. -/
def request (again : Nat) (r : Recurring) : Recurring :=
  { r with clock := r.clock.request.2, left := r.left ++ [again] }

/-- Notes the time and makes the request again if it is to be. -/
def fired (h : Nat) (time : Int) (r : Recurring) : Recurring :=
  let r := { r with times := r.times ++ [time] }
  match r.left.getD h 0 with
  | 0 => r
  | n + 1 => r.request n

/-- Takes a request back. -/
def cancel (h : Nat) (r : Recurring) : Recurring :=
  { r with clock := r.clock.cancel h }

/-- The clock of recurring requests. -/
def clocked : Clocked Recurring := ⟨clock, fun c r => { r with clock := c }, fired⟩

end Recurring

end FieldWalk.Playback
