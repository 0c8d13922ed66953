import FieldWalk.Numeral.Scalar
/-!
Playback of numbered frames at a fixed rate, however often the host calls back. The player keeps a
debt of time not yet shown; each tick pays it in whole frames. What listens to the frames may start
and cancel the player from inside a frame.
-/

namespace FieldWalk.Playback

open Numeral

/-- The host's side: asks for one call back and drops a pending one. -/
structure TickSource (η : Type) where
  request : η → Nat × η
  cancel : Nat → η → η

/-- An order to the player. -/
inductive Command (α : Type) where
  | start (count : Int) (fps : Number α)
  | cancel
deriving Repr

/-- What the player tells its listener. -/
inductive Event where
  | frame (index : Int)
  | finished
deriving Repr, DecidableEq

/-- A listener: told of an event it changes its own state and gives orders, carried out before the
player goes on. -/
structure Listener (α σ : Type) where
  react : Event → σ → List (Command α) × σ

/-- Why an order or a tick fails. -/
inductive Fault (α : Type) where
  | rateNotPositive (fps : Number α)
  | rateBeyondRange
  /-- An integer with more digits than are written out. -/
  | tooLong
  | intervalZero
  | debt (fault : FloorFault)
deriving Repr

/-- The player with its host and its listener's state. -/
structure Player (α η σ : Type) where
  frame : Int
  debt : α
  last : Option α
  running : Bool
  count : Int
  interval : α
  handle : Option Nat
  host : η
  audience : σ

/-- An action of the player; a failing one leaves the player as it was at that moment. -/
abbrev Action (α η σ : Type) := EStateM (Fault α) (Player α η σ)

namespace Player

variable {α η σ : Type} [Scalar α]

/-- A player that has shown nothing. -/
def new (host : η) (audience : σ) : Player α η σ :=
  ⟨0, Scalar.ofNat 0, none, false, 0, Scalar.ofNat 0, none, host, audience⟩

/-- Stops; a pending tick is dropped. -/
def cancelled (source : TickSource η) (p : Player α η σ) : Player α η σ :=
  match p.handle with
  | some h => { p with host := source.cancel h p.host, handle := none, running := false }
  | none => { p with running := false }

/-- Asks the host for the next tick. -/
def requested (source : TickSource η) (p : Player α η σ) : Player α η σ :=
  let r := source.request p.host
  { p with handle := some r.1, host := r.2 }

/-- The time of a frame in milliseconds. -/
def intervalOf (fps : Number α) : Except (Fault α) α :=
  match fps.toScalar? with
  | none => .error .rateBeyondRange
  | some v => .ok (Scalar.ofNat 1000 / v)

/-- What is said of a rate that is not positive; the rate is written out in it. -/
def refusal (fps : Number α) : Fault α :=
  if tooLong fps then .tooLong else .rateNotPositive fps

/-- Begins to show `count` frames, any earlier replay dropped. The count is written out before the
first tick is asked for; the rate is too, but one with a time of a frame is short enough. -/
def start (source : TickSource η) (count : Int) (fps : Number α) : Action α η σ Unit := do
  if fps.le (.int 0) then throw (refusal fps)
  modify (·.cancelled source)
  modify fun p =>
    { p with frame := 0, debt := Scalar.ofNat 0, last := none, running := true, count }
  match intervalOf fps with
  | .error e => throw e
  | .ok v =>
    modify fun p => { p with interval := v }
    if overlong count then throw .tooLong
    modify (·.requested source)

/-- Carries out an order. -/
def obey (source : TickSource η) : Command α → Action α η σ Unit
  | .start count fps => start source count fps
  | .cancel => modify (·.cancelled source)

/-- Tells the listener of an event and carries out its orders. -/
def emit (source : TickSource η) (listener : Listener α σ) (e : Event) : Action α η σ Unit := do
  let p ← get
  let r := listener.react e p.audience
  set { p with audience := r.2 }
  r.1.forM (obey source)

/-- The whole frames in the debt at a time. -/
def due (interval debt : α) : Except (Fault α) Int :=
  if Scalar.compareInt interval 0 == some .eq then .error .intervalZero
  else match Scalar.floor (debt / interval) with
    | .ok n => .ok n
    | .error e => .error (.debt e)

/-- Takes over the time since the last tick. -/
def clocked (time : α) (p : Player α η σ) : Player α η σ :=
  { p with debt := p.debt + (time - p.last.getD time), last := some time }

/-- Pays for whole frames out of the debt. -/
def advanced (n : Int) (p : Player α η σ) : Player α η σ :=
  if 1 ≤ n then
    { p with
      debt := p.debt - (Scalar.ofInt? n).getD Scalar.nan * p.interval
      frame := p.frame + n }
  else p

/-- A tick of the host at a time. The last frame is shown once and ends the replay. -/
def tick (source : TickSource η) (listener : Listener α σ) (time : α) : Action α η σ Unit := do
  modify (clocked time)
  let p ← get
  match due p.interval p.debt with
  | .error e => throw e
  | .ok n =>
    modify (advanced n)
    let p ← get
    let lastIndex := p.count - 1
    if lastIndex ≤ p.frame then
      let index := max lastIndex 0
      modify fun p => { p with frame := index }
      emit source listener (.frame index)
      modify fun p => { p with handle := none, running := false }
      emit source listener .finished
    else
      emit source listener (.frame p.frame)
      modify (requested source)

end Player

end FieldWalk.Playback
