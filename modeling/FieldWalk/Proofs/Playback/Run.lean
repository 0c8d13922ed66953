import FieldWalk.Proofs.Playback.Host
/-!
# Runs of a player

A player is started, cancelled and ticked from outside, and its callbacks may give it orders from
inside. Every call is noted with the orders that answered it, so what a run was heard to do is a
list of exchanges.
-/

namespace FieldWalk.Playback

open Numeral

variable {α η σ : Type}

/-! ## Callbacks -/

/-- What a player calls: something at each frame, and at the end if anything. -/
structure Callbacks (α σ : Type) where
  frame : ℤ → σ → List (Command α) × σ
  finished : Option (σ → List (Command α) × σ)

deriving instance DecidableEq for Number, Command

/-- A call, and the orders that answered it. -/
structure Exchange (α : Type) where
  event : Event
  orders : List (Command α)
deriving DecidableEq

namespace Callbacks

/-- What is called at an event. -/
def at? (c : Callbacks α σ) : Event → Option (σ → List (Command α) × σ)
  | .frame i => some (c.frame i)
  | .finished => c.finished

/-- What is called at the end of a replay. -/
def ending (c : Callbacks α σ) : List Event :=
  if c.finished.isSome then [.finished] else []

/-- The callbacks as a listener that notes every exchange. -/
def listener (c : Callbacks α σ) : Listener α (σ × List (Exchange α)) where
  react e s := match c.at? e with
    | none => ([], s)
    | some f => ((f s.1).1, (f s.1).2, s.2 ++ [⟨e, (f s.1).1⟩])

/-- All orders of the callbacks are of a kind. -/
def Give (c : Callbacks α σ) (P : Command α → Prop) : Prop :=
  ∀ e f s, c.at? e = some f → ∀ k ∈ (f s).1, P k

/-- The callbacks give no orders. -/
def Quiet (c : Callbacks α σ) : Prop := c.Give fun _ => False

/-- The frames are answered with cancels at most; the end may be answered with anything. -/
def FramesCancel (c : Callbacks α σ) : Prop := ∀ i s, ∀ k ∈ (c.frame i s).1, k = .cancel

theorem Give.mono {c : Callbacks α σ} {P Q : Command α → Prop} (h : c.Give P) (hPQ : ∀ k, P k → Q k) :
    c.Give Q :=
  fun e f s hf k hk => hPQ k (h e f s hf k hk)

/-- Callbacks that do nothing. -/
def silent : Callbacks α Unit := ⟨fun _ _ => ([], ()), some fun _ => ([], ())⟩

theorem silent_quiet : (silent : Callbacks α Unit).Quiet := by
  intro e f s hf
  cases e <;> cases hf <;> exact nofun

/-- Callbacks that answer one frame with an order. -/
def atFrame (j : ℤ) (k : Command α) (finished : Option (Unit → List (Command α) × Unit)) :
    Callbacks α Unit :=
  ⟨fun i _ => (if i = j then [k] else [], ()), finished⟩

end Callbacks

namespace Player

theorem bind_run {β : Type} {p q : Player α η σ} {a : Action α η σ β} {x : β}
    {f : β → Action α η σ Unit} (h : a.run p = .ok x q) : (a >>= f).run p = (f x).run q := by
  show EStateM.bind a f p = f x q
  rw [EStateM.bind, show a p = _ from h]

variable (p : Player α η (σ × List (Exchange α)))

/-- The exchanges so far. -/
def heard : List (Exchange α) := p.audience.2

/-- The calls so far. -/
def events : List Event := p.heard.map (·.event)

/-- The orders that an event is answered with. -/
def orders (c : Callbacks α σ) (e : Event) : List (Command α) :=
  (c.listener.react e p.audience).1

/-- The exchange at an event, none if nothing is called. -/
def exchange (c : Callbacks α σ) (e : Event) : List (Exchange α) :=
  if (c.at? e).isSome then [⟨e, p.orders c e⟩] else []

/-- The player with an event told and its orders not yet carried out. -/
def told (c : Callbacks α σ) (e : Event) : Player α η (σ × List (Exchange α)) :=
  { p with audience := (c.listener.react e p.audience).2 }

theorem heard_told (c : Callbacks α σ) (e : Event) :
    (p.told c e).heard = p.heard ++ p.exchange c e := by
  simp only [told, heard, exchange, orders, Callbacks.listener]
  cases c.at? e with
  | none => simp
  | some f => simp

theorem eq_of_mem_exchange {p : Player α η (σ × List (Exchange α))} {c : Callbacks α σ} {e : Event}
    {x : Exchange α} (h : x ∈ p.exchange c e) :
    x = ⟨e, p.orders c e⟩ ∧ p.exchange c e = [⟨e, p.orders c e⟩] := by
  unfold exchange at h ⊢
  split at h
  · rename_i hc
    exact ⟨List.mem_singleton.1 h, if_pos hc⟩
  · exact absurd h List.not_mem_nil

theorem events_append {p q : Player α η (σ × List (Exchange α))} {new : List (Exchange α)}
    (h : q.heard = p.heard ++ new) : q.events = p.events ++ new.map (·.event) := by
  rw [events, h, List.map_append, events]

theorem orders_of_give {c : Callbacks α σ} {P : Command α → Prop} (h : c.Give P) (e : Event) :
    ∀ k ∈ p.orders c e, P k := by
  intro k hk
  simp only [orders, Callbacks.listener] at hk
  cases hf : c.at? e with
  | none => simp [hf] at hk
  | some f =>
    rw [hf] at hk
    exact h e f _ hf k hk

theorem orders_of_quiet {c : Callbacks α σ} (h : c.Quiet) (e : Event) : p.orders c e = [] :=
  List.eq_nil_iff_forall_not_mem.2 (p.orders_of_give h e)

end Player

/-! ## Operations -/

/-- What is done to a player from outside. -/
inductive Operation (α : Type) where
  | order (k : Command α)
  | tick (handle : ℕ) (time : α)

variable [Scalar α]

/-- Carries out an operation. A tick that is not pending does not fire. -/
def Operation.perform (H : Host η) (l : Listener α σ) : Operation α → Action α η σ Unit
  | order k => Player.obey H.toTickSource k
  | tick h time => do
    let p ← get
    if h ∈ H.pending p.host then
      set { p with host := H.fire h p.host }
      Player.tick H.toTickSource l time

namespace Player

/-- The player that an action leaves behind, whether or not it fails. -/
def left (p : Player α η σ) (a : Action α η σ Unit) : Player α η σ :=
  match a.run p with
  | .ok _ q => q
  | .error _ q => q

/-- The player after one more operation. -/
def step (H : Host η) (c : Callbacks α σ) (p : Player α η (σ × List (Exchange α)))
    (o : Operation α) : Player α η (σ × List (Exchange α)) :=
  p.left (o.perform H c.listener)

/-- The player after some operations. -/
def after (H : Host η) (c : Callbacks α σ) (p : Player α η (σ × List (Exchange α)))
    (ops : List (Operation α)) : Player α η (σ × List (Exchange α)) :=
  ops.foldl (step H c) p

@[simp] theorem after_nil (H : Host η) (c : Callbacks α σ)
    (p : Player α η (σ × List (Exchange α))) : p.after H c [] = p := rfl

@[simp] theorem after_cons (H : Host η) (c : Callbacks α σ)
    (p : Player α η (σ × List (Exchange α))) (o : Operation α) (ops : List (Operation α)) :
    p.after H c (o :: ops) = (p.step H c o).after H c ops := rfl

@[simp] theorem after_append (H : Host η) (c : Callbacks α σ)
    (p : Player α η (σ × List (Exchange α))) (ops ops' : List (Operation α)) :
    p.after H c (ops ++ ops') = (p.after H c ops).after H c ops' :=
  List.foldl_append

end Player

/-- A new player after some operations, its callbacks having begun in some state. -/
def run (H : Host η) (c : Callbacks α σ) (s : σ) (ops : List (Operation α)) :
    Player α η (σ × List (Exchange α)) :=
  (Player.new H.start (s, [])).after H c ops

theorem run_append (H : Host η) (c : Callbacks α σ) (s : σ) (ops ops' : List (Operation α)) :
    run H c s (ops ++ ops') = (run H c s ops).after H c ops' :=
  Player.after_append H c _ ops ops'

end FieldWalk.Playback
