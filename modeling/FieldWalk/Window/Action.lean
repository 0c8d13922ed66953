import FieldWalk.Window.Panel
/-!
What the user does in the window, and what comes of it. A control that is not enabled does nothing.
An update that is rejected leaves session and stage as they were; a walk that is rejected drops the
path.
-/

namespace FieldWalk.Window

open Journal (Record)
open Layout (Properties)
open Numeral
open FieldWalk.Path (Trace)
open Playback (Clock Player)
open Scene (Layer)
open Session (Engine Step)

/-- An entry of the menu. -/
inductive Entry where
  | new | exit | profile | clear
deriving Repr, DecidableEq

/-- What the user does. -/
inductive Action (κ α : Type) where
  | type (f : Field) (text : String)
  /-- The return key in the markup. -/
  | enter
  /-- A press on a button, and what is done in the profile if it opens one. -/
  | press (b : Button) (inside : List ProfileAction)
  | spin (axis : Axis) (e : End) (v : Number α)
  | slide (hundredths : Int)
  | ascend (on : Bool)
  | rate (index : Int)
  | choose (e : Entry) (inside : List ProfileAction)
  /-- A point of the surface is picked. -/
  | pick (x y : α)
  | toggle (layer : Layer) (shown : Bool)
  | camera (position : Option κ)
  /-- Time passes, a number of times. -/
  | wait (ms : Int) (times : Nat)
  | close

/-- The control that an action goes through. -/
def Action.control? {κ α : Type} : Action κ α → Option Control
  | type f _ => some (.field f)
  | enter => some (.field .markup)
  | press b _ => some (.button b)
  | spin a e _ => some (.range a e)
  | slide _ => some .opacity
  | ascend _ => some .ascend
  | rate _ => some .rate
  | _ => none

namespace Panel

variable {ε κ α : Type} [Scalar α]

/-- Takes over the session of a step and what was noticed. -/
def take (p : Panel κ α) (s : Step α) : Panel κ α :=
  { p with session := s.session }.note s.records

/-- An update as the session answers it: only the surface is sampled anew if the markup is the one
that is compiled. -/
def attempt (e : Engine ε α) (p : Panel κ α) : Step α :=
  let s := p.session
  let markup := p.controls.markup
  let settings := some (p.controls.candidate s.settings)
  if s.snapshot.isSome && markup == s.markup then s.resample settings
  else s.update e markup settings

/-- What is said of a rejected update. -/
def rejected (k : Conversions α) (p : Panel κ α) (f : Session.Fault α) : Panel κ α :=
  match k.fault? f with
  | some text => (p.note [.warning .panel ("Update rejected: " ++ text)]).refuse text
  | none =>
    (p.note [.error .panel "Unexpected failure while updating the function"]).refuse
      "Could not update the function"

/-- What is shown of an accepted update. -/
def accepted (p : Panel κ α) : Panel κ α :=
  let s := p.session
  let settled := p.onControls fun c => { c with
    flat := (s.snapshot.map (·.flat)).getD "", status := s.advisory, profileOpen := false }
  settled.showSurface.onStage .clearPath

/-- Updates the function. -/
def update (e : Engine ε α) (k : Conversions α) (p : Panel κ α) : Panel κ α :=
  let t := p.attempt e
  match t.fault with
  | some f => rejected k (p.take t) f
  | none => (p.take t).accepted

/-- What is said of a walk that is rejected; there is no path any more. -/
def lost (k : Conversions α) (p : Panel κ α) (f : Session.Fault α) : Panel κ α :=
  match k.fault? f with
  | some text => p.dropPath.refuse text
  | none =>
    (p.note [.error .panel "Path tracing failed"]).dropPath.refuse "Could not trace a path"

/-- The status of a path. -/
def pathStatus (t : Trace α) : String :=
  toString t.length ++ " steps (" ++ t.directionText ++ "), stopped: " ++ t.reason.text ++ "."

/-- What is shown of a new path. -/
def traced (p : Panel κ α) (t : Trace α) : Panel κ α :=
  let said := (p.say (pathStatus t)).onControls fun c => { c with profileOpen := true }
  (said.onStage (·.showPath t.waypoints)).setLocked true

/-- Opens the profile of the path if there is one. -/
def openProfile (p : Panel κ α) (inside : List ProfileAction) : Panel κ α :=
  match p.session.path with
  | none => p
  | some t =>
    let (states, r) := Profile.run { path := t } inside
    let noted := r.boxes.foldl alert (p.note r.records)
    { noted with report := { noted.report with profile := some (states, r.files) } }

/-- Moves the opacity; the surface follows at once. -/
def slide (k : Conversions α) (p : Panel κ α) (n : Int) : Panel κ α :=
  let n := Controls.clampHundredths n
  if n = p.controls.opacity then p
  else
    let v : Number α := .real (k.opacity n)
    ((p.onControls fun c => { c with opacity := n }).onSettings
      fun s => { s with opacity := v }).onStage (·.setOpacity v)

/-- Chooses a direction. -/
def setAscend (p : Panel κ α) (on : Bool) : Panel κ α :=
  if p.controls.ascend = on then p
  else (p.onControls fun c => { c with ascend := on }).onSettings fun s => { s with ascend := on }

/-- Chooses a frame rate on offer. -/
def setRate (p : Panel κ α) (index : Int) : Panel κ α :=
  let i := index.toNat
  match frameRates[i]? with
  | some n =>
    if index < 0 || i = p.controls.rate then p
    else (p.onControls fun c => { c with rate := i }).onSettings fun s => { s with fps := .int n }
  | none => p

end Panel

section Acting

variable {ε κ α : Type} [Scalar α] (e : Engine ε α) (k : Conversions α)

/-- Stops a playback and updates the function. -/
def update (w : Window κ α) : Window κ α :=
  w.stop.onPanel (·.update e k)

/-- Plays a path back. -/
def replay (w : Window κ α) (t : Trace α) : Window κ α :=
  let fps := w.panel.session.settings.fps
  let (w, started) := w.play (Player.start Clock.source t.length fps)
  if started then
    w.onPanel (·.note [.info .playback ("Animating " ++ toString t.length ++ " frame(s) at "
      ++ k.rate fps ++ " FPS.")])
  else w

/-- Walks from the start point and plays the path back, unless a playback is under way. -/
def animate (w : Window κ α) : Window κ α :=
  let p := w.panel
  if w.player.running then w
  else if p.session.snapshot.isNone then
    w.onPanel (·.refuse "Update the function before animating.")
  else
    let t := p.session.trace e (k.point p.controls.startX p.controls.startY)
    let w := w.onPanel (·.take t)
    match t.fault, t.session.path with
    | some f, _ => w.onPanel (·.lost k f)
    | none, some path => (w.onPanel (·.traced path)).replay k path
    | none, none => w

/-- Stops a playback and drops the path. -/
def clear (w : Window κ α) : Window κ α :=
  w.stop.onPanel fun p => p.dropPath.say p.session.advisory

/-- Begins an untouched session. -/
def renew (w : Window κ α) : Window κ α :=
  let w := w.stop.onPanel fun p =>
    let p := p.take p.session.reset
    p.onControls (·.load k p.session)
  w.update e k

/-- Closes the window. -/
def close (w : Window κ α) : Window κ α :=
  w.stop.onPanel fun p => { p.onStage .close with visible := false }

/-- Carries out an action whose control is enabled. -/
def act (w : Window κ α) : Action κ α → Window κ α
  | .type f text => w.onPanel (·.onControls (·.setField f text))
  | .enter => w.update e k
  | .press .update _ => w.update e k
  | .press .animate _ => w.animate e k
  | .press .clear _ => w.clear
  | .press .profile inside => w.onPanel (·.openProfile inside)
  | .spin a i v => w.onPanel (·.onControls (·.setEnd a i (k.settle v)))
  | .slide n => w.onPanel (·.slide k n)
  | .ascend on => w.onPanel (·.setAscend on)
  | .rate i => w.onPanel (·.setRate i)
  | .choose .new _ => w.renew e k
  | .choose .exit _ => w.close
  | .choose .profile inside => w.onPanel (·.openProfile inside)
  | .choose .clear _ => w.clear
  | .pick x y => w.onPanel (·.onControls fun c =>
      { c with startX := k.coordinate x, startY := k.coordinate y })
  | .toggle layer shown => w.onPanel (·.onStage (·.toggle layer shown))
  | .camera c => w.onPanel (·.onStage (·.moveCamera c))
  | .wait ms times => (List.range times).foldl (fun w _ => clocked.wait ms w) w
  | .close => w.close

/-- The action goes through an enabled control, or through none. -/
def admits (w : Window κ α) (a : Action κ α) : Bool :=
  a.control?.all w.panel.controls.isEnabled

/-- Carries out an action if it is admitted. The report tells of this action alone. -/
def perform (w : Window κ α) (a : Action κ α) : Window κ α :=
  let w := w.onPanel fun p => { p with report := {} }
  if w.admits a then w.act e k a else w

/-- The window on a session, as it is shown first: the function is updated once. -/
def opened (s : Session α) : Window κ α :=
  let panel : Panel κ α :=
    { session := s, stage := .new, controls := Controls.empty.load k s }
  (update e k ⟨Player.new {} panel⟩).onPanel fun p => { p with visible := true }

end Acting

end FieldWalk.Window
