import FieldWalk.Playback.Clock
import FieldWalk.Scene.Stage
import FieldWalk.Window.Controls
import FieldWalk.Window.Profile
/-!
The window: a session, the stage that shows it, the controls that change it, and the player that
moves the ball along the path. The player listens to nobody; it tells the panel of each frame.
-/

namespace FieldWalk.Window

open Journal (Record)
open Numeral
open Playback (Clock Event Listener Player)
open Scene (Stage)

/-- What the user was shown since the last action. -/
structure Report (α : Type) where
  records : List Record := []
  boxes : List Box := []
  /-- The states of a profile that was opened, and what became of files there. -/
  profile : Option (List (Profile α) × List FileEvent) := none

/-- Everything in the window but the player. -/
structure Panel (κ α : Type) where
  session : Session α
  stage : Stage κ α
  controls : Controls α
  visible : Bool := false
  report : Report α := {}

namespace Panel

variable {κ α : Type} [Scalar α]

/-- Works on the stage. -/
def onStage (p : Panel κ α) (f : Stage κ α → Stage κ α) : Panel κ α :=
  { p with stage := f p.stage }

/-- Works on the controls. -/
def onControls (p : Panel κ α) (f : Controls α → Controls α) : Panel κ α :=
  { p with controls := f p.controls }

/-- Works on the settings of the session. -/
def onSettings (p : Panel κ α) (f : Settings α → Settings α) : Panel κ α :=
  { p with session := { p.session with settings := f p.session.settings } }

/-- Locks or unlocks the controls that could disturb a playback. -/
def setLocked (p : Panel κ α) (locked : Bool) : Panel κ α :=
  p.onControls fun c => { c with locked }

/-- Shows a status. -/
def say (p : Panel κ α) (status : String) : Panel κ α :=
  p.onControls fun c => { c with status }

/-- Notes records. -/
def note (p : Panel κ α) (rs : List Record) : Panel κ α :=
  { p with report := { p.report with records := p.report.records ++ rs } }

/-- Shows a message. -/
def alert (p : Panel κ α) (b : Box) : Panel κ α :=
  { p with report := { p.report with boxes := p.report.boxes ++ [b] } }

/-- Tells the user of an error; nothing stays locked. -/
def refuse (p : Panel κ α) (text : String) : Panel κ α :=
  ((p.setLocked false).say text).alert ⟨.warning, "Error", text⟩

/-- Drops the path everywhere. -/
def dropPath (p : Panel κ α) : Panel κ α :=
  ({ p with session := p.session.clearPath }.onControls
    fun c => { c with profileOpen := false }).onStage .clearPath

/-- Shows the surface of the session. -/
def showSurface (p : Panel κ α) : Panel κ α :=
  match p.session.surface with
  | none => p
  | some g =>
    let r := p.stage.showSurface g p.session.settings
    { p with stage := r.1 }.note r.2

/-- Hears the player: each frame moves the ball, and the end unlocks the controls. -/
def hear (e : Event) (p : Panel κ α) : Panel κ α :=
  match e with
  | .frame i => p.onStage (·.moveBall i)
  | .finished => p.setLocked false

/-- The panel as a listener that gives no orders. -/
def listener : Listener α (Panel κ α) := ⟨fun e p => ([], p.hear e)⟩

end Panel

end FieldWalk.Window

namespace FieldWalk

/-- The window: the player with the clock that drives it and the panel it talks to. -/
structure Window (κ α : Type) where
  player : Playback.Player α Playback.Clock (Window.Panel κ α)

namespace Window

open Playback (Clock Player)

variable {κ α : Type} [Numeral.Scalar α]

/-- The panel of the window. -/
def panel (w : Window κ α) : Panel κ α := w.player.audience

/-- Works on the panel. -/
def onPanel (w : Window κ α) (f : Panel κ α → Panel κ α) : Window κ α :=
  ⟨{ w.player with audience := f w.panel }⟩

/-- Stops a playback and unlocks the controls. -/
def stop (w : Window κ α) : Window κ α :=
  Window.onPanel ⟨w.player.cancelled Clock.source⟩ (·.setLocked false)

/-- Carries out an action of the player; one that fails leaves what it has done so far. -/
def play (w : Window κ α) (a : Playback.Action α Clock (Panel κ α) Unit) : Window κ α × Bool :=
  match a.run w.player with
  | .ok _ p => (⟨p⟩, true)
  | .error _ p => (⟨p⟩, false)

/-- The window as something that reacts to its clock. -/
def clocked : Playback.Clocked (Window κ α) where
  clock w := w.player.host
  setClock c w := ⟨{ w.player with host := c }⟩
  fired _ time w :=
    (play w (Player.tick Clock.source Panel.listener (Numeral.Scalar.ofDecimal time 0))).1

end Window

end FieldWalk
