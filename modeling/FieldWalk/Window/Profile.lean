import FieldWalk.Layout.Widget
import FieldWalk.Path.Walk
import FieldWalk.Window.Report
/-! The profile of a path: its coordinates plotted against the number of the step. -/

namespace FieldWalk.Window

open Journal (Record)
open Layout (Datum Properties Widget)
open Numeral
open FieldWalk.Path (Trace Waypoint)

/-- A coordinate that can be plotted. -/
inductive Series where
  | z | x | y
deriving Repr, DecidableEq

namespace Series

/-- Every series in the order of plotting. -/
def all : List Series := [z, x, y]

/-- The name of a series. -/
def name : Series → String
  | z => "z"
  | x => "x"
  | y => "y"

/-- The colour of a series. -/
def colour : Series → String
  | z => "#f57c00"
  | x => "#1f77b4"
  | y => "#2ca02c"

/-- The coordinate of a waypoint. -/
def value {α : Type} (s : Series) (p : Waypoint α) : α :=
  match s with
  | z => p.z
  | x => p.x
  | y => p.y

end Series

/-- The dialog that shows the profile of a path. -/
structure Profile (α : Type) where
  path : Trace α
  zShown : Bool := true
  xShown : Bool := false
  yShown : Bool := false
  /-- How often the plot has been fitted to its curves. -/
  fitted : Nat := 1
  accepted : Bool := false

/-- A plotted curve. -/
structure Curve (α : Type) where
  series : Series
  values : List α

/-- What a user does in the dialog. -/
inductive ProfileAction where
  | check (s : Series) (on : Bool)
  /-- Asks for an image at a path, empty if none is chosen; writing it may fail. -/
  | save (path : String) (failure : Option String)
  | close
deriving Repr, DecidableEq

/-- What an action brings about outside the dialog. -/
structure ProfileReport where
  records : List Record := []
  boxes : List Box := []
  files : List FileEvent := []
deriving Repr, DecidableEq

namespace Profile

variable {α : Type}

/-- The series is checked. -/
def isShown (p : Profile α) : Series → Bool
  | .z => p.zShown
  | .x => p.xShown
  | .y => p.yShown

/-- Checks a series or takes the check away. -/
def setShown (p : Profile α) (s : Series) (on : Bool) : Profile α :=
  match s with
  | .z => { p with zShown := on }
  | .x => { p with xShown := on }
  | .y => { p with yShown := on }

/-- The curves of the checked series. -/
def curves (p : Profile α) : List (Curve α) :=
  (Series.all.filter p.isShown).map fun s => ⟨s, p.path.waypoints.map s.value⟩

/-- The heading over the series. -/
def heading : String := "<h3>Series</h3>"

/-- What is said of the path. -/
def summary (p : Profile α) : String :=
  toString p.path.length ++ " waypoints<br>" ++ p.path.directionText ++ "<br>stopped: "
    ++ p.path.reason.text

/-- The question for the name of an image. -/
def question : FileEvent :=
  .asked "Save Plot As Image" "path_profile.png" "PNG image (*.png);;JPEG image (*.jpg)"

/-- What comes of the wish for an image. -/
def saveReport (path : String) (failure : Option String) : ProfileReport :=
  if path = "" then { files := [question] }
  else match failure with
    | none =>
      { files := [question, .exported path 1920]
        records := [.info .profile ("Plot exported to " ++ path)] }
    | some cause =>
      { files := [question]
        records := [.error .profile "Failed to export plot"]
        boxes := [⟨.critical, "Export Error", "Could not export the plot:\n" ++ cause⟩] }

/-- Carries out an action. The plot is made anew when a check changes. -/
def act (p : Profile α) : ProfileAction → Profile α × ProfileReport
  | .check s on =>
    if p.isShown s = on then (p, {})
    else ({ p.setShown s on with fitted := p.fitted + 1 }, {})
  | .save path failure => (p, saveReport path failure)
  | .close => ({ p with accepted := true }, {})

/-- Carries out actions in order: the states, the first being the one at the opening, and what came
of all. -/
def run (p : Profile α) : List ProfileAction → List (Profile α) × ProfileReport
  | [] => ([p], {})
  | a :: as =>
    let (q, r) := p.act a
    let (ps, rest) := run q as
    (p :: ps, ⟨r.records ++ rest.records, r.boxes ++ rest.boxes, r.files ++ rest.files⟩)

/-- The plot as it was set up. -/
def plotWidget [Scalar α] : Widget α :=
  let black : Datum α := .record [("color", "black")]
  let axis : Datum α := .record [("pen", "k"), ("textPen", "k")]
  .leaf "PlotWidget" [
    ("background", "w"),
    ("grid", .record [
      ("x", true), ("y", true), ("alpha", .number (.real (Scalar.ofDecimal 3 (-1))))]),
    ("label:bottom", .list ["Step", black]),
    ("label:left", .list ["Value", black]),
    ("title", .list ["Gradient Path Profile", .record [("color", "black"), ("size", "14pt")]]),
    ("axis:bottom", axis),
    ("axis:left", axis),
    ("legend", .wholes [10, 10])]

/-- The widgets of the dialog. -/
def widget [Scalar α] (p : Profile α) : Widget α :=
  let side : List (Widget α) :=
    .label heading [("alignment", "Qt.AlignCenter")] ::
      (Series.all.map fun s => .checkBox s.name (p.isShown s)) ++
      [.label p.summary [("wordWrap", true)], .mark "stretch", .button "Export Image...",
        .button "Close"]
  .node "PathProfileDialog" [("windowTitle", "Path Profile"), ("size", .wholes [900, 550])] [
    .node "QHBoxLayout" [] [
      .node "QWidget" [("maximumWidth", .whole 200)] [.node "QVBoxLayout" [] side],
      plotWidget]]

end Profile

end FieldWalk.Window
