import FieldWalk.Scene.Widgets
import FieldWalk.Window.Panel
/-! The widgets of the window with what stands in them. -/

namespace FieldWalk.Window

open Layout (Datum Widget)
open Numeral

/-- The name in the title. -/
def title : String := "Gradient Slide"

namespace Controls

variable {α : Type} [Scalar α]

/-- A control for an end of a range. -/
def rangeWidget : Widget α :=
  .leaf "QDoubleSpinBox" [
    ("decimals", .whole 2),
    ("range", .numbers [.real (Scalar.ofDecimal (-1) 6), .real (Scalar.ofDecimal 1 6)]),
    ("singleStep", .number (.real (Scalar.ofDecimal 5 (-1))))]

/-- The controls for both ends of an axis. -/
def rangeRow (axis : Axis) : Widget α :=
  .row (axis.letter ++ ":") (.node "QHBoxLayout" [] [rangeWidget, .label "to", rangeWidget])

/-- The controls of the function. -/
def functionWidget (c : Controls α) : Widget α :=
  .group "Function" (.node "QFormLayout" [] [
    .row "f(x, y) =" (.line c.markup
      [("placeholderText", "e.g. x^2+y^2 or \\sin\\left(x\\right)\\cos\\left(y\\right)")]),
    .row "Parsed:" (.line c.flat
      [("readOnly", true), ("toolTip", "Expression as passed to the algebra engine")]),
    .button "Update Function" [("minimumHeight", .whole 32)]])

/-- The controls of the ranges. -/
def rangesWidget : Widget α :=
  .group "Ranges" (.node "QFormLayout" [] [rangeRow .x, rangeRow .y, rangeRow .z])

/-- The control of the opacity. -/
def appearanceWidget : Widget α :=
  .group "Appearance" (.node "QFormLayout" [] [
    .row "Opacity:" (.leaf "QSlider"
      [("orientation", "Qt.Horizontal"), ("range", .wholes [0, 100])])])

/-- The control of the frame rate. -/
def rateWidget : Widget α :=
  .leaf "QComboBox" [("items", .list (frameRates.map fun (n : Nat) =>
    .list [.text (toString n ++ " FPS"), .whole n]))]

/-- The controls of the path. -/
def pathWidget (c : Controls α) : Widget α :=
  let start (s : String) : Widget α :=
    .line s [("placeholderText", "right-click the surface")]
  .group "Gradient Path" (.node "QFormLayout" [] [
    .row "Start x:" (start c.startX),
    .row "Start y:" (start c.startY),
    .checkBox "Gradient ascent" c.ascend [("toolTip", "Climb instead of descending")],
    .row "Speed:" rateWidget,
    .node "QHBoxLayout" [] [
      .button "Animate" [("minimumHeight", .whole 32)],
      .button "Clear" [("minimumHeight", .whole 32)]],
    .button "Path Profile..."])

/-- The line of the status. -/
def statusWidget (c : Controls α) : Widget α :=
  .label c.status [
    ("wordWrap", true),
    ("styleSheet", .text ("QLabel \x7b padding: 5px; background-color: rgba(0,0,0,10); " ++
      "border-radius: 3px; \x7d"))]

/-- All controls. -/
def widget (c : Controls α) : Widget α :=
  .node "FunctionControlPanel" [] [.node "QVBoxLayout" [] [
    c.functionWidget, rangesWidget, appearanceWidget, c.pathWidget, c.statusWidget,
    .mark "stretch"]]

end Controls

/-- The menu. -/
def menuWidget {α : Type} : Widget α :=
  let action (text : String) (keys : Layout.Properties α) : Widget α :=
    .leaf "QAction" (("text", .text text) :: keys)
  let menu (text : String) (content : List (Widget α)) : Widget α :=
    .node "QMenu" [("text", .text text)] content
  menu "" [
    menu "&File" [
      action "New Session" [("shortcut", "Ctrl+N")], .mark "separator", action "Exit" []],
    menu "&Path" [action "Path Profile..." [], action "Clear Path" []]]

/-- The whole window. -/
def widget {κ α : Type} [Scalar α] (w : Window κ α) : Widget α :=
  .node "MainWindow" [("windowTitle", .text title), ("size", .wholes [1400, 900])] [
    menuWidget,
    .node "QWidget" [] [.node "QVBoxLayout" [Widget.margins 0, ("spacing", .whole 0)] [
      .node "QSplitter" [("orientation", "Qt.Horizontal"), ("sizes", .wholes [350, 1050])] [
        w.panel.controls.widget, Scene.stageWidget]]]]

end FieldWalk.Window
