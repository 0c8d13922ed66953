import FieldWalk.Layout.Widget
import FieldWalk.Scene.Stage
/-! The widgets of the stage: the plotter, and the two buttons that float above it. -/

namespace FieldWalk.Scene

open Layout (Datum Widget)

/-- The style of the floating buttons. -/
def overlayStyle : String :=
  "\n            QFrame \x7b background-color: rgba(255, 255, 255, 200); border-radius: 6px; " ++
  "border: 1px solid #ccc; \x7d" ++
  "\n            QPushButton \x7b background-color: transparent; border: none; padding: 4px; \x7d" ++
  "\n            QPushButton:checked \x7b background-color: rgba(0, 120, 215, 50); " ++
  "border: 1px solid #0078D7; border-radius: 3px; \x7d" ++
  "\n            QPushButton:hover \x7b background-color: rgba(0, 0, 0, 10); \x7d\n        "

/-- The plotter, whose surface can be picked with the right button of the mouse. -/
def plotterWidget {α : Type} : Widget α :=
  .leaf "QtInteractor" [
    ("background", "white"),
    ("picking", .record [
      ("show_message", false), ("show_point", false), ("left_clicking", false)])]

/-- The plotter in its frame. -/
def stageWidget {α : Type} : Widget α :=
  .node "PyVistaWidget" [] [.node "QVBoxLayout" [Widget.margins 0] [plotterWidget]]

/-- A button that shows or hides a layer. -/
def layerButton {α : Type} (icon hint : String) (shown : Bool) : Widget α :=
  .leaf "QPushButton" [
    ("text", ""), ("checkable", true), ("checked", shown), ("icon", .text icon),
    ("toolTip", .text hint)]

/-- The floating buttons. -/
def Stage.overlay {κ α : Type} (s : Stage κ α) : Widget α :=
  .node "QFrame" [
      ("styleSheet", .text overlayStyle), ("adjusted", true), ("pos", .wholes [10, 10])] [
    .node "QHBoxLayout" [Widget.margins 4] [
      layerButton "QStyle.SP_FileDialogDetailedView" "Show surface" s.surfaceShown,
      layerButton "QStyle.SP_MediaPlay" "Show path" s.pathShown]]

end FieldWalk.Scene
