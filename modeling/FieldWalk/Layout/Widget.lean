import FieldWalk.Layout.Datum
/-! Trees of widgets: what each was told on its making, and what stands in it. -/

namespace FieldWalk.Layout

/-- A widget or a part of a layout. -/
inductive Widget (α : Type) where
  | node (kind : String) (properties : Properties α) (children : List (Widget α))
  /-- A part without properties, such as a stretch. -/
  | mark (name : String)
  /-- A labelled row of a form. -/
  | row (label : String) (item : Widget α)
deriving Repr

namespace Widget

variable {α : Type}

/-- A widget with nothing in it. -/
def leaf (kind : String) (properties : Properties α) : Widget α :=
  node kind properties []

/-- A label. -/
def label (text : String) (properties : Properties α := []) : Widget α :=
  leaf "QLabel" (("text", .text text) :: properties)

/-- A button that is not pressed. -/
def button (text : String) (properties : Properties α := []) : Widget α :=
  leaf "QPushButton" (("text", .text text) :: ("checked", .flag false) :: properties)

/-- A line of text that can be edited. -/
def line (text : String) (properties : Properties α := []) : Widget α :=
  leaf "QLineEdit" (("text", .text text) :: properties)

/-- A box that is checked or not. -/
def checkBox (text : String) (checked : Bool) (properties : Properties α := []) : Widget α :=
  leaf "QCheckBox" (("text", .text text) :: ("checked", .flag checked) :: properties)

/-- A frame with a title around a layout. -/
def group (title : String) (content : Widget α) : Widget α :=
  node "QGroupBox" [("text", .text title)] [content]

/-- A layout without margins. -/
def margins (all : Int) : String × Datum α :=
  ("contentsMargins", .wholes (List.replicate 4 all))

mutual

/-- The written form of a tree. -/
def datum : Widget α → Datum α
  | node kind properties children =>
    let inner := data children
    .record (("type", .text kind) :: properties ++
      (if inner.isEmpty then [] else [("children", .list inner)]))
  | mark name => .text name
  | row label item => .list [.text label, item.datum]

/-- The written forms of trees. -/
def data : List (Widget α) → List (Datum α)
  | [] => []
  | w :: ws => w.datum :: data ws

end

end Widget

end FieldWalk.Layout
