import FieldWalk.Journal.Record
/-! What the user is shown besides the window itself. -/

namespace FieldWalk.Window

/-- The gravity of a message. -/
inductive Gravity where
  | warning
  | critical
deriving Repr, DecidableEq

/-- A message that has to be dismissed. -/
structure Box where
  gravity : Gravity
  title : String
  text : String
deriving Repr, DecidableEq

/-- What happens to files. -/
inductive FileEvent where
  /-- The user is asked for a name. -/
  | asked (title suggestion kinds : String)
  /-- An image is written, so many pixels wide. -/
  | exported (path : String) (width : Nat)
deriving Repr, DecidableEq

end FieldWalk.Window
