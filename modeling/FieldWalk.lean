import FieldWalk.Algebra.Approx
import FieldWalk.Algebra.Compiled
import FieldWalk.Algebra.Derivative
import FieldWalk.Algebra.Elementary
import FieldWalk.Algebra.Expr
import FieldWalk.Algebra.Facts
import FieldWalk.Algebra.Lexeme
import FieldWalk.Algebra.Limit
import FieldWalk.Algebra.Meaning
import FieldWalk.Algebra.Number
import FieldWalk.Algebra.Ops
import FieldWalk.Algebra.Phrase
import FieldWalk.Algebra.Power
import FieldWalk.Algebra.Product
import FieldWalk.Algebra.Radial
import FieldWalk.Algebra.Simplest
import FieldWalk.Algebra.Sum
import FieldWalk.Algebra.Vocabulary
import FieldWalk.Field.Snapshot
import FieldWalk.Field.Value
import FieldWalk.Formula.Identifier
import FieldWalk.Formula.Product
import FieldWalk.Formula.Token
import FieldWalk.Journal.Book
import FieldWalk.Journal.Record
import FieldWalk.Layout.Datum
import FieldWalk.Layout.Widget
import FieldWalk.Main
import FieldWalk.Markup.Command
import FieldWalk.Markup.Flat
import FieldWalk.Markup.Group
import FieldWalk.Numeral.Double
import FieldWalk.Numeral.Gamma
import FieldWalk.Numeral.Reading
import FieldWalk.Numeral.Rounding
import FieldWalk.Numeral.Scalar
import FieldWalk.Numeral.Text
import FieldWalk.Numeral.Wide
import FieldWalk.Numeral.WideComplex
import FieldWalk.Path.Walk
import FieldWalk.Playback.Clock
import FieldWalk.Playback.Cue
import FieldWalk.Playback.Player
import FieldWalk.Program.CommandLine
import FieldWalk.Program.Launch
import FieldWalk.Proofs.Field.Complex
import FieldWalk.Proofs.Field.Overflow
import FieldWalk.Proofs.Field.Sample
import FieldWalk.Proofs.Formula.Calls
import FieldWalk.Proofs.Formula.Fixed
import FieldWalk.Proofs.Formula.Kept
import FieldWalk.Proofs.Formula.Lexemes
import FieldWalk.Proofs.Formula.Lexing
import FieldWalk.Proofs.Formula.Parts
import FieldWalk.Proofs.Formula.Placement
import FieldWalk.Proofs.Formula.Products
import FieldWalk.Proofs.Formula.Spacing
import FieldWalk.Proofs.Journal.Stretch
import FieldWalk.Proofs.Markup.Blanks
import FieldWalk.Proofs.Markup.Extent
import FieldWalk.Proofs.Markup.Flat
import FieldWalk.Proofs.Markup.Group
import FieldWalk.Proofs.Markup.Nesting
import FieldWalk.Proofs.Markup.Plain
import FieldWalk.Proofs.Markup.Seam
import FieldWalk.Proofs.Notation.Block
import FieldWalk.Proofs.Notation.Context
import FieldWalk.Proofs.Notation.Decimal
import FieldWalk.Proofs.Notation.Exact
import FieldWalk.Proofs.Notation.Infix
import FieldWalk.Proofs.Notation.Operand
import FieldWalk.Proofs.Notation.Position
import FieldWalk.Proofs.Notation.Reader
import FieldWalk.Proofs.Notation.Reading
import FieldWalk.Proofs.Notation.Row
import FieldWalk.Proofs.Notation.Seam
import FieldWalk.Proofs.Notation.Splice
import FieldWalk.Proofs.Notation.Tokens
import FieldWalk.Proofs.Notation.Tree
import FieldWalk.Proofs.Notation.Weight
import FieldWalk.Proofs.Numeral.Double
import FieldWalk.Proofs.Numeral.Exact
import FieldWalk.Proofs.Numeral.Extended
import FieldWalk.Proofs.Numeral.Integer
import FieldWalk.Proofs.Numeral.Mantissa
import FieldWalk.Proofs.Numeral.Nearest
import FieldWalk.Proofs.Numeral.Order
import FieldWalk.Proofs.Numeral.Quotient
import FieldWalk.Proofs.Numeral.Ranged
import FieldWalk.Proofs.Numeral.Result
import FieldWalk.Proofs.Numeral.Signed
import FieldWalk.Proofs.Numeral.Value
import FieldWalk.Proofs.Path.Course
import FieldWalk.Proofs.Path.Descent
import FieldWalk.Proofs.Path.Difference
import FieldWalk.Proofs.Path.Reflection
import FieldWalk.Proofs.Path.Start
import FieldWalk.Proofs.Playback.Books
import FieldWalk.Proofs.Playback.Cancel
import FieldWalk.Proofs.Playback.Doubles
import FieldWalk.Proofs.Playback.Host
import FieldWalk.Proofs.Playback.Live
import FieldWalk.Proofs.Playback.Pace
import FieldWalk.Proofs.Playback.Rate
import FieldWalk.Proofs.Playback.Restart
import FieldWalk.Proofs.Playback.Run
import FieldWalk.Proofs.Playback.Silent
import FieldWalk.Proofs.Playback.Steady
import FieldWalk.Proofs.Playback.Steps
import FieldWalk.Proofs.Playback.Tick
import FieldWalk.Proofs.Scene.Cast
import FieldWalk.Proofs.Session.History
import FieldWalk.Proofs.Session.Outcome
import FieldWalk.Proofs.Session.Refusal
import FieldWalk.Proofs.Surface.Axis
import FieldWalk.Proofs.Surface.Mesh
import FieldWalk.Proofs.Window.Effect
import FieldWalk.Proofs.Window.Exact
import FieldWalk.Proofs.Window.Layers
import FieldWalk.Proofs.Window.Lockstep
import FieldWalk.Proofs.Window.Mirror
import FieldWalk.Proofs.Window.Panel
import FieldWalk.Proofs.Window.Update
import FieldWalk.Scene.Actor
import FieldWalk.Scene.Plotter
import FieldWalk.Scene.Stage
import FieldWalk.Scene.Widgets
import FieldWalk.Session.Control
import FieldWalk.Session.Engine
import FieldWalk.Session.StartPoint
import FieldWalk.Settings
import FieldWalk.Surface.Axis
import FieldWalk.Surface.Grid
import FieldWalk.Surface.Mesh
import FieldWalk.Text.Blank
import FieldWalk.Text.Digit
import FieldWalk.Text.Letter
import FieldWalk.Text.Quoted
import FieldWalk.Text.Ranges
import FieldWalk.Text.Word
import FieldWalk.Window.Action
import FieldWalk.Window.Controls
import FieldWalk.Window.Conversions
import FieldWalk.Window.Panel
import FieldWalk.Window.Profile
import FieldWalk.Window.Report
import FieldWalk.Window.Widgets
