/-! Records of what happens, each with a source and a level of weight. -/

namespace FieldWalk.Journal

/-- The weight of a record; higher is weightier. -/
abbrev Level := Int

namespace Level

def debug : Level := 10
def info : Level := 20
def warning : Level := 30
def error : Level := 40
def critical : Level := 50

/-- The name of a level. -/
def name (l : Level) : String :=
  if l = debug then "DEBUG"
  else if l = info then "INFO"
  else if l = warning then "WARNING"
  else if l = error then "ERROR"
  else if l = critical then "CRITICAL"
  else if l = 0 then "NOTSET"
  else "Level " ++ toString l

end Level

/-- The part of the program that a record comes from, a dotted path. -/
abbrev Source := String

namespace Source

/-- The root of all sources of the program. -/
def root : Source := "gradientslide"

def markup : Source := "gradientslide.model.latex"
def state : Source := "gradientslide.model.state"
def surface : Source := "gradientslide.model.sampler"
def playback : Source := "gradientslide.model.animation"
def session : Source := "gradientslide.controller.session"
def scene : Source := "gradientslide.view.widgets.plot_3d"
def panel : Source := "gradientslide.view.panels.function_panel"
def profile : Source := "gradientslide.view.dialogs.path_profile_dialog"

/-- The source is the root or lies below it. -/
def isOwn (s : Source) : Bool :=
  s == root || s.startsWith (root ++ ".")

end Source

/-- A record. -/
structure Record where
  source : Source
  level : Level
  text : String
deriving Repr, DecidableEq

namespace Record

/-- A record of the usual course. -/
def info (source : Source) (text : String) : Record := ⟨source, .info, text⟩

/-- A record of something to be noticed. -/
def warning (source : Source) (text : String) : Record := ⟨source, .warning, text⟩

/-- A record of a failure. -/
def error (source : Source) (text : String) : Record := ⟨source, .error, text⟩

/-- Level and text in one line. -/
def line (r : Record) : String :=
  Level.name r.level ++ " " ++ r.text

end Record

end FieldWalk.Journal
