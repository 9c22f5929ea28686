/-!
# Colour on a terminal

A report is written with a `Paint`, which says how a text looks in a style.  Without colour
every text is written as it is (`Paint.plain`).  A terminal is told of a style by escape
sequences around the text (`Paint.escaped`), whose colour codes may be left empty.
-/

namespace RobotJobs

/-- The colours in use. -/
inductive Colour where
  | green
  | red
  | yellow
  | cyan
  | grey
  deriving DecidableEq

/-- The number of a colour in the palette of a terminal. -/
def Colour.code : Colour → String
  | green => "10"
  | red => "9"
  | yellow => "11"
  | cyan => "14"
  | grey => "8"

/-- A colour and a weight. -/
structure Style where
  colour : Colour
  bold : Bool := false
  deriving DecidableEq

/-- How a text is written in a style. -/
structure Paint where
  apply : Style → String → String

namespace Paint

/-- The paint that writes every text as it is. -/
def plain : Paint where
  apply _ text := text

@[simp]
theorem apply_plain (style : Style) (text : String) :
  plain.apply style text = text
  := rfl

/-- The escape sequence with given parameters. -/
def escape (parameters : String) : String :=
  "\x1b[" ++ parameters ++ "m"

/-- The parameters for a colour; without colours there are none. -/
def colourParameters (colours : Bool) (parameters : String) : String :=
  if colours then parameters else ""

/-- The paint of escape sequences that switch a style on and off; without colours only the
weight is left of it. -/
def escaped (colours : Bool) : Paint where
  apply style text :=
    let on := escape (colourParameters colours ("38;5;" ++ style.colour.code))
    if style.bold then on ++ escape "1" ++ text ++ escape "0"
    else on ++ text ++ escape (colourParameters colours "39")

end Paint

end RobotJobs
