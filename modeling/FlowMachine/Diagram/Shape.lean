import FlowMachine.Text.Blank
import FlowMachine.Text.Casing
import FlowMachine.Text.Search

/-!
# Node shapes and machine categories
-/
namespace FlowMachine

/-- The outline of a node. -/
inductive Shape where
  | rectangle
  | rounded
  | circle
  | diamond
  | hexagon
  | stadium
deriving DecidableEq, Repr

namespace Shape

def name : Shape → String
  | .rectangle => "rectangle"
  | .rounded => "rounded"
  | .circle => "circle"
  | .diamond => "diamond"
  | .hexagon => "hexagon"
  | .stadium => "stadium"

/-- The names under which a style directive knows the shapes. -/
def aliases : List (String × Shape) :=
  [("rect", .rectangle), ("rectangle", .rectangle), ("square", .rectangle), ("rounded", .rounded),
   ("round", .rounded), ("circle", .circle), ("circ", .circle), ("diamond", .diamond),
   ("decision", .diamond), ("diam", .diamond), ("hexagon", .hexagon), ("hex", .hexagon),
   ("stadium", .stadium), ("pill", .stadium)]

/-- The shape a style directive names; blanks around the name and its case do not count. -/
def ofDirective? (text : String) : Option Shape :=
  aliases.lookup (String.ofList (Text.lowerChars (Text.trim text.toList)))

end Shape

/-- What a machine is for. -/
inductive Category where
  | info
  | user
  | agent
  | account
  | core
deriving DecidableEq, Repr

namespace Category

def all : List Category := [.info, .user, .agent, .account, .core]

def name : Category → String
  | .info => "info"
  | .user => "user"
  | .agent => "agent"
  | .account => "account"
  | .core => "core"

def ofName? (s : String) : Option Category := all.find? (·.name == s)

/-- The class that gives a diagram this category. -/
def tag (c : Category) : String := c.name ++ "-machine"

/-- The category of a class: its name, with or without `-machine` behind it. -/
def ofTag? (text : String) : Option Category :=
  let word := Text.lowerChars (Text.trim text.toList)
  ofName? (String.ofList ((Text.stripEnd? "-machine".toList word).getD word))

/-- Which category wins when two are named equally often, the winner in front. -/
def priority : List Category := [.info, .agent, .account, .user, .core]

/-- The directory that holds the modules of a category. -/
def directory : Category → String
  | .info => "information"
  | .user => "user-services"
  | .account => "user-services"
  | .agent => "agent"
  | .core => "core"

end Category

end FlowMachine
