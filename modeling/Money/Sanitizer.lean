import Mathlib.Data.List.Infix
import Mathlib.Data.List.ReduceOption

/-! `_TextOnly` of `data/security.py`, over the events that `HTMLParser` makes of a properly nested document. -/

namespace Money

abbrev Attributes := List (String × Option String)

inductive HtmlEvent where
  | startTag (tag : String) (attrs : Attributes)
  | endTag (tag : String)
  | data (text : String)
  deriving DecidableEq, Repr

/-- The stack of hidden elements, the innermost first, and the parts of the text: `none` is the blank for a tag. -/
structure TextOnly where
  hidden : List String := []
  parts : List (Option String) := []
  deriving DecidableEq, Repr

/-- `dict(attrs)`: the last value of an attribute counts. -/
def Attributes.value (attrs : Attributes) (name : String) : Option (Option String) := attrs.reverse.lookup name

def Attributes.styled (lower : String → String) (attrs : Attributes) (text : String) : Prop :=
  text.toList <:+: (lower (String.ofList (((attrs.value "style").join.getD "").toList.filter (· ≠ ' ')))).toList
  deriving Decidable

def hides (lower : String → String) (tag : String) (attrs : Attributes) : Prop :=
  tag ∈ ["script", "style", "noscript", "iframe", "object", "svg", "template"] ∨ (attrs.value "hidden").isSome ∨
    attrs.styled lower "display:none" ∨ attrs.styled lower "visibility:hidden" ∨
    attrs.value "aria-hidden" = some (some "true")
  deriving Decidable

/-- The tags that are never put on the stack. -/
def unstacked : List String := ["br", "img", "input", "meta", "link", "hr"]

def TextOnly.handle (lower : String → String) (s : TextOnly) : HtmlEvent → TextOnly
  | .startTag tag attrs =>
    if s.hidden ≠ [] ∨ hides lower tag attrs then if tag ∈ unstacked then s else { s with hidden := tag :: s.hidden }
    else if tag ∈ ["p", "br", "div", "li"] then { s with parts := s.parts ++ [none] }
    else s
  | .endTag tag =>
    if s.hidden.head? = some tag then { s with hidden := s.hidden.tail }
    else if s.hidden = [] then { s with parts := s.parts ++ [none] }
    else s
  | .data text => if s.hidden = [] then { s with parts := s.parts ++ [some text] } else s

def voidElements : List String :=
  ["area", "base", "br", "col", "embed", "hr", "img", "input", "link", "meta", "param", "source", "track", "wbr"]

/-- A properly nested document: a void element has no end tag, every other one has. -/
inductive Html where
  | empty
  | text (data : String) (rest : Html)
  | void (tag : String) (isVoid : tag ∈ voidElements) (attrs : Attributes) (rest : Html)
  | element (tag : String) (isNormal : tag ∉ voidElements) (attrs : Attributes) (inside rest : Html)

def Html.events : Html → List HtmlEvent
  | empty => []
  | text data rest => .data data :: rest.events
  | void tag _ attrs rest => .startTag tag attrs :: rest.events
  | element tag _ attrs inside rest => .startTag tag attrs :: (inside.events ++ .endTag tag :: rest.events)

end Money
