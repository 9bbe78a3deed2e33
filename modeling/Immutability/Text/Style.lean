/-!
# Styled text

Text for a terminal: weight and colour are switched on before a piece of text and off after it.

* `padRight` and `padLeft` fill a text up to a width;
* `Style.paint` styles a text if colours are wanted, and `Style.paintWide` fills it up as well.
-/

namespace Immutability.Text

/-- The text with blanks after it, so that it has at least the given number of characters. -/
def padRight (width : Nat) (s : String) : String :=
  s ++ String.ofList (List.replicate (width - s.length) ' ')

/-- The text with blanks before it, so that it has at least the given number of characters. -/
def padLeft (width : Nat) (s : String) : String :=
  String.ofList (List.replicate (width - s.length) ' ') ++ s

/-- A colour of a terminal. -/
inductive Colour where
  | red
  | green
  | yellow
  | blue
  | cyan
  deriving DecidableEq, Repr

/-- The code that switches a colour on. -/
def Colour.code : Colour → String
  | red => "31"
  | green => "32"
  | yellow => "33"
  | blue => "34"
  | cyan => "36"

/-- How a piece of text is shown. -/
structure Style where
  bold : Bool := false
  dimmed : Bool := false
  colour : Option Colour := none
  deriving DecidableEq, Repr

namespace Style

/-- The sequence that switches every style off. -/
def closing : String := "\x1b[0m"

/-- The codes of a style: weight before colour. -/
def codes (s : Style) : List String :=
  (if s.bold then ["1"] else []) ++ (if s.dimmed then ["2"] else []) ++
    (s.colour.map Colour.code).toList

/-- The sequence that switches a style on. -/
def opening (s : Style) : String := "\x1b[" ++ ";".intercalate s.codes ++ "m"

/-- The text with the style switched on again wherever the text itself switches it off. -/
def reopen (s : Style) (text : String) : String :=
  (closing ++ s.opening).intercalate (text.splitOn closing)

/-- The text filled up to the given width, in the given style if colours are wanted. The blanks
that fill it up are part of the styled text. -/
def paintWide (s : Style) (colours : Bool) (width : Nat) (text : String) : String :=
  if colours then s.opening ++ padRight width (s.reopen text) ++ closing
  else padRight width text

/-- The text in the given style if colours are wanted. -/
def paint (s : Style) (colours : Bool) (text : String) : String := s.paintWide colours 0 text

end Style

end Immutability.Text
