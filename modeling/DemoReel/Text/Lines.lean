import DemoReel.Text.Utf8

/-!
# The lines of a text

A line ends at a line feed; a carriage return right before it belongs to the ending.  What follows
the last line feed is a line only if it is not empty, and keeps its carriage return.
-/

namespace DemoReel.Text

/-- Drops one carriage return from the end of a line that is held back to front. -/
def dropReturn : List Char → List Char
  | '\r' :: rest => rest
  | reversed => reversed

/-- The lines of `rest`, the first of which already holds `reversed`, back to front. -/
def linesFrom (reversed : List Char) : List Char → List String
  | [] => if reversed.isEmpty then [] else [String.ofList reversed.reverse]
  | '\n' :: rest => String.ofList (dropReturn reversed).reverse :: linesFrom [] rest
  | c :: rest => linesFrom (c :: reversed) rest

def lines (text : String) : List String := linesFrom [] text.toList

/-- The lines of a file with these contents, or `none` where they are not UTF-8. -/
def linesOfBytes? (contents : List UInt8) : Option (List String) :=
  (Utf8.decode contents).toOption.map lines

end DemoReel.Text
