/-! Cutting a text into lines.
Lines end at a line feed, one carriage return before it belongs to the line end, and a text that
ends with a line feed has no empty last line. -/

namespace StackLexer.Text

def dropReturn (line : List Char) : List Char :=
  if line.getLast? = some '\r' then line.dropLast else line

/-- The lines of a text, of which `current` is the part of the first that has been read, latest
character first. -/
def linesFrom (current : List Char) : List Char → List (List Char)
  | [] => if current.isEmpty then [] else [current.reverse]
  | c :: rest =>
    if c = '\n' then dropReturn current.reverse :: linesFrom [] rest
    else linesFrom (c :: current) rest

def lines (text : String) : List String := (linesFrom [] text.toList).map String.ofList

end StackLexer.Text
