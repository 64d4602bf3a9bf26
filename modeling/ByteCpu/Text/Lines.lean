/-!
The lines of a text. Each ends at a newline, and a carriage return in front of it belongs to the
end of the line.
-/

set_option autoImplicit false

namespace ByteCpu.Text

def dropReturn (cs : List Char) : List Char := if cs.getLast? = some '\r' then cs.dropLast else cs

/-- What follows the last newline is a line too, unless it is empty. -/
def lines (cs : List Char) : List (List Char) :=
  let parts := cs.splitOn '\n'
  parts.dropLast.map dropReturn ++ parts.getLast?.toList.filter (!·.isEmpty)

example : lines "a\r\n\nb\x0B\rc\n".toList = ["a".toList, [], "b\x0B\rc".toList] := by
  decide +kernel

end ByteCpu.Text
