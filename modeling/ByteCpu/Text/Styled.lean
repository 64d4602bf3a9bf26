import ByteCpu.Text.Control

/-!
Text in pieces, some of them with a style: bold, underlined or coloured by control sequences.
-/

set_option autoImplicit false

namespace ByteCpu.Text

inductive Style where
  | error
  | heading
  | literal
  | invalid
  deriving DecidableEq, Repr

def Style.start : Style → String
  | .error => "\x1b[1m\x1b[31m"
  | .heading => "\x1b[1m\x1b[4m"
  | .literal => "\x1b[1m"
  | .invalid => "\x1b[33m"

def Style.reset : String := "\x1b[0m"

structure Piece where
  text : String
  style : Option Style := none
  deriving DecidableEq, Repr

namespace Piece

def plain (text : String) : Piece := { text }

def literal (text : String) : Piece := ⟨text, some .literal⟩

def invalid (text : String) : Piece := ⟨text, some .invalid⟩

def heading (text : String) : Piece := ⟨text, some .heading⟩

def error (text : String) : Piece := ⟨text, some .error⟩

def render (p : Piece) : String :=
  match p.style with
  | none => p.text
  | some s => s.start ++ p.text ++ Style.reset

end Piece

structure Styled where
  pieces : List Piece
  deriving DecidableEq, Repr

namespace Styled

instance : Append Styled := ⟨fun s t => ⟨s.pieces ++ t.pieces⟩⟩

def ofString (text : String) : Styled := ⟨[.plain text]⟩

def width (s : Styled) : Nat := s.pieces.foldr (fun p n => p.text.length + n) 0

def render (s : Styled) : String := String.join (s.pieces.map (·.render))

/-- Where no colours are wanted, styles go and with them all controls in the text itself. -/
def print (s : Styled) (coloured : Bool) : String :=
  if coloured then s.render else String.ofList (Control.visible s.render.toList)

example : print ⟨[.error "error:", .plain " '", .invalid "a\x1b[31", .plain "'"]⟩ false =
    "error: 'a'" := by decide +kernel

end Styled
end ByteCpu.Text
