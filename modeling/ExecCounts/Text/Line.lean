import ExecCounts.Parts
import ExecCounts.Text.Blank

set_option autoImplicit false

namespace ExecCounts

structure Line where
  number : Nat
  text : List Char
deriving DecidableEq, Repr

namespace Line

def isSignificant (line : Line) : Bool :=
  match line.text with
  | [] => false
  | c :: _ => c != '#'

/-- The lines of a text that matter, numbered from one and without the blanks around them. -/
def ofText (text : List Char) : List Line :=
  let numbered := (parts '\n' text).zipIdx.map fun (line, i) => (⟨i + 1, trim line⟩ : Line)
  numbered.filter isSignificant

end Line

end ExecCounts
