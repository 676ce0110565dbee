import QueryTerms.Datum.Text
import QueryTerms.Term.Basic
import QueryTerms.Text.Block

/-! The printed form of a term. A list of parts stays on one line while the line has at most eighty characters
and none of the parts is broken; otherwise each part gets a line of its own, indented by two spaces. -/

namespace QueryTerms

/-- The letters of a number in the numbering a, b, ..., z, aa, ab, ... that starts at one. -/
def letters (n : Nat) : List Char :=
  if n = 0 then [] else letters ((n - 1) / 26) ++ [Char.ofNat ('a'.toNat + (n - 1) % 26)]
termination_by n
decreasing_by omega

/-- The printed name of a variable. No variable is ever given the number zero. -/
def varName (id : VarId) : List Char :=
  if id = 0 then ['_'] else letters id.toNat

namespace Printer

/-- The longest line that a list of parts may share. -/
def maxWidth : Nat := 80

def fits (b : Block) : Bool :=
  b.below.isEmpty && b.first.length ≤ maxWidth

/-- Every part on lines of its own, all but the last part with a comma after it. -/
def broken : List Block → List Line
  | [] => []
  | [part] => part.indented []
  | part :: rest => part.indented [','] ++ broken rest

/-- Parts between an opening and a closing bracket, on one line if they fit. -/
def layout (opening : Block) (parts : List Block) (closing : List Char) : Block :=
  let single := opening ++ Block.join [',', ' '] parts ++ (⟨closing, []⟩ : Block)
  if parts.isEmpty || fits single then single
  else ⟨opening.first, opening.below ++ broken parts ++ [⟨0, closing⟩]⟩

/-- The head of a function with the names of its parameters. -/
def lambdaHead (params : List VarId) : List Char :=
  '\\' :: [' '].intercalate (params.map varName) ++ [' ', '-', '>']

/-- A head with its body, on one line if they fit. -/
def lambda (head : List Char) (body : Block) : Block :=
  let single := (⟨head ++ [' '], []⟩ : Block) ++ body
  if fits single then single else body.under head

/-- A call from the printed forms of its arguments. -/
def call (op : Operator) (role : Term.Role) (args named : List Block) : Block :=
  match role, op, args, named with
  | .reference id, _, _, _ => ⟨varName id, []⟩
  | .binder params, _, [_, body], _ => lambda (lambdaHead params) body
  | _, .makeArray, _, [] => layout ⟨['['], []⟩ args [']']
  | _, .makeObj, [], _ => layout ⟨['\x7b'], []⟩ named ['\x7d']
  | _, .bracket, [value, index], [] => layout (value ++ (⟨['['], []⟩ : Block)) [index] [']']
  | _, _, _, _ => layout ⟨op.name.toList ++ ['('], []⟩ (args ++ named) [')']

end Printer

namespace Term

mutual
/-- The lines of the printed form. The text of a literal is one line. -/
def printed : Term → Block
  | .literal d => ⟨d.chars, []⟩
  | .annotated note inner => .ofChars ("/* ".toList ++ note.toList ++ " */ ".toList) ++ printed inner
  | .call op args named => Printer.call op (role op args named) (printedArgs args) (printedNamed named)

def printedArgs : List Term → List Block
  | [] => []
  | t :: rest => printed t :: printedArgs rest

def printedNamed : List (String × Term) → List Block
  | [] => []
  | (key, t) :: rest => (.ofChars (key.toList ++ [':', ' ']) ++ printed t) :: printedNamed rest
end

/-- The printed form of a term. -/
def render (t : Term) : String :=
  String.ofList t.printed.chars

end Term

end QueryTerms
