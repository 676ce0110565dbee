/-! Text in lines. Each line counts the steps by which it is moved to the right, so that a whole block is
indented without a look at its characters. -/

namespace QueryTerms

/-- A line, moved to the right by `depth` steps. -/
structure Line where
  depth : Nat
  text : List Char
deriving DecidableEq

namespace Line

/-- How far one step moves a line. -/
def stepWidth : Nat := 2

def chars (line : Line) : List Char :=
  List.replicate (stepWidth * line.depth) ' ' ++ line.text

/-- The line one step further to the right. -/
def indent (line : Line) : Line :=
  { line with depth := line.depth + 1 }

/-- A carriage return before the end of a line belongs to that end. -/
def dropReturn (line : Line) : Line :=
  if line.text.getLast? = some '\r' then { line with text := line.text.dropLast } else line

/-- Text put at the end of the last line. -/
def addToLast (suffix : List Char) : List Line → List Line
  | [] => [⟨0, suffix⟩]
  | [line] => [{ line with text := line.text ++ suffix }]
  | line :: rest => line :: addToLast suffix rest

/-- All lines one step further to the right. After the last line feed there is a line only if it has a
character. -/
def indentAll : List Line → List Line
  | [] => []
  | [line] => if line.chars.isEmpty then [] else [line.indent]
  | line :: rest => line.dropReturn.indent :: indentAll rest

end Line

/-- Text in lines: a first line, which is never indented, and the lines below it. -/
structure Block where
  first : List Char
  below : List Line := []
deriving DecidableEq

namespace Block

/-- The text split at its line feeds. -/
def ofChars : List Char → Block
  | [] => ⟨[], []⟩
  | c :: rest =>
    let block := ofChars rest
    if c = '\n' then ⟨[], ⟨0, block.first⟩ :: block.below⟩ else { block with first := c :: block.first }

def chars (b : Block) : List Char :=
  b.first ++ b.below.flatMap fun line => '\n' :: line.chars

def lines (b : Block) : List Line :=
  ⟨0, b.first⟩ :: b.below

/-- The second block goes on in the last line of the first. -/
instance : Append Block where
  append a b :=
    match a.below with
    | [] => ⟨a.first ++ b.first, b.below⟩
    | below => ⟨a.first, Line.addToLast b.first below ++ b.below⟩

/-- Blocks with a separator between them. -/
def join (separator : List Char) : List Block → Block
  | [] => ⟨[], []⟩
  | [b] => b
  | b :: rest => b ++ (⟨separator, []⟩ : Block) ++ join separator rest

/-- The lines of a block moved by one step, with text put at their end. -/
def indented (b : Block) (suffix : List Char) : List Line :=
  Line.addToLast suffix (Line.indentAll b.lines)

/-- The block on lines of its own below another text. -/
def under (head : List Char) (b : Block) : Block :=
  ⟨head, b.indented []⟩

end Block

end QueryTerms
