import QueryTerms.Text.Visible

/-! Quoted texts. A JSON string escapes some characters by a letter and some by four hexadecimal digits;
which ones is a rule of the output. Descriptions of values show a text with a number in braces for every
character that is not visible. -/

namespace QueryTerms

/-- The digits of a number in base sixteen, padded with zeros to the given width. -/
def hexDigits (width n : Nat) : List Char :=
  let digits := Nat.toDigits 16 n
  List.replicate (width - digits.length) '0' ++ digits

/-- Which characters are escaped inside a JSON string, and how. -/
structure EscapeRule where
  /-- The letter that stands for the character after a backslash. -/
  letter : Char → Option Char
  /-- Whether a character without a letter is written by its number. -/
  numbered : Char → Bool

namespace EscapeRule

def escape (rule : EscapeRule) (c : Char) : List Char :=
  match rule.letter c with
  | some l => ['\\', l]
  | none => if rule.numbered c then '\\' :: 'u' :: hexDigits 4 c.toNat else [c]

/-- The text between quotation marks. -/
def quote (rule : EscapeRule) (text : List Char) : List Char :=
  '"' :: text.flatMap rule.escape ++ ['"']

end EscapeRule

namespace Described

/-- How a character appears in a description. -/
def escape (c : Char) : List Char :=
  if c = '"' then ['\\', '"']
  else if c = '\\' then ['\\', '\\']
  else if c = '\n' then ['\\', 'n']
  else if c = '\r' then ['\\', 'r']
  else if c = '\t' then ['\\', 't']
  else if c.toNat = 0 then ['\\', '0']
  else if Visible.isVisible c then [c]
  else '\\' :: 'u' :: '\x7b' :: Nat.toDigits 16 c.toNat ++ ['\x7d']

/-- A text as it appears in a description. -/
def quote (text : String) : String :=
  String.ofList ('"' :: text.toList.flatMap escape ++ ['"'])

/-- A list of texts as it appears in a description. -/
def quoteList (texts : List String) : String :=
  "[" ++ ", ".intercalate (texts.map quote) ++ "]"

end Described

end QueryTerms
