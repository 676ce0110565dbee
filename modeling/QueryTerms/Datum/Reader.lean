import QueryTerms.Datum.Mismatch

/-! Reading JSON text. A reader takes the characters that remain and returns a value with the characters
after it, or the first fault it meets. Readers for values of a fixed shape use the same steps, so that a
value of the wrong kind is reported where it stands and a fault of the text where it starts. -/

namespace QueryTerms

/-- Why a text is not the JSON that was asked for. -/
inductive ReadFault where
  | endInValue
  | endInList
  | endInObject
  | endInString
  | expectedColon
  | expectedListEnd
  | expectedObjectEnd
  | expectedIdent
  | expectedValue
  | invalidEscape
  | invalidNumber
  | numberOutOfRange
  | controlCharacter
  | keyNotString
  | loneSurrogate
  | cutSurrogate
  | trailingComma
  | trailingCharacters
  | tooDeep
  | mismatch (m : Mismatch)

namespace ReadFault

def message : ReadFault → String
  | .endInValue => "EOF while parsing a value"
  | .endInList => "EOF while parsing a list"
  | .endInObject => "EOF while parsing an object"
  | .endInString => "EOF while parsing a string"
  | .expectedColon => "expected `:`"
  | .expectedListEnd => "expected `,` or `]`"
  | .expectedObjectEnd => "expected `,` or `\x7d`"
  | .expectedIdent => "expected ident"
  | .expectedValue => "expected value"
  | .invalidEscape => "invalid escape"
  | .invalidNumber => "invalid number"
  | .numberOutOfRange => "number out of range"
  | .controlCharacter => "control character (\\u0000-\\u001F) found while parsing a string"
  | .keyNotString => "key must be a string"
  | .loneSurrogate => "lone leading surrogate in hex escape"
  | .cutSurrogate => "unexpected end of hex escape"
  | .trailingComma => "trailing comma"
  | .trailingCharacters => "trailing characters"
  | .tooDeep => "recursion limit exceeded"
  | .mismatch m => m.message

end ReadFault

/-- Reads a value off the front of a text. -/
abbrev Reader (α : Type) := List Char → Except ReadFault (α × List Char)

namespace Reader

def isBlank (c : Char) : Bool :=
  c == ' ' || c == '\n' || c == '\t' || c == '\r'

def skipBlanks (text : List Char) : List Char :=
  text.dropWhile isBlank

/-- The rest of a word, letter by letter. -/
def ident : List Char → Reader Unit
  | [], text => .ok ((), text)
  | _ :: _, [] => .error .endInValue
  | expected :: word, c :: text => if c = expected then ident word text else .error .expectedIdent

/-- A number as it is written: the digits without the point, and the power of ten they are multiplied by.
An exact one has neither a fraction nor an exponent. -/
structure Numeral where
  negative : Bool
  digits : Nat
  exponent : Int
  exact : Bool

namespace Numeral

/-- The number that a numeral denotes. An exact one is an integer where a 64-bit integer holds it;
a negative zero is always a floating-point number. -/
def toNumber? (x : Numeral) : Option Number :=
  let double := (Double.ofDecimal? x.negative x.digits x.exponent).map Number.double
  if !x.exact || (x.negative && x.digits == 0) then double
  else match Number.ofInt? (if x.negative then -(x.digits : Int) else x.digits) with
    | some n => some n
    | none => double

end Numeral

/-- The value of decimal digits. -/
def digitsValue (digits : List Char) : Nat :=
  digits.foldl (fun n c => 10 * n + (c.toNat - '0'.toNat)) 0

/-- The digits before the point: a single zero, or digits that do not begin with one. An empty text is
reported as `atEnd`. -/
def wholeDigits (atEnd : ReadFault) : Reader (List Char)
  | [] => .error atEnd
  | c :: text =>
    if c = '0' then
      match text with
      | d :: _ => if d.isDigit then .error .invalidNumber else .ok (['0'], text)
      | [] => .ok (['0'], text)
    else if c.isDigit then .ok (c :: text.takeWhile Char.isDigit, text.dropWhile Char.isDigit)
    else .error .invalidNumber

/-- One digit or more. -/
def someDigits (atEnd : ReadFault) (text : List Char) : Except ReadFault (List Char × List Char) :=
  match text.takeWhile Char.isDigit, text with
  | [], [] => .error atEnd
  | [], _ :: _ => .error .invalidNumber
  | digits, _ => .ok (digits, text.dropWhile Char.isDigit)

/-- The power of ten after the letter, if there is one. -/
def exponentPart (atEnd : ReadFault) : Reader (Option Int)
  | 'e' :: text | 'E' :: text => do
    let (negative, text) := match text with
      | '+' :: text => (false, text)
      | '-' :: text => (true, text)
      | text => (false, text)
    let (digits, text) ← someDigits atEnd text
    let power : Int := digitsValue digits
    return (some (if negative then -power else power), text)
  | text => .ok (none, text)

/-- A number without its sign. -/
def unsignedNumeral (atEnd : ReadFault) (negative : Bool) : Reader Numeral := fun text => do
  let (whole, text) ← wholeDigits atEnd text
  let (fraction, text) ← match text with
    | '.' :: text => someDigits atEnd text
    | text => pure ([], text)
  let (power, text) ← exponentPart atEnd text
  let exact := fraction.isEmpty && power.isNone
  return (⟨negative, digitsValue (whole ++ fraction), power.getD 0 - fraction.length, exact⟩, text)

/-- A number. Text that ends too early is reported as `atEnd`. -/
def numeral (atEnd : ReadFault) : Reader Numeral
  | '-' :: text => unsignedNumeral atEnd true text
  | text => unsignedNumeral atEnd false text

def number : Reader Number := fun text => do
  let (x, text) ← numeral .endInValue text
  match x.toNumber? with
  | some n => return (n, text)
  | none => throw .numberOutOfRange

/-- The value of one hexadecimal digit. -/
def hexDigit? (c : Char) : Option Nat :=
  if c.isDigit then some (c.toNat - '0'.toNat)
  else if 'a' ≤ c ∧ c ≤ 'f' then some (c.toNat - 'a'.toNat + 10)
  else if 'A' ≤ c ∧ c ≤ 'F' then some (c.toNat - 'A'.toNat + 10)
  else none

def hexValue? (a b c d : Char) : Option Nat := do
  return 4096 * (← hexDigit? a) + 256 * (← hexDigit? b) + 16 * (← hexDigit? c) + (← hexDigit? d)

/-- Why four hexadecimal digits cannot be read: the text has fewer than four bytes left, or one of them is
no such digit. -/
def hexFault (text : List Char) : ReadFault :=
  if text.foldl (fun bytes c => bytes + c.utf8Size) 0 < 4 then .endInString else .invalidEscape

/-- The character for a letter after a backslash. -/
def escaped? : Char → Option Char
  | '"' => some '"'
  | '\\' => some '\\'
  | '/' => some '/'
  | 'b' => some '\x08'
  | 'f' => some '\x0c'
  | 'n' => some '\n'
  | 'r' => some '\r'
  | 't' => some '\t'
  | _ => none

/-- The character of two paired surrogates. -/
def paired (high low : Nat) : Char :=
  Char.ofNat (0x10000 + 0x400 * (high - 0xD800) + (low - 0xDC00))

def isHighSurrogate (n : Nat) : Bool := 0xD800 ≤ n && n ≤ 0xDBFF

def isLowSurrogate (n : Nat) : Bool := 0xDC00 ≤ n && n ≤ 0xDFFF

/-- Puts a character in front of the string that was read. -/
def prepend (c : Char) (result : Except ReadFault (List Char × List Char)) :
    Except ReadFault (List Char × List Char) :=
  result.map fun (s, text) => (c :: s, text)

/-- The rest of a string after its opening quotation mark. -/
def stringTail : Reader (List Char)
  | [] => .error .endInString
  | '"' :: text => .ok ([], text)
  | ['\\'] => .error .endInString
  | '\\' :: 'u' :: a :: b :: c :: d :: text =>
    match hexValue? a b c d with
    | none => .error (hexFault (a :: b :: c :: d :: text))
    | some n =>
      if isLowSurrogate n then .error .loneSurrogate
      else if isHighSurrogate n then
        match text with
        | [] | ['\\'] => .error .endInString
        | '\\' :: 'u' :: e :: f :: g :: h :: rest =>
          match hexValue? e f g h with
          | none => .error (hexFault (e :: f :: g :: h :: rest))
          | some m => if isLowSurrogate m then prepend (paired n m) (stringTail rest) else .error .loneSurrogate
        | '\\' :: 'u' :: rest => .error (hexFault rest)
        | _ => .error .cutSurrogate
      else prepend (Char.ofNat n) (stringTail text)
  | '\\' :: 'u' :: text => .error (hexFault text)
  | '\\' :: c :: text =>
    match escaped? c with
    | some e => prepend e (stringTail text)
    | none => .error .invalidEscape
  | c :: text => if c.toNat < 0x20 then .error .controlCharacter else prepend c (stringTail text)

/-- The rest of a string whose value is not needed: surrogates need not be paired. -/
def skipStringTail : List Char → Except ReadFault (List Char)
  | [] => .error .endInString
  | '"' :: text => .ok text
  | ['\\'] => .error .endInString
  | '\\' :: 'u' :: a :: b :: c :: d :: text =>
    match hexValue? a b c d with
    | none => .error (hexFault (a :: b :: c :: d :: text))
    | some _ => skipStringTail text
  | '\\' :: 'u' :: text => .error (hexFault text)
  | '\\' :: c :: text =>
    match escaped? c with
    | some _ => skipStringTail text
    | none => .error .invalidEscape
  | c :: text => if c.toNat < 0x20 then .error .controlCharacter else skipStringTail text

/-- How a container ends and what is reported where it does not. -/
structure Container where
  close : Char
  atEnd : ReadFault
  expected : ReadFault

def list : Container := ⟨']', .endInList, .expectedListEnd⟩

def object : Container := ⟨'\x7d', .endInObject, .expectedObjectEnd⟩

/-- The parts of a container after the first one has begun: a part, then a comma and the next one or the
end. Each part takes at least one character, so `budget` need not exceed the length of the text. -/
def partsFrom (container : Container) (part : σ → Reader σ) : (budget : Nat) → σ → Reader σ
  | 0, _, _ => .error container.atEnd
  | budget + 1, state, text => do
    let (state, text) ← part state text
    match skipBlanks text with
    | [] => throw container.atEnd
    | c :: text =>
      if c = container.close then return (state, text)
      else if c = ',' then
        match skipBlanks text with
        | [] => throw .endInValue
        | d :: text =>
          if d = container.close then throw .trailingComma
          else partsFrom container part budget state (d :: text)
      else throw container.expected

/-- The parts of a container after its opening bracket. -/
def parts (container : Container) (part : σ → Reader σ) (budget : Nat) (state : σ) : Reader σ := fun text =>
  match skipBlanks text with
  | [] => .error container.atEnd
  | c :: text => if c = container.close then .ok (state, text) else partsFrom container part budget state (c :: text)

/-- The colon after a key. -/
def colon (text : List Char) : Except ReadFault (List Char) :=
  match skipBlanks text with
  | [] => .error .endInObject
  | ':' :: text => .ok text
  | _ :: _ => .error .expectedColon

/-- A key of an object. -/
def key : Reader String
  | '"' :: text => do
    let (s, text) ← stringTail text
    return (String.ofList s, text)
  | _ => .error .keyNotString

/-- A field of an object: the key, a colon and a value. -/
def field (value : Reader α) (fields : Fields α) : Reader (Fields α) := fun text => do
  let (name, text) ← key text
  let text ← colon text
  let (v, text) ← value text
  return (Fields.insert name v fields, text)

/-- A value in which containers are nested at most `depth` deep. Of two fields with one key the later one
stays. -/
def value (budget : Nat) : (depth : Nat) → Reader Datum
  | depth, text =>
    match skipBlanks text with
    | [] => .error .endInValue
    | 'n' :: text => do
      let ((), text) ← ident ['u', 'l', 'l'] text
      return (.null, text)
    | 't' :: text => do
      let ((), text) ← ident ['r', 'u', 'e'] text
      return (.bool true, text)
    | 'f' :: text => do
      let ((), text) ← ident ['a', 'l', 's', 'e'] text
      return (.bool false, text)
    | '"' :: text => do
      let (s, text) ← stringTail text
      return (.string (String.ofList s), text)
    | '[' :: text =>
      match depth with
      | 0 => .error .tooDeep
      | depth + 1 => do
        let item (items : List Datum) : Reader (List Datum) := fun text => do
          let (d, text) ← value budget depth text
          return (d :: items, text)
        let (items, text) ← parts list item budget [] text
        return (.array items.reverse, text)
    | '\x7b' :: text =>
      match depth with
      | 0 => .error .tooDeep
      | depth + 1 => do
        let (fields, text) ← parts object (field (value budget depth)) budget [] text
        return (.object fields, text)
    | c :: text =>
      if c = '-' || c.isDigit then do
        let (n, text) ← number (c :: text)
        return (.number n, text)
      else .error .expectedValue

/-- Nothing but blanks may follow. -/
def finish (result : Except ReadFault (α × List Char)) : Except ReadFault α := do
  let (a, text) ← result
  if (skipBlanks text).isEmpty then return a else throw .trailingCharacters

/-- What a value of the wrong kind is. Only as much of it is read as its description needs. -/
def mismatched (expected : String) (text : List Char) : ReadFault :=
  let kind (found : Found) := ReadFault.mismatch (.kind found expected)
  let result : Except ReadFault ReadFault := match skipBlanks text with
    | [] => .error .endInValue
    | 'n' :: text => (ident ['u', 'l', 'l'] text).map fun _ => kind .null
    | 't' :: text => (ident ['r', 'u', 'e'] text).map fun _ => kind (.bool true)
    | 'f' :: text => (ident ['a', 'l', 's', 'e'] text).map fun _ => kind (.bool false)
    | '"' :: text => (stringTail text).map fun (s, _) => kind (.string (String.ofList s))
    | '[' :: _ => .ok (kind .sequence)
    | '\x7b' :: _ => .ok (kind .map)
    | c :: text =>
      if c = '-' || c.isDigit then (number (c :: text)).map fun (n, _) => kind (Found.ofNumber n)
      else .error .expectedValue
  match result with
  | .ok fault => fault
  | .error fault => fault

/-- A string and nothing else. -/
def string : Reader String := fun text =>
  match skipBlanks text with
  | '"' :: text => (stringTail text).map fun (s, text) => (String.ofList s, text)
  | text => .error (mismatched "a string" text)

/-- A truth value, or null for none. -/
def optionalBool : Reader (Option Bool) := fun text =>
  match skipBlanks text with
  | 'n' :: text => (ident ['u', 'l', 'l'] text).map fun ((), text) => (none, text)
  | 't' :: text => (ident ['r', 'u', 'e'] text).map fun ((), text) => (some true, text)
  | 'f' :: text => (ident ['a', 'l', 's', 'e'] text).map fun ((), text) => (some false, text)
  | text => .error (mismatched "a boolean" text)

/-- An object with values of any kind, the object itself counting as one container. -/
def fields (budget depth : Nat) : Reader (Fields Datum) := fun text =>
  match skipBlanks text with
  | '\x7b' :: text =>
    match depth with
    | 0 => .error .tooDeep
    | depth + 1 => parts object (field (value budget depth)) budget [] text
  | text => .error (mismatched "a map" text)

/-- Where a skipped value stands: before a value, after one, or right after an opening bracket. -/
inductive SkipState where
  | before
  | after
  | opened

/-- A key and its colon, of a skipped object. -/
def skipKey (text : List Char) : Except ReadFault (List Char) :=
  match skipBlanks text with
  | [] => .error .endInObject
  | '"' :: text => skipStringTail text >>= colon
  | _ :: _ => .error .keyNotString

/-- Skips a value of any depth; its numbers may be out of range and its surrogates unpaired. `opened` holds
the containers that are open, the innermost first; true stands for an object. -/
def skipFrom : (budget : Nat) → SkipState → (opened : List Bool) → List Char → Except ReadFault (List Char)
  | 0, _, _, _ => .error .endInValue
  | budget + 1, .before, opened, text =>
    match skipBlanks text with
    | [] => .error .endInValue
    | 'n' :: text => do skipFrom budget .after opened (← ident ['u', 'l', 'l'] text).2
    | 't' :: text => do skipFrom budget .after opened (← ident ['r', 'u', 'e'] text).2
    | 'f' :: text => do skipFrom budget .after opened (← ident ['a', 'l', 's', 'e'] text).2
    | '"' :: text => do skipFrom budget .after opened (← skipStringTail text)
    | '[' :: text => skipFrom budget .opened (false :: opened) text
    | '\x7b' :: text => skipFrom budget .opened (true :: opened) text
    | c :: text =>
      if c = '-' || c.isDigit then do
        skipFrom budget .after opened (← numeral .invalidNumber (c :: text)).2
      else .error .expectedValue
  | _ + 1, .after, [], text => .ok text
  | budget + 1, .after, isObject :: opened, text =>
    let container := if isObject then object else list
    match skipBlanks text with
    | [] => .error container.atEnd
    | c :: text =>
      if c = container.close then skipFrom budget .after opened text
      else if c = ',' then
        if isObject then do skipFrom budget .before (isObject :: opened) (← skipKey text)
        else skipFrom budget .before (isObject :: opened) text
      else .error container.expected
  | budget + 1, .opened, isObject :: opened, text =>
    let container := if isObject then object else list
    match skipBlanks text with
    | [] => .error container.atEnd
    | c :: text =>
      if c = container.close then skipFrom budget .after opened text
      else if isObject then do skipFrom budget .before (isObject :: opened) (← skipKey (c :: text))
      else skipFrom budget .before (isObject :: opened) (c :: text)
  | _ + 1, .opened, [], text => .ok text

/-- Skips one value. -/
def skip (text : List Char) : Except ReadFault (List Char) :=
  skipFrom (2 * text.length + 2) .before [] text

end Reader

namespace Datum

/-- How deep containers may be nested in a text. -/
def depthLimit : Nat := 127

/-- Reads a whole text in which containers are nested at most `depth` deep. -/
def parseWithin (depth : Nat) (text : String) : Except ReadFault Datum :=
  let chars := text.toList
  Reader.finish (Reader.value chars.length depth chars)

/-- Reads a whole text. -/
def parse (text : String) : Except ReadFault Datum :=
  parseWithin depthLimit text

end Datum

end QueryTerms
