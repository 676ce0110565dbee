import QueryTerms.Calendar
import QueryTerms.Fault
import QueryTerms.Term.Basic

/-! Host values and the terms they are lifted to. Scalars become literals, lists and objects become calls that
make them, and points in time become calls of the time constructors of the server. -/

namespace QueryTerms

/-- An integer type of the host. -/
inductive IntegerType where
  | signed (bits : Nat)
  | unsigned (bits : Nat)

namespace IntegerType

/-- The number of integers of the type that are not negative. -/
def bound : IntegerType → Nat
  | .signed bits => 1 <<< (bits - 1)
  | .unsigned bits => 1 <<< bits

def least : IntegerType → Int
  | .signed bits => -(bound (.signed bits) : Int)
  | .unsigned _ => 0

def holds (type : IntegerType) (n : Int) : Bool :=
  type.least ≤ n && n < type.bound

end IntegerType

/-- The type of the keys of a host map. -/
inductive KeyType where
  | string
  | integer (type : IntegerType)
  | bool
  | char
  | unit
  | bytes
  | option

/-- A value of the host. -/
inductive HostValue where
  | datum (d : Datum)
  | integer (type : IntegerType) (n : Number)
  /-- A floating-point number; none stands for one that is not finite. -/
  | double (x : Option Number)
  | single (x : Option Number)
  /-- The first character of a text. -/
  | char (s : String)
  /-- A map in the order of its keys, with values that are JSON. -/
  | keyed (type : KeyType) (entries : List (Datum × Datum))
  /-- An instant in standard time. -/
  | utc (t : Instant)
  /-- An instant in the time of an offset, in seconds east. -/
  | instant (t : Instant) (offset : Int)
  /-- What a clock in the time of an offset shows. -/
  | clock (t : CivilTime) (offset : Int)
  | date (day : CivilDate)

namespace Datum

mutual
/-- The term that makes a value. -/
def lift : Datum → Term
  | .array items => .call .makeArray (liftItems items) []
  | .object fields => .call .makeObj [] (liftFields fields)
  | .null => .literal .null
  | .bool b => .literal (.bool b)
  | .number n => .literal (.number n)
  | .string s => .literal (.string s)

def liftItems : List Datum → List Term
  | [] => []
  | d :: rest => lift d :: liftItems rest

def liftFields : List (String × Datum) → List (String × Term)
  | [] => []
  | (key, d) :: rest => (key, lift d) :: liftFields rest
end

end Datum

namespace KeyType

/-- The text of a key of an object, none for a key that no object can have. A value that is no key of the
type is a fault. -/
def text? : KeyType → Datum → Except Fault (Option String)
  | .string, .string s => .ok (some s)
  | .integer type, .number n =>
    match n.toInt? with
    | some i => if type.holds i then .ok (some (toString i)) else .error .invalidHostValue
    | none => .error .invalidHostValue
  | .bool, .bool b => .ok (some (if b then "true" else "false"))
  | .char, .string s =>
    match s.toList with
    | c :: _ => .ok (some (String.singleton c))
    | [] => .error .invalidHostValue
  | .unit, .null => .ok none
  | .bytes, .array items =>
    if items.all (fun d => d.unsigned?.any (· < 256)) then .ok none else .error .invalidHostValue
  | .option, .null => .ok none
  | .option, .string _ => .ok none
  | _, _ => .error .invalidHostValue

end KeyType

namespace HostValue

/-- Two decimal digits. -/
def twoDigits (n : Int) : String :=
  let digits := toString n
  if digits.length < 2 then "0" ++ digits else digits

/-- An offset of whole minutes as sign, hours and minutes. -/
def offsetText (offset : Int) : String :=
  let size : Int := offset.natAbs
  (if offset < 0 then "-" else "+") ++ twoDigits (size / 3600) ++ ":" ++ twoDigits (size % 3600 / 60)

/-- Seconds with their nanoseconds, as a floating-point number: the quotient and the sum are each rounded. -/
def secondsDatum (seconds nanos : Int) : Datum :=
  Datum.ofDouble? do
    let whole ← Double.ofInt? seconds
    let part ← Double.ofRatio? false nanos.toNat 1000000000
    whole.add? part

/-- The time constructor for an instant in standard time. -/
def epochTerm (t : Instant) : Term :=
  .call .epochTime [.literal (secondsDatum t.seconds t.nanos)] []

/-- The time constructor for the time of a clock with an offset of whole minutes. -/
def clockTerm (t : CivilTime) (offset : Int) : Term :=
  .call .time
    [.literal (.ofInt t.date.year), .literal (.ofInt t.date.month), .literal (.ofInt t.date.day),
     .literal (.ofInt t.hour), .literal (.ofInt t.minute), .literal (secondsDatum t.second t.nanos),
     .literal (.string (offsetText offset))] []

/-- An instant in the time of an offset. The constructor takes whole minutes only; with any other offset the
instant is given in standard time. -/
def instantTerm (t : Instant) (offset : Int) : Term :=
  if offset % 60 = 0 then clockTerm (.ofInstant t offset) offset else epochTerm t

def dateTerm (date : CivilDate) : Term :=
  .call .time
    [.literal (.ofInt date.year), .literal (.ofInt date.month), .literal (.ofInt date.day),
     .literal (.string "Z")] []

/-- An object from a host map. Keys that are no text are only refused where there is one. -/
def keyedDatum (type : KeyType) (entries : List (Datum × Datum)) : Except Fault Datum := do
  let entries ← entries.mapM fun (key, value) => return (← type.text? key, value)
  let fields ← entries.mapM fun (key, value) =>
    match key with
    | some key => pure (key, value)
    | none => throw (Fault.unrepresentable (.encode "key must be a string"))
  return .object (Fields.ofEntries fields)

/-- The term of a host value, or why there is none. -/
def toTerm : HostValue → Except Fault Term
  | .datum d => .ok d.lift
  | .integer type n =>
    if n.toInt?.any type.holds then .ok (.literal (.number n)) else .error .invalidHostValue
  | .double x => .ok (.literal (.ofDouble? (x.bind Number.toDouble?)))
  | .single x => .ok (.literal (.ofDouble? ((x.bind Number.toDouble?).bind Double.toSingle?)))
  | .char s =>
    match s.toList with
    | c :: _ => .ok (.literal (.string (String.singleton c)))
    | [] => .error .invalidHostValue
  | .keyed type entries => (keyedDatum type entries).map Datum.lift
  | .utc t => if t.isValid then .ok (epochTerm t) else .error .invalidHostValue
  | .instant t offset =>
    if t.isValid && isOffset offset then .ok (instantTerm t offset) else .error .invalidHostValue
  | .clock t offset =>
    if t.isValid && isOffset offset && (t.toInstant offset).isCovered then
      .ok (instantTerm (t.toInstant offset) offset)
    else .error .invalidHostValue
  | .date day => if day.isValid then .ok (dateTerm day) else .error .invalidHostValue

end HostValue

end QueryTerms
