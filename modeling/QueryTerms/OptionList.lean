import QueryTerms.Build
import QueryTerms.Text.Escape

/-! The options of a call: named values in the order in which they were last set. -/

namespace QueryTerms

/-- Named values, each name once. -/
structure OptionList (α : Type) where
  entries : List (String × α) := []

namespace OptionList

def empty : OptionList α := {}

/-- Sets an option. One that was set before loses its old value and its old place. -/
def push (key : String) (value : α) (options : OptionList α) : OptionList α :=
  ⟨options.entries.filter (fun (k, _) => k != key) ++ [(key, value)]⟩

/-- Sets an option if there is a value for it. -/
def pushSome (key : String) (value : Option α) (options : OptionList α) : OptionList α :=
  match value with
  | some value => options.push key value
  | none => options

/-- The options set by the given entries in turn. -/
def ofEntries (entries : List (String × α)) : OptionList α :=
  entries.foldl (fun options (key, value) => options.push key value) empty

def keys (options : OptionList α) : List String :=
  options.entries.map Prod.fst

def contains (key : String) (options : OptionList α) : Bool :=
  options.entries.any fun (k, _) => k == key

def length (options : OptionList α) : Nat :=
  options.entries.length

def isEmpty (options : OptionList α) : Bool :=
  options.entries.isEmpty

/-- The keys, as they appear in a description. -/
def description (options : OptionList α) : String :=
  Described.quoteList options.keys

/-- Builds every value, in the order of the options. -/
def build (options : OptionList (Build α)) : Build (Fields α) :=
  Build.fields options.entries

/-- A change to options. -/
inductive Step (α : Type) where
  | set (key : String) (value : α)
  | setSome (key : String) (value : Option α)
  /-- Starts over from the given entries. -/
  | collect (entries : List (String × α))

def Step.apply : Step α → OptionList α → OptionList α
  | .set key value, options => options.push key value
  | .setSome key value, options => options.pushSome key value
  | .collect entries, _ => ofEntries entries

end OptionList

end QueryTerms
