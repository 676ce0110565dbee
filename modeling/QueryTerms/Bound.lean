/-! Ends of a range. An end is open, closed or left to the server. Arithmetic works on the values and combines
the kinds: an open side makes the result open, and a side left to the server takes after the other one. -/

namespace QueryTerms

inductive BoundKind where
  | open
  | closed
  | default
deriving DecidableEq, Repr

namespace BoundKind

def name : BoundKind → String
  | .open => "open"
  | .closed => "closed"
  | .default => "default"

def ofName? : String → Option BoundKind
  | "open" => some .open
  | "closed" => some .closed
  | "default" => some .default
  | _ => none

/-- What the server is told; nothing if the choice is left to it. -/
def tag? : BoundKind → Option String
  | .default => none
  | kind => some kind.name

def combine : BoundKind → BoundKind → BoundKind
  | .open, _ => .open
  | _, .open => .open
  | .default, kind => kind
  | kind, .default => kind
  | .closed, .closed => .closed

/-- The kind in a description. -/
def title : BoundKind → String
  | .open => "Open"
  | .closed => "Closed"
  | .default => "Default"

end BoundKind

/-- One end of a range. -/
structure Bound (α : Type) where
  kind : BoundKind
  value : α

namespace Bound

def tag? (b : Bound α) : Option String := b.kind.tag?

def map (f : α → β) (b : Bound α) : Bound β := ⟨b.kind, f b.value⟩

/-- Applies an operation to the values of two ends. -/
def combine (f : α → β → γ) (a : Bound α) (b : Bound β) : Bound γ :=
  ⟨a.kind.combine b.kind, f a.value b.value⟩

/-- An end as it appears in a description. -/
def description (describe : α → String) (b : Bound α) : String :=
  b.kind.title ++ "(" ++ describe b.value ++ ")"

end Bound

end QueryTerms
