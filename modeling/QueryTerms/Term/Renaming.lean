import QueryTerms.Term.Basic

/-! Renaming of free variables. All variables are renamed at once, a function hides the variables that it
binds, and a renaming is refused as a whole where a function would capture a renamed variable. -/

namespace QueryTerms

/-- A finite map from variables to variables; of two entries for one variable the first one counts. -/
abbrev Renaming := List (VarId × VarId)

namespace Renaming

/-- The map with the given entries, of which later ones replace earlier ones. -/
def ofEntries (entries : List (VarId × VarId)) : Renaming :=
  entries.reverse

/-- The map without the entries for the given variables. -/
def without (params : List VarId) (m : Renaming) : Renaming :=
  m.filter fun (v, _) => !params.contains v

end Renaming

namespace Term

mutual
/-- Whether a variable has a free occurrence. -/
def occursFree (v : VarId) : Term → Bool
  | .literal _ => false
  | .annotated _ inner => occursFree v inner
  | .call op args named =>
    match role op args named with
    | .reference id => id == v
    | .binder params => !params.contains v && occursFreeArgs v args
    | .plain => occursFreeArgs v args || occursFreeNamed v named

def occursFreeArgs (v : VarId) : List Term → Bool
  | [] => false
  | t :: rest => occursFree v t || occursFreeArgs v rest

def occursFreeNamed (v : VarId) : List (String × Term) → Bool
  | [] => false
  | (_, t) :: rest => occursFree v t || occursFreeNamed v rest
end

/-- Whether a function with these parameters would capture a variable that is renamed in its parts. -/
def captures (m : Renaming) (params : List VarId) (parts : List Term) : Bool :=
  m.any fun (v, _) =>
    match m.lookup v with
    | some target => params.contains target && occursFreeArgs v parts
    | none => false

mutual
/-- Renames the free variables. -/
def rename (m : Renaming) : Term → Option Term
  | .literal d => some (.literal d)
  | .annotated note inner => (rename m inner).map (.annotated note)
  | .call op args named =>
    if m.isEmpty then some (.call op args named) else
    match role op args named with
    | .reference id =>
      match m.lookup id with
      | some target => some (var target)
      | none => some (.call op args named)
    | .binder params =>
      let active := m.without params
      if captures active params args then none
      else (renameArgs active args).map fun args => .call op args named
    | .plain => do
      return .call op (← renameArgs m args) (← renameNamed m named)

def renameArgs (m : Renaming) : List Term → Option (List Term)
  | [] => some []
  | t :: rest => do
    return (← rename m t) :: (← renameArgs m rest)

def renameNamed (m : Renaming) : List (String × Term) → Option (List (String × Term))
  | [] => some []
  | (key, t) :: rest => do
    return (key, ← rename m t) :: (← renameNamed m rest)
end

end Term

end QueryTerms
