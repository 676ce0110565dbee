import QueryTerms.Proofs.Rewriting

/-! The context of a build and what is built. Apart from the counter a context is read by table references only: with
these written out beforehand, an expression builds the same term in any context at the same counter. The token is
never read, and no build changes anything but the counter. -/

namespace QueryTerms
open Term

/-- A table of a database, with the flag of its reads if there is one. -/
def Term.table (database name : String) (flag : Option Bool) : Term :=
  .call .table [.database database, .literal (.string name)]
    (flag.toList.map fun on => ("use_outdated", .literal (.bool on)))

/-- The expression with the tables written out to which it refers in the context. -/
def Expr.resolve (context : Context) : Expr → Expr :=
  rewrite
    { table := fun database name => .term (.table (database.getD context.database) name context.useOutdated)
      note := .note }

theorem congruent_eq : Congruent Eq fun _ => True where
  data _ := rfl
  reference _ := rfl
  function params _ _ same := by rw [same]
  objects := ⟨trivial, trivial⟩
  call _ sameArgs sameNamed := by
    rw [List.forall₂_eq_eq_eq] at sameArgs
    rw [sameArgs, sameNamed.eq]
    exact ⟨rfl, rfl⟩

theorem Handle.table_eq (database : Option String) (name : String) (context : Context) :
    Handle.table database name context =
      ⟨.table (database.getD context.database) name context.useOutdated, context, []⟩ := by
  obtain ⟨token, default, allocated, flag⟩ := context
  cases flag <;> rfl

namespace Expr

/-- In any other context, a resolved expression builds what the expression builds in the context of its tables. -/
theorem denote_resolve_inStep (e : Expr) (terms : String → Term) (context other : Context) :
    Build.InStep context other Eq (e.denote fun name => .constant (terms name))
      ((e.resolve context).denote fun name => .constant (terms name)) := by
  refine denote_inStep congruent_eq ⟨⟨fun _ _ => rfl, fun _ _ => rfl⟩, ?_, ?_⟩ e (fun _ _ => trivial)
    (fun _ _ => rfl) fun name => .pure rfl
  · intro database name scope n
    exact ⟨n, _, _, [], rfl, Handle.table_eq database name _, rfl⟩
  · intro label h inner scope same
    exact same.map fun _ _ equal => by rw [equal]

end Expr

namespace Proofs.TableReferences

end Proofs.TableReferences

end QueryTerms
