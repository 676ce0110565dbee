import QueryTerms.Term.Basic

/-! The state of one query's construction: the token of the query, the database of unqualified tables, the
number of variables allocated so far and the flag that table references carry. -/

namespace QueryTerms

/-- The database that a server has from the start. -/
def defaultDatabase : String := "test"

structure Context where
  token : UInt64 := 0
  database : String := defaultDatabase
  allocated : VarId := 0
  useOutdated : Option Bool := none
deriving DecidableEq

end QueryTerms
