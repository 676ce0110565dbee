import QueryTerms.Attribute
import QueryTerms.Term.Printer

/-! Descriptions of handles and attributes for a reader. A handle is described by the printed form of its term,
built in a context of its own. -/

namespace QueryTerms

namespace Handle

/-- The term in a fresh context, with the notices of its build. -/
def builtDefault (h : Handle) : Built Term := h.run {}

/-- The printed form. -/
def display (h : Handle) : Built String :=
  let built := h.builtDefault
  { built with result := built.result.render }

/-- The printed form, marked as that of a deferred term. -/
def description (h : Handle) : Built String :=
  let built := h.display
  { built with result := "ReQL(" ++ built.result ++ ")" }

end Handle

namespace Attribute

/-- An attribute as it appears in a description, with the notices of the builds. -/
def description : Attribute Handle → String × List Notice
  | .field key value =>
    let shown := value.description
    (key ++ ": " ++ shown.result, shown.notices)
  | .computed key value =>
    let shownKey := key.description
    let shownValue := value.description
    ("Dynamic \x7b key: " ++ shownKey.result ++ ", value: " ++ shownValue.result ++ " \x7d",
      shownKey.notices ++ shownValue.notices)
  | .absent => ("Absent", [])

end Attribute

end QueryTerms
