import Inlay.Span
import Inlay.Symbol
import Inlay.Ty.Equality

/-!
# Candidates of a call

The callables that were considered for a call, each with how the arguments of the call were bound to
its parameters. A candidate can be explained if its arguments were bound at all and it has no
optional parameters, for which an argument may be missing.
-/

namespace Inlay

/-- An argument expression of a call, with its type if that is known. -/
structure Argument where
  id : ArgumentId
  span : Span
  declaredType : Option Ty
deriving DecidableEq

structure Parameter where
  name : String
  type : Ty
deriving DecidableEq

structure Binding where
  argument : Argument
  parameter : Parameter
deriving DecidableEq

/-- The parameter that takes an argument: the one of the last binding of that argument. -/
def Binding.parameter? (bindings : List Binding) (id : ArgumentId) : Option Parameter :=
  (bindings.findRev? (·.argument.id == id)).map (·.parameter)

/-- A callable that was considered for a call. It is of the best rank if no other candidate fits
better. The bindings are absent if the arguments were not bound one by one. -/
structure Candidate where
  symbol : Symbol
  bestRanked : Bool
  optionalParameters : Bool
  bindings : Option (List Binding)
deriving DecidableEq

namespace Candidate

/-- A candidate that fits as well as any and whose parameters are all required. -/
def ofBindings (symbol : Symbol) (bindings : List Binding) : Candidate where
  symbol
  bestRanked := true
  optionalParameters := false
  bindings := some bindings

/-- The bindings by which a candidate can be explained. -/
def explainable? (c : Candidate) : Option (List Binding) :=
  if c.optionalParameters then none else c.bindings

end Candidate

end Inlay
