/-!
# Handles of the host

Names and numbers that the host hands over and that are carried along unread.
-/

namespace Inlay

/-- A callable or class that a diagnostic refers to, by the name that the host shows for it. -/
structure Symbol where
  name : String
deriving DecidableEq, Repr

/-- The identity of an argument expression inside one call. The candidates of a call share their
argument expressions, and this number tells which argument of one is which of another. -/
structure ArgumentId where
  index : UInt32
deriving DecidableEq, Repr

end Inlay
