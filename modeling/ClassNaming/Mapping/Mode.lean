import ClassNaming.Text.Occurrence

/-!
# Naming modes

Classes without a readable name are called after one of two schemes.  The mode tells the namespace
in which a table lists those names, and the text by which a reference to such a class is
recognised: its sentinel.

## Main Definitions

* `NamingMode` - the two schemes
* `NamingMode.ofHeader` - the scheme that the header of a mapping file speaks of
* `NamingMode.sentinel` - the text that starts a reference
-/

namespace ClassNaming

/-- The scheme after which unnamed classes are called. -/
inductive NamingMode where
  | intermediary
  | hashed
  deriving Repr, DecidableEq

namespace NamingMode

/-- The package that all unnamed classes lie in. -/
def packageRoot : String := "net/minecraft/"

/-- The scheme of a mapping file: hashed if its header mentions that word anywhere. -/
def ofHeader (header : String) : NamingMode :=
  if Text.occursIn "hashed".toList header.toList then .hashed else .intermediary

/-- The namespace of the scheme in a mapping table. -/
def namespaceName : NamingMode → String
  | .intermediary => "intermediary"
  | .hashed => "hashed"

/-- What follows the package root in every name of the scheme. -/
def classMarker : NamingMode → String
  | .intermediary => "class_"
  | .hashed => "unmapped/C_"

/-- The text that starts a reference to an unnamed class. -/
def sentinel (mode : NamingMode) : String := packageRoot ++ mode.classMarker

end NamingMode

end ClassNaming
