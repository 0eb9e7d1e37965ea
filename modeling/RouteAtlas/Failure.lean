/-
  RouteAtlas: why the work on a project stops.

  A scan fails with a `ScanError`, which is reported and leaves the last good map in place.  A route
  with an unknown method and a change that the file tree refuses are failures of other kinds.
-/
namespace RouteAtlas

/-- Why a project cannot be looked through. -/
inductive RootFault where
  /-- The root of the project is no directory. -/
  | missing (root : String)
  /-- A directory of the project refuses to be read. -/
  | refused (directory reason : String)
  deriving DecidableEq, Repr

/-- What is reported for a fault of a root. -/
def RootFault.message : RootFault → String
  | missing root => "Routes root does not exist or is not a directory: " ++ root
  | refused directory reason => "Cannot read " ++ directory ++ ": " ++ reason

/-- Why a scan fails. -/
inductive ScanError where
  /-- The project has no root that can be looked through. -/
  | noRoot (fault : RootFault)
  /-- There is no form of the language with this name. -/
  | unknownGrammar (name : String)
  /-- A route file cannot be read. -/
  | unreadable (file : String)
  /-- A route file is no module; its first fault is on a line. -/
  | malformed (file : String) (line : Nat)
  /-- A route file is not below the routes root, and must be. -/
  | outsideRoot (file marker : String)
  deriving DecidableEq, Repr

/-- What is reported for an error of a scan. -/
def ScanError.message : ScanError → String
  | noRoot fault => fault.message
  | unknownGrammar name => "Unknown grammar: " ++ name
  | unreadable file => file ++ ": cannot read file"
  | malformed file line => file ++ ":" ++ toString line ++ ": syntax error"
  | outsideRoot file marker => file ++ " is not under '" ++ marker ++ "'"

/-- Why a file tree refuses a change. -/
inductive TreeError where
  /-- There is no such file or directory. -/
  | missing
  /-- Something is there that is no directory. -/
  | occupied
  /-- A directory is needed, and there is a file. -/
  | notDirectory
  /-- A file is needed, and there is a directory. -/
  | isDirectory
  deriving DecidableEq, Repr

/-- Why the work on a project stops. -/
inductive Failure where
  | scan (error : ScanError)
  /-- A route would have a method that routes cannot have. -/
  | unknownMethod (method : String)
  | tree (error : TreeError)
  deriving DecidableEq, Repr

end RouteAtlas
