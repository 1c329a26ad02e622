import LocalIpc.Address.Path
/-!
# Pipe names

Every named pipe lives in one namespace. A name that does not start with that namespace is taken to
be relative to it.
-/

namespace LocalIpc.PipeName

/-- The namespace of named pipes. -/
def namespacePath : String := "\\\\.\\pipe\\"

/-- The full name of a pipe. -/
def normalize (name : String) : String :=
  if namespacePath.toList.isPrefixOf name.toList then name else namespacePath ++ name

/-- The pipe that a path stands for. -/
def ofPath (path : Path) : String := normalize (Text.lossy path)

end LocalIpc.PipeName
