import ConnectorKeeper.StringMap

/-!
# Files

A tree of files, as its files by their full path.  A directory is any path that
is no file, so making one is only a matter of no file being in the way.
-/

namespace ConnectorKeeper

/-- A file. -/
structure File where
  /-- What it holds. -/
  content : String
  /-- Whether only its owner may read it. -/
  isPrivate : Bool
deriving DecidableEq

/-- Why a file could not be written. -/
inductive FileFault where
  /-- A file is where a directory is to be made. -/
  | alreadyExists
  /-- A file is where a directory should be on the way. -/
  | notADirectory
  /-- A directory is where a file is to be written. -/
  | isADirectory
  /-- There is no such file. -/
  | notFound
deriving DecidableEq, Repr

namespace Path

/-- A path below a directory; an absolute one replaces it. -/
def join (dir path : String) : String :=
  if path.startsWith "/" || dir = "" then path
  else if dir.endsWith "/" then dir ++ path
  else dir ++ "/" ++ path

/-- The directories on the way to a path, nearest the root first.  What is read
so far comes with its last characters first. -/
def ancestorsFrom (done : List Char) : List Char → List String
  | [] => []
  | '/' :: rest =>
      let found := String.ofList done.reverse
      let more := ancestorsFrom ('/' :: done) rest
      if done.isEmpty || done.head? = some '/' then more else found :: more
  | c :: rest => ancestorsFrom (c :: done) rest

/-- The directories on the way to a path. -/
def ancestors (path : String) : List String := ancestorsFrom [] path.toList

end Path

/-- A tree of files, by full path. -/
abbrev Files := StringMap File

namespace Files

/-- Whether a path is a directory because a file lies below it. -/
def isDirectory (files : Files) (path : String) : Bool :=
  files.keys.any fun k => k.startsWith (path ++ "/")

/-- Whether a directory can be made, with all on the way to it. -/
def makeDirectory (files : Files) (path : String) : Except FileFault Unit :=
  if (Path.ancestors path).any files.contains then .error .notADirectory
  else if files.contains path then .error .alreadyExists
  else .ok ()

/-- The tree with a file written. -/
def write (files : Files) (path : String) (file : File) : Except FileFault Files :=
  if files.isDirectory path then .error .isADirectory else .ok (files.insert path file)

end Files

end ConnectorKeeper
