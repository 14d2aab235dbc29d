/-!
A file system with regular files, directories and symbolic links, as far as keeping a log directory
needs it: looking names up along links, making directories, listing, removing and appending.
-/

namespace TreeRules.Log

/-- The name of a file. It need not be text. -/
inductive FileName where
  | text (name : String)
  | undecodable (bytes : List UInt8)
deriving DecidableEq

def FileName.size : FileName → Nat
  | text name => name.utf8ByteSize
  | undecodable bytes => bytes.length

/-- The longest name that an entry can have, in bytes. -/
def FileName.sizeLimit : Nat := 255

abbrev Path := List FileName

inductive FileEntry where
  /-- A regular file, with the seconds up to its latest modification. -/
  | file (content : String) (modified : Rat)
  | directory
  | link (target : String)
deriving DecidableEq

inductive FileError where
  | notFound
  | alreadyExists
  | notDirectory
  | isDirectory
  | nameTooLong
  | tooManyLinks
deriving DecidableEq, Repr

namespace FileError

def kindName : FileError → String
  | notFound => "NotFound"
  | alreadyExists => "AlreadyExists"
  | notDirectory => "NotADirectory"
  | isDirectory => "IsADirectory"
  | nameTooLong => "InvalidFilename"
  | tooManyLinks => "FilesystemLoop"

def message : FileError → String
  | notFound => "No such file or directory (os error 2)"
  | alreadyExists => "File exists (os error 17)"
  | notDirectory => "Not a directory (os error 20)"
  | isDirectory => "Is a directory (os error 21)"
  | nameTooLong => "File name too long (os error 36)"
  | tooManyLinks => "Too many levels of symbolic links (os error 40)"

end FileError

/-- A step along a route: to the directory itself, to its parent, or to one of its entries. -/
inductive Step where
  | stay
  | up
  | down (name : FileName)
deriving DecidableEq

/-- A way through the file system, from the root or from where it is found, as it is written: the
parts between slashes. -/
structure Route where
  fromRoot : Bool
  parts : List String
deriving DecidableEq

namespace Route

def stepOf (part : String) : Step :=
  if part = "" ∨ part = "." then .stay
  else if part = ".." then .up
  else .down (.text part)

def ofString (text : String) : Route :=
  match text.splitToList (· == '/') with
  | "" :: part :: parts => ⟨true, part :: parts⟩
  | parts => ⟨false, parts⟩

def toString (route : Route) : String :=
  (if route.fromRoot then "/" else "") ++ "/".intercalate route.parts

/-- The longest route that can be taken, in bytes. -/
def sizeLimit : Nat := 4095

def isTooLong (route : Route) : Bool := sizeLimit < route.toString.utf8ByteSize

/-- The steps along a route. A slash at the end asks for a directory, too. -/
def steps (route : Route) : List Step := route.parts.map stepOf

/-- A route without the parts at its end that lead nowhere else. -/
def withoutStays (route : Route) : Route :=
  { route with parts := (route.parts.reverse.dropWhile (stepOf · = .stay)).reverse }

def parent (route : Route) : Route :=
  let route := route.withoutStays
  withoutStays { route with parts := route.parts.dropLast }

def lastMove? (route : Route) : Option Step := route.withoutStays.steps.getLast?

/-- The route on to an entry of the directory that a route leads to. -/
def child (route : Route) (name : String) : Route :=
  let parts := if route.parts.getLast? = some "" then route.parts.dropLast else route.parts
  { route with parts := parts ++ [name] }

end Route

structure FileSystem where
  entries : List (Path × FileEntry)

namespace FileSystem

/-- The entry at a path, links not followed. The root is a directory. -/
def lookup? (files : FileSystem) (path : Path) : Option FileEntry :=
  if path = [] then some .directory else files.entries.lookup path

/-- The path that is reached by steps from a directory, all links followed, `links` at most. If a
missing entry is allowed, the last step may lead to a name that nothing has. -/
def resolve (files : FileSystem) (missing : Bool) (links : Nat) (here : Path) (steps : List Step) :
    Except FileError Path :=
  match steps with
  | [] => .ok here
  | step :: steps =>
    match files.lookup? here with
    | some .directory =>
      match step with
      | .stay => files.resolve missing links here steps
      | .up => files.resolve missing links here.dropLast steps
      | .down name =>
        if FileName.sizeLimit < name.size then .error .nameTooLong
        else
          match files.lookup? (here ++ [name]), links with
          | none, _ =>
            if missing && steps.isEmpty then .ok (here ++ [name]) else .error .notFound
          | some (.link _), 0 => .error .tooManyLinks
          | some (.link target), links + 1 =>
            let route := Route.ofString target
            files.resolve missing links (if route.fromRoot then [] else here) (route.steps ++ steps)
          | some _, links => files.resolve missing links (here ++ [name]) steps
    | some (.file ..) => .error .notDirectory
    | _ => .error .notFound
termination_by (links, steps.length)

/-- A route goes through at most forty links. -/
def linkLimit : Nat := 40

def follow (files : FileSystem) (missing : Bool) (route : Route) : Except FileError Path :=
  if route.isTooLong then .error .nameTooLong else files.resolve missing linkLimit [] route.steps

def locate (files : FileSystem) (route : Route) : Except FileError Path := files.follow false route

def isThere (files : FileSystem) (route : Route) : Bool :=
  match files.locate route with
  | .ok _ => true
  | .error _ => false

def isDirectory (files : FileSystem) (route : Route) : Bool :=
  match files.locate route with
  | .ok path => files.lookup? path == some .directory
  | .error _ => false

def insert (files : FileSystem) (path : Path) (entry : FileEntry) : FileSystem :=
  ⟨files.entries ++ [(path, entry)]⟩

def update (files : FileSystem) (path : Path) (change : FileEntry → FileEntry) : FileSystem :=
  ⟨files.entries.map fun (held, entry) => (held, if held = path then change entry else entry)⟩

def append (files : FileSystem) (path : Path) (text : String) (now : Rat) : FileSystem :=
  files.update path fun
    | .file content _ => .file (content ++ text) now
    | entry => entry

end FileSystem

/-- Work on a file system. A failure keeps the changes made before it. -/
abbrev FileM := ExceptT FileError (StateM FileSystem)

namespace FileM

def liftResult {β : Type} (look : FileSystem → Except FileError β) : FileM β := do
  match look (← get) with
  | .ok found => return found
  | .error error => throw error

def directoryAt (route : Route) : FileM Path := do
  let path ← liftResult (·.locate route)
  match (← get).lookup? path with
  | some .directory => return path
  | _ => throw .notDirectory

/-- Makes one directory; its parent must be there and its name must be free. -/
def makeDirectory (route : Route) : FileM Unit := do
  if route.isTooLong then throw .nameTooLong
  match route.lastMove? with
  | none => throw .alreadyExists
  | some last =>
    let parent ← directoryAt route.parent
    match last with
    | .stay | .up => throw .alreadyExists
    | .down name =>
      let path := parent ++ [name]
      if FileName.sizeLimit < name.size then throw .nameTooLong
      if ((← get).lookup? path).isSome then throw .alreadyExists
      modify (·.insert path .directory)

/-- Lets a failure pass if a directory is there all the same. -/
def orDirectory (route : Route) (action : FileM Unit) : FileM Unit :=
  tryCatch action fun error => do
    if (← get).isDirectory route then return () else throw error

/-- Makes a directory and whatever is missing above it, `depth` levels at most. -/
def makeDirectoriesAbove : Nat → Route → FileM Unit
  | 0, route => orDirectory route (makeDirectory route)
  | depth + 1, route =>
    orDirectory route <| tryCatch (makeDirectory route) fun error => do
      if error = .notFound then
        makeDirectoriesAbove depth route.parent
        makeDirectory route
      else throw error

def makeDirectories (route : Route) : FileM Unit :=
  makeDirectoriesAbove route.parts.length route

/-- Opens a regular file for appending, making an empty one if there is none. Gives the path of the
file, links followed. -/
def openAppending (route : Route) (now : Rat) : FileM Path := do
  let path ← liftResult (·.follow true route)
  match (← get).lookup? path with
  | none =>
    modify (·.insert path (.file "" now))
    return path
  | some (.file ..) => return path
  | some _ => throw .isDirectory

end FileM

end TreeRules.Log
