import TreeRules.Log.Filter
import TreeRules.Log.Line
import TreeRules.Log.Retention

/-!
Setting up the log. Messages go to the console as far as a filter admits them, and, if asked for,
to a session file in the user's cache directory, which takes everything but traces. The first setup
of a process holds for good.
-/

namespace TreeRules.Log

/-- What a process is told from outside: the home directory, the cache directory and the filter. -/
structure Environment where
  home : Route
  cacheHome : Option String := none
  filter : Option String := none

structure Options where
  noColour : Bool := true
  level : Option String := none
  toFile : Bool := false

structure Logger where
  coloured : Bool
  consoleFilter : Filter
  sessionFile : Option Path

inductive Receiver where
  | nobody
  /-- Somebody else, who keeps them. -/
  | other
  | logger (logger : Logger)

structure System where
  files : FileSystem
  console : String := ""
  receiver : Receiver := .nobody

/-- Work on the system. A failure keeps what was done before it. -/
abbrev SystemM := ExceptT FileError (StateM System)

def SystemM.onFiles {β : Type} (action : FileM β) : SystemM β := fun system =>
  let (result, files) := action.run system.files
  (result, { system with files })

namespace Setup

/-- The filter that holds when the environment gives none that can be read. -/
def defaultFilter : Filter := Filter.everywhere (some .info)

/-- Session files take everything from debug messages on. -/
def sessionFilter : Filter := Filter.everywhere (some .debug)

def ignored (part : String) (error : DirectiveError) : String :=
  "ignoring `" ++ part ++ "`: " ++ error.message ++ "\n"

/-- The filter of the console, and what is said about directives that were left out. -/
def consoleFilter (environment : Environment) (options : Options) : Filter × String :=
  match options.level, environment.filter with
  | some level, _ =>
    let (filter, bad) := Filter.readLossy level
    (filter, String.join (bad.map fun (part, error) => ignored part error))
  | none, some text =>
    match Filter.readStrict text with
    | .ok filter => (filter, "")
    | .error _ => (defaultFilter, "")
  | none, none => (defaultFilter, "")

/-- The user's cache directory. A cache directory that does not start at the root does not count. -/
def cacheRoute (environment : Environment) : Route :=
  let ofHome := environment.home.child ".cache"
  match environment.cacheHome.map Route.ofString with
  | some route => if route.fromRoot then route else ofHome
  | none => ofHome

def logRoute (application : Application) (environment : Environment) : Route :=
  (cacheRoute environment).child application.name

def sessionName (moment : Calendar) (process : Nat) : String :=
  Retention.nameStart ++ moment.nameStamp ++ "-" ++ toString process ++ Retention.nameEnd

/-- Makes the log directory if it is missing. Gives its path, links followed. -/
def openDirectory (route : Route) : FileM Path := do
  if !(← get).isThere route then FileM.makeDirectories route
  FileM.directoryAt route

/-- Removes the expired logs, and tells the console which of them stay. -/
def cleanUp (now : Rat) (route : Route) (directory : Path) (system : System) : System :=
  { system with
    files := Retention.removeExpired now route directory system.files
    console := system.console ++ Retention.complaints now route directory system.files }

/-- Opens the log directory, cleans it up, and opens the session file. -/
def openSession (application : Application) (environment : Environment) (clock : Clock)
    (process : Nat) : SystemM Path := do
  let route := logRoute application environment
  let directory ← SystemM.onFiles (openDirectory route)
  modify (cleanUp clock.now route directory)
  SystemM.onFiles (FileM.openAppending (route.child (sessionName clock.calendar process)) clock.now)

/-- Lets a logger take the messages, unless somebody takes them already. -/
def install (logger : Logger) (system : System) : System :=
  match system.receiver with
  | .nobody => { system with receiver := .logger logger }
  | .other | .logger _ => system

def setUp (application : Application) (environment : Environment) (clock : Clock) (process : Nat)
    (options : Options) (system : System) : Except FileError Unit × System :=
  let (consoleFilter, complaints) := consoleFilter environment options
  let system := { system with console := system.console ++ complaints }
  let logger (sessionFile : Option Path) : Logger :=
    { coloured := !options.noColour, consoleFilter, sessionFile }
  if options.toFile then
    let (opened, system) := (openSession application environment clock process).run system
    match opened with
    | .ok path => (.ok (), install (logger (some path)) system)
    | .error error => (.error error, system)
  else (.ok (), install (logger none) system)

end Setup

namespace System

def toConsole (logger : Logger) (clock : Clock) (record : Record) (system : System) : System :=
  if logger.consoleFilter.admits record.level record.target record.fieldNames then
    let stamp := clock.calendar.lineStamp
    let line := if logger.coloured then Line.coloured stamp record else Line.plain stamp record
    { system with console := system.console ++ line ++ "\n" }
  else system

def toSession (logger : Logger) (clock : Clock) (record : Record) (system : System) : System :=
  match logger.sessionFile with
  | none => system
  | some path =>
    if Setup.sessionFilter.admits record.level record.target record.fieldNames then
      let line := Line.plain clock.calendar.lineStamp record
      { system with files := system.files.append path (line ++ "\n") clock.now }
    else system

/-- Hands a record to whoever takes the messages. -/
def log (clock : Clock) (record : Record) (system : System) : System :=
  match system.receiver with
  | .nobody | .other => system
  | .logger logger => (system.toConsole logger clock record).toSession logger clock record

end System

end TreeRules.Log
