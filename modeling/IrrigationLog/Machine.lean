/-
# The machine

The program runs on a machine: a tree of files with a working directory, an environment, the
home directory of the account, a wall clock, and a disk that may fail within a write.  An
invocation turns the words of a command line into a new tree and a reply, which is what is shown
and the code with which the program ends: 0 for success, 1 for a command that failed, 2 for a
command line that was refused.

The configuration is looked for where the command line or the environment say, else in the
place of the account for configurations; the log tree has a place for data likewise.
-/
import IrrigationLog.Command.Line
import IrrigationLog.Command.Run

namespace IrrigationLog

/-- What a program runs on. -/
structure Machine where
  tree : Tree
  /-- The working directory. -/
  cwd : List String
  env : Environment
  /-- The home directory of the account. -/
  home : String
  /-- The wall clock. -/
  clock : Clock
  /-- How the disk fails, if it does. -/
  faults : Faults := {}

/-- What a program leaves behind besides the tree. -/
structure Reply where
  code : Nat
  out : List UInt8 := []
  notes : List Char := []
  deriving DecidableEq

namespace Machine

/-! ## 1. Places -/

/-- A variable that holds an absolute path. -/
def absolute? (m : Machine) (name : String) : Option String :=
  (m.env.lookup name).filter fun path => path.toList.head? = some '/'

/-- The home directory: what the environment says, unless that is empty. -/
def homeDirectory (m : Machine) : String :=
  ((m.env.lookup "HOME").filter fun path => path ≠ "").getD m.home

/-- The configuration of the account. -/
def standardConfig (m : Machine) : String :=
  let above := (m.absolute? "XDG_CONFIG_HOME").getD (Path.joinText m.homeDirectory ".config")
  Path.joinText (Path.joinText above "irrigo") "config.toml"

/-- The log tree of the account. -/
def standardRoot (m : Machine) : String :=
  let above := (m.absolute? "XDG_DATA_HOME").getD (Path.joinText m.homeDirectory ".local/share")
  Path.joinText above "irrigo"

/-- A path read from the working directory. -/
def path (m : Machine) (text : String) : Path := .ofText m.cwd text

/-- Where the configuration is. -/
def configPath (m : Machine) (g : Globals) : Path := m.path (g.config.getD m.standardConfig)

/-- Where the log tree is, given the configuration. -/
def rootPath (m : Machine) (g : Globals) (config : Config) : Path :=
  m.path (config.logRoot g.logRoot m.standardRoot)

/-! ## 2. Invocations -/

/-- The surroundings of a command. -/
def surroundings (m : Machine) (g : Globals) (config : Config) : Surroundings where
  cwd := m.cwd
  config := config
  configPath := m.configPath g
  root := m.rootPath g config
  clock := (g.now.map Clock.setTo).getD m.clock
  output := g.output.map m.path
  quiet := g.quiet
  faults := m.faults

/-- Carries out an invocation.  Completions need no configuration. -/
def perform (m : Machine) (i : Invocation) : CommandResult :=
  match i.command with
  | .completions shell => (m.tree, .ok shell.completions)
  | command =>
    match Config.load m.tree (m.configPath i.globals) with
    | .error e => (m.tree, .error (.config e))
    | .ok config => command.run (m.surroundings i.globals config) m.tree

/-- The reply to a command. -/
def reply : Except CommandError Shown → Reply
  | .ok shown =>
    { code := 0, out := shown.out, notes := shown.notes.flatMap fun n => n.toList ++ ['\n'] }
  | .error e => { code := 1, notes := e.report }

/-- What is shown when help is asked for. -/
def helpText : List Char :=
  "Irrigation controller log engine\n\nUsage: irrigo [OPTIONS] <COMMAND>\n".toList

/-- The reply to a command line that holds no command. -/
def refuse : Refusal → Reply
  | .usage e =>
    { code := 2
      notes := e.message.toList ++ "\n\nFor more information, try '--help'.\n".toList }
  | .help => { code := 0, out := Utf8.encode helpText }
  | .version => { code := 0, out := Utf8.encode "irrigo 0.1.0\n".toList }

/-- Runs the program with the given words after its name. -/
def invoke (m : Machine) (words : List String) : Tree × Reply :=
  match Invocation.read m.env words with
  | .error r => (m.tree, refuse r)
  | .ok i =>
    let (tree, result) := m.perform i
    (tree, reply result)

end Machine

end IrrigationLog
