/-
# The program

The outer layer.  The part of the disk at which an invocation looks is read into a tree, the
invocation runs on the tree, and what it changed there is written back.
-/
import IrrigationLog.Machine
import Std.Time.DateTime.Timestamp

namespace IrrigationLog.Disk

/-- The place of names on the disk. -/
def place (names : List String) : String := "/" ++ String.intercalate "/" names

/-- What stands at a place, with what is below it down to a depth. -/
def read? (depth : Nat) (name : String) : IO (Option Tree) := do
  match ← (IO.FS.realPath name).toBaseIO with
  | .error _ => return none
  | .ok file =>
    if ← file.isDir then
      match depth with
      | 0 => return some (.dir [])
      | depth + 1 =>
        let entries ← file.readDir
        let below ← entries.toList.filterMapM fun entry => do
          return (← read? depth (name ++ "/" ++ entry.fileName)).map fun t => (entry.fileName, t)
        return some (.dir below)
    else return some (.file (← IO.FS.readBinFile name).toList)

/-- The tree with what stands at the given names on the disk, and with the directories above;
`above` are the names gone through already. -/
def look (tree : Tree) (depth : Nat) (above : List String) : List String → IO Tree
  | [] => do
    match ← read? depth (place above) with
    | some t => return (tree.alter (fun _ => .ok t) above).toOption.getD tree
    | none => return tree
  | name :: names => do
    match ← read? 0 (place above) with
    | some (.dir _) =>
      look ((tree.makeDirs above).toOption.getD tree) depth (above ++ [name]) names
    | some (.file bytes) => return (tree.write above bytes).toOption.getD tree
    | none => return tree

/-- Writes back what is new or different. -/
def writeBack (before after : Tree) : IO Unit :=
  after.listing.forM fun (names, content) => do
    match content with
    | none => if !before.isDir names then IO.FS.createDirAll (place names)
    | some bytes =>
      if before.fileAt? names != some bytes then
        IO.FS.writeBinFile (place names) bytes.toByteArray

/-- The environment variables to which the program pays attention. -/
def heeded : List String :=
  ["HOME", "XDG_CONFIG_HOME", "XDG_DATA_HOME", "IRRIGO_CONFIG", "IRRIGO_LOG_ROOT"]

/-- The machine, with an empty tree. -/
def machine : IO Machine := do
  let env ← heeded.filterMapM fun name => do
    return (← IO.getEnv name).map fun value => (name, value)
  let seconds := (← Std.Time.Timestamp.now).toSecondsSinceUnixEpoch.val
  let cwd := Path.ofText [] (← IO.currentDir).toString
  return { tree := .dir [], cwd := cwd.names, env, home := "/root", clock := ⟨.ofInt seconds⟩ }

/-- The machine with the part of the disk at which an invocation looks. -/
def forInvocation (m : Machine) (i : Invocation) : IO Machine := do
  let tree ← look m.tree 0 [] (m.configPath i.globals).names
  let tree ← match Config.load tree (m.configPath i.globals) with
    | .ok config =>
      look (← look tree 2 [] (m.rootPath i.globals config).names) 0 []
        (m.configPath i.globals).names
    | .error _ => pure tree
  let tree ← match i.globals.output.map m.path with
    | some path => if tree.occupied path.names then pure tree else look tree 0 [] path.names
    | none => pure tree
  return { m with tree }

/-- Runs the program and gives the code with which it ends. -/
def run (words : List String) : IO UInt32 := do
  let m ← machine
  let m ← match Invocation.read m.env words with
    | .ok i => forInvocation m i
    | .error _ => pure m
  let (tree, reply) := m.invoke words
  writeBack m.tree tree
  (← IO.getStdout).write reply.out.toByteArray
  (← IO.getStderr).putStr (String.ofList reply.notes)
  return .ofNat reply.code

end IrrigationLog.Disk

def main (words : List String) : IO UInt32 := IrrigationLog.Disk.run words
