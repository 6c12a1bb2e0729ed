/-
# Reading a command line

The grammar of every command, and the reader of whole command lines.

The words of a subcommand are read, with its settings and the environment, before what the
command above it still holds; so of two errors the one of the subcommand is reported.  The
environment stands in for settings that a level does not give: `IRRIGO_CONFIG` for `--config`
and `IRRIGO_LOG_ROOT` for `--log-root`.

* `CommandLine.entries` is the table of all commands;
* `Invocation.read` reads the words after the name of the program.
-/
import IrrigationLog.Command.Basic
import IrrigationLog.Command.Grammar
import IrrigationLog.Command.Value

namespace IrrigationLog

/-- The environment of a program. -/
abbrev Environment := List (String × String)

/-! ## 1. Settings -/

/-- The settings read at one level of the command line, with what else is read there. -/
structure Level (δ : Type) where
  globals : Globals := {}
  draft : δ

namespace Level

/-- A change of the settings. -/
def onGlobals (set : α → Globals → Globals) (read : String → Except ValueError α) (word : String)
    (l : Level δ) : Except ValueError (Level δ) :=
  (read word).map fun a => { l with globals := set a l.globals }

/-- A change of the rest. -/
def onDraft (set : α → δ → δ) (read : String → Except ValueError α) (word : String)
    (l : Level δ) : Except ValueError (Level δ) :=
  (read word).map fun a => { l with draft := set a l.draft }

/-- A switch with a value for the settings. -/
def setting (name : String) (letter : Option Char) (placeholder : String)
    (set : α → Globals → Globals) (read : String → Except ValueError α) : Switch (Level δ) :=
  ⟨name, letter, .valued placeholder false (onGlobals set read)⟩

/-- The switches that every command has. -/
def commonSwitches : List (Switch (Level δ)) :=
  [⟨"verbose", some 'v', .flag fun l => { l with globals.verbose := true }⟩,
    ⟨"quiet", some 'q', .flag fun l => { l with globals.quiet := true }⟩,
    setting "output" (some 'o') "OUTPUT" (fun p g => { g with output := some p }) Value.path,
    setting "config" none "CONFIG" (fun p g => { g with config := some p }) Value.path,
    setting "log-root" none "LOG_ROOT" (fun p g => { g with logRoot := some p }) Value.path,
    setting "now" none "NOW" (fun t g => { g with now := some t }) Value.time,
    ⟨"help", some 'h', .help⟩]

/-- A switch with a value. -/
def switch (name : String) (letter : Option Char) (placeholder : String) (negative : Bool)
    (set : α → δ → δ) (read : String → Except ValueError α) : Switch (Level δ) :=
  ⟨name, letter, .valued placeholder negative (onDraft set read)⟩

/-- A place for one word. -/
def place (placeholder : String) (negative : Bool) (set : α → δ → δ)
    (read : String → Except ValueError α) : Place (Level δ) :=
  { placeholder, negative, store := onDraft set read }

end Level

/-! ## 2. The environment -/

/-- The variables that stand in for settings, with the switch of the setting and its label. -/
def standIns : List (String × String × String) :=
  [("IRRIGO_CONFIG", "config", "--config <CONFIG>"),
    ("IRRIGO_LOG_ROOT", "log-root", "--log-root <LOG_ROOT>")]

/-- Whether a variable stands in for a setting that was not given.  An empty one is refused. -/
def anyStandIn (env : Environment) (given : List String) :
    List (String × String × String) → Except Refusal Bool
  | [] => .ok false
  | (variable_, name, label) :: more =>
    match given.contains name, env.lookup variable_ with
    | false, some "" => .error (.usage (.missingValue label))
    | false, some _ => (anyStandIn env given more).map fun _ => true
    | _, _ => anyStandIn env given more

/-- The settings with those of the environment for what is not given. -/
def Globals.withEnvironment (env : Environment) (g : Globals) : Globals :=
  { g with
    config := g.config.or (env.lookup "IRRIGO_CONFIG")
    logRoot := g.logRoot.or (env.lookup "IRRIGO_LOG_ROOT") }

/-- Ends the reading of a level: what is held is read, and the environment looked at.  Tells
whether anything was given. -/
def Walk.close (env : Environment) (w : Walk (Level δ)) : Except Refusal (Level δ × Bool) := do
  let w ← w.settle
  let stoodIn ← anyStandIn env w.given standIns
  pure (w.read, stoodIn || !w.given.isEmpty)

/-- The first walk of a level. -/
def Walk.start (draft : δ) : Walk (Level δ) := { read := { draft } }

/-! ## 3. Commands without subcommands -/

namespace CommandLine

/-- A reader of the words after the name of a command. -/
abbrev CommandReader := Environment → List String → Except Refusal (Globals × Command)

/-- Reads the words of a command without subcommands. -/
def readLeaf (g : Grammar (Level δ)) (draft : δ) (build : δ → Option Command) :
    CommandReader := fun env words => do
  let (w, _) ← g.walk (.start draft) false words
  let (level, _) ← w.close env
  match build level.draft with
  | some command => pure (level.globals, command)
  | none => .error (.usage .missingArguments)

/-- Reads the words of a command without any arguments of its own. -/
def readPlain (command : Command) : CommandReader :=
  readLeaf ⟨Level.commonSwitches, [], []⟩ () fun _ => some command

/-- A watering run half read. -/
structure RunDraft where
  zone : Option UInt8 := none
  duration : Option UInt16 := none
  start : Option DateTime := none
  schedule : UInt16 := 0
  seasonal : Int32 := 100
  weather : Int32 := 100

/-- The run, if its zone and its duration were given. -/
def RunDraft.run? (d : RunDraft) : Option GivenRun := do
  let zone ← d.zone
  let duration ← d.duration
  pure ⟨zone, duration, d.start, d.schedule, d.seasonal, d.weather⟩

/-- The words of `watering`. -/
def wateringGrammar : Grammar (Level RunDraft) where
  switches :=
    Level.switch "zone" (some 'z') "ZONE" false (fun v d => { d with zone := some v })
      Value.uint8 ::
    Level.switch "duration" (some 'd') "DURATION" false (fun v d => { d with duration := some v })
      Value.uint16 ::
    Level.switch "start" none "START" false (fun v d => { d with start := some v }) Value.time ::
    Level.switch "schedule" none "SCHEDULE" false (fun v d => { d with schedule := v })
      Value.uint16 ::
    Level.switch "seasonal" none "SEASONAL" true (fun v d => { d with seasonal := v })
      Value.int32 ::
    Level.switch "weather" none "WEATHER" true (fun v d => { d with weather := v }) Value.int32 ::
    Level.commonSwitches

/-- A sensor reading half read. -/
structure ReadingDraft where
  code : Option UInt8 := none
  id : Option UInt16 := none
  reading : Option Int32 := none

/-- The words of `sensor`. -/
def sensorGrammar : Grammar (Level ReadingDraft) where
  switches := Level.commonSwitches
  places :=
    [Level.place "SENSOR_TYPE" false (fun v d => { d with code := some v }) Value.sensorCode,
      Level.place "ID" false (fun v d => { d with id := some v }) Value.uint16,
      Level.place "READING" true (fun v d => { d with reading := some v }) Value.int32]

/-- The command, if all of the reading was given. -/
def ReadingDraft.command? (d : ReadingDraft) : Option Command := do
  let code ← d.code
  let id ← d.id
  let reading ← d.reading
  pure (.sensor code id reading)

/-- A system event half read. -/
structure EventDraft where
  severity : Severity := .info
  words : List String := []

/-- The words of `event`. -/
def eventGrammar : Grammar (Level EventDraft) where
  switches :=
    Level.switch "severity" (some 's') "SEVERITY" false (fun v d => { d with severity := v })
      Value.severity :: Level.commonSwitches
  places :=
    [{ placeholder := "MESSAGE", many := true,
       store := Level.onDraft (fun v d => { d with words := d.words ++ [v] }) .ok }]

/-- The command, if there is a word of the message. -/
def EventDraft.command? (d : EventDraft) : Option Command :=
  if d.words.isEmpty then none else some (.event d.severity d.words)

/-- The days of a question half read, with what else the question needs. -/
structure QuestionDraft (α : Type) where
  first : Option Date := none
  last : Option Date := none
  more : α

/-- The days, if the first one was given. -/
def QuestionDraft.days? (d : QuestionDraft α) : Option Days := d.first.map fun day => ⟨day, d.last⟩

/-- The switches for the days of a question. -/
def daySwitches : List (Switch (Level (QuestionDraft α))) :=
  [Level.switch "from" none "FROM" false (fun v d => { d with first := some v }) Value.date,
    Level.switch "to" none "TO" false (fun v d => { d with last := some v }) Value.date]

/-- The words of `graph`. -/
def graphGrammar : Grammar (Level (QuestionDraft Grouping)) where
  switches :=
    daySwitches ++
      Level.switch "grouping" (some 'g') "GROUPING" false (fun v d => { d with more := v })
        Value.grouping :: Level.commonSwitches

/-- The words of `table`. -/
def tableGrammar : Grammar (Level (QuestionDraft Unit)) where
  switches := daySwitches ++ Level.commonSwitches

/-- What a series needs besides the days. -/
structure SeriesDraft where
  kind : Option Sensor := none
  id : Option UInt16 := none
  summary : Summary := .raw

/-- The words of `series`. -/
def seriesGrammar : Grammar (Level (QuestionDraft SeriesDraft)) where
  switches :=
    daySwitches ++
      Level.switch "summary" (some 's') "SUMMARY" false
        (fun v d => { d with more.summary := v }) Value.summary :: Level.commonSwitches
  places :=
    [Level.place "SENSOR_TYPE" false (fun v d => { d with more.kind := some v }) Value.sensor,
      Level.place "ID" false (fun v d => { d with more.id := some v }) Value.uint16]

/-- The command, if the days and the sensor were given. -/
def seriesCommand? (d : QuestionDraft SeriesDraft) : Option Command := do
  let days ← d.days?
  let kind ← d.more.kind
  let id ← d.more.id
  pure (.series kind id days d.more.summary)

/-- The shell with a name. -/
def readShell (word : String) : Except ValueError Shell :=
  match Shell.all.find? fun s => s.word == word with
  | some shell => .ok shell
  | none => .error .unlisted

/-- The words of `completions`. -/
def completionsGrammar : Grammar (Level (Option Shell)) where
  switches := Level.commonSwitches
  places := [Level.place "SHELL" false (fun v _ => some v) readShell]

/-- The words of `config zones`. -/
def zonesGrammar : Grammar (Level (Option UInt8)) where
  switches := Level.commonSwitches
  places := [Level.place "COUNT" false (fun v _ => some v) Value.zoneNumber]

/-- The words of `config flow`. -/
def flowGrammar : Grammar (Level (Option UInt8 × Option UInt16)) where
  switches := Level.commonSwitches
  places :=
    [Level.place "ZONE" false (fun v d => (some v, d.2)) Value.zoneNumber,
      Level.place "RATE" false (fun v d => (d.1, some v)) Value.uint16]

/-- The command, if both numbers were given. -/
def flowCommand? : Option UInt8 × Option UInt16 → Option Command
  | (some zone, some rate) => some (.config (.flow zone rate))
  | _ => none

/-! ## 4. Commands with subcommands -/

/-- A command in a table of commands; the subcommands of a command are named for its help. -/
structure Entry where
  name : String
  subcommands : List String := []
  read : CommandReader

/-- Reads the words after `help`: names of commands, each a subcommand of the one before. -/
def readHelp (entries : List Entry) : List String → Except Refusal α
  | [] => .error .help
  | word :: words =>
    match entries.find? fun e => e.name == word, words with
    | none, [] => if word = "help" then .error .help else .error (.usage (.unknownSubcommand word))
    | none, next :: _ =>
      .error (.usage (.unknownSubcommand (if word = "help" then next else word)))
    | some _, [] => .error .help
    | some e, next :: more =>
      if e.subcommands.contains next then
        match more with
        | [] => .error .help
        | last :: _ => .error (.usage (.unknownSubcommand last))
      else .error (.usage (.unknownSubcommand next))

/-- Reads the words of a command with subcommands. -/
def readBranch (name about : String) (entries : List Entry) (extra : List (Switch (Level Unit))) :
    CommandReader := fun env words => do
  let g : Grammar (Level Unit) :=
    { switches := Level.commonSwitches ++ extra
      subcommands := entries.map Entry.name ++ ["help"] }
  let (w, sub) ← g.walk (.start ()) false words
  match sub with
  | none =>
    let (_, given) ← w.close env
    .error (.usage (if given then .missingSubcommand name else .nothingGiven about))
  | some (word, words) =>
    match entries.find? fun e => e.name == word with
    | none => readHelp entries words
    | some e =>
      let (inner, command) ← e.read env words
      let (outer, _) ← w.close env
      pure (inner.under outer.globals, command)

/-- The commands below `config`. -/
def configEntries : List Entry :=
  [{ name := "show", read := readPlain (.config .show_) },
    { name := "path", read := readPlain (.config .path) },
    { name := "zones",
      read := readLeaf zonesGrammar none fun d => d.map fun n => .config (.zones n) },
    { name := "flow", read := readLeaf flowGrammar (none, none) flowCommand? }]

/-- All commands. -/
def entries : List Entry :=
  [{ name := "init", read := readPlain .init },
    { name := "watering",
      read := readLeaf wateringGrammar {} fun d => d.run?.map Command.watering },
    { name := "sensor", read := readLeaf sensorGrammar {} ReadingDraft.command? },
    { name := "event", read := readLeaf eventGrammar {} EventDraft.command? },
    { name := "graph",
      read := readLeaf graphGrammar { more := .hourly } fun d =>
        d.days?.map fun days => .graph days d.more },
    { name := "table",
      read := readLeaf tableGrammar { more := () } fun d => d.days?.map Command.table },
    { name := "series", read := readLeaf seriesGrammar { more := {} } seriesCommand? },
    { name := "counters", read := readPlain .counters },
    { name := "config", subcommands := configEntries.map Entry.name ++ ["help"],
      read := readBranch "irrigo config" "Manage configuration" configEntries [] },
    { name := "completions",
      read := readLeaf completionsGrammar none fun d => d.map Command.completions }]

end CommandLine

/-- Reads the words after the name of the program. -/
def Invocation.read (env : Environment) (words : List String) : Except Refusal Invocation := do
  let (globals, command) ←
    CommandLine.readBranch "irrigo" "Irrigation controller log engine" CommandLine.entries
      [⟨"version", some 'V', .version⟩] env words
  pure ⟨globals.withEnvironment env, command⟩

end IrrigationLog
