/-
# Carrying out a command

A command works on a tree of files, in the surroundings that its settings and its configuration
give it.  What it changes in the tree stays changed when it fails later on.  It writes to at most
one file of each sort, to the log, to the configuration and to the file for an answer, and the disk
may fail within each of them (`Faults`).

* Recording sets the log tree up first; a failure of that shows only in the recording, which
  then finds the book not ready.
* A watering run saves the counters to the configuration, whether or not the run could be
  written, and a failure to save them is reported before one to write the run.
* A question makes the file for its answer empty before it looks at the log, even one that is
  then refused.

What is shown on the terminal is always taken.
-/
import IrrigationLog.Command.Basic
import IrrigationLog.Command.Report
import IrrigationLog.LogBook.Recording

namespace IrrigationLog

open Text

/-! ## 1. Surroundings -/

/-- How the disk fails within the writes of a command, if it does. -/
structure Faults where
  /-- Within what is recorded in the log. -/
  log : Option WriteFault := none
  config : Option WriteFault := none
  /-- Within the answer to a question. -/
  answer : Option WriteFault := none
  /-- How many bytes of an answer are held back, so that a failure shows only after them.  That is
  the size of a buffer, or less as the pieces fall. -/
  held : Nat := 8192
  deriving DecidableEq

/-- What a command works with besides the tree. -/
structure Surroundings where
  /-- The working directory, in which relative paths start. -/
  cwd : List String
  config : Config
  configPath : Path
  /-- Where the log tree stands. -/
  root : Path
  /-- The time of what is recorded. -/
  clock : Clock
  /-- The file for the answer to a question. -/
  output : Option Path
  /-- Whether notes are left out. -/
  quiet : Bool
  faults : Faults

/-- What a command shows when it succeeds. -/
structure Shown where
  out : List UInt8 := []
  notes : List String := []

/-- The tree after a command, and what it shows or why it failed. -/
abbrev CommandResult := Tree × Except CommandError Shown

namespace Surroundings

/-- The log book of a tree. -/
def book (s : Surroundings) (tree : Tree) : LogBook :=
  { tree, root := s.root, station := s.config.station, clock := s.clock
    limits := s.config.limits, fault := s.faults.log }

/-- Notes, unless they are left out. -/
def notes (s : Surroundings) (texts : List String) : Shown :=
  { notes := if s.quiet then [] else texts }

/-- Saves a configuration and then shows something. -/
def save (s : Surroundings) (t : Tree) (c : Config) (shown : Shown) : CommandResult :=
  match c.saveOn s.faults.config t s.cwd s.configPath with
  | (t, .ok ()) => (t, .ok shown)
  | (t, .error e) => (t, .error (.config e))

/-! ## 2. Setting up -/

/-- Sets the log tree up, and writes the configuration if there is none. -/
def init (s : Surroundings) (t : Tree) : CommandResult :=
  let ready := s!"Log tree ready at {s.root.text}"
  match (s.book t).setUp with
  | (b, .error e) => (b.tree, .error (.setUp s.root e))
  | (b, .ok ()) =>
    if b.tree.occupied s.configPath.names then (b.tree, .ok (s.notes [ready]))
    else
      s.save b.tree { s.config with root := some s.root.text }
        (s.notes [s!"Wrote configuration to {s.configPath.text}", ready])

/-! ## 3. Recording -/

/-- The log book with its tree set up as far as possible. -/
def readyBook (s : Surroundings) (t : Tree) : LogBook := (s.book t).setUp.1

/-- The outcome of a recording. -/
def recorded (what : Recorded) : Except StoreError Unit → Except CommandError Shown
  | .ok () => .ok {}
  | .error e => .error (.record what e)

/-- Records a watering run and saves the counters. -/
def recordWatering (s : Surroundings) (t : Tree) (r : GivenRun) : CommandResult :=
  let book := s.readyBook t
  let (b, result) := book.recordWatering
    { start := r.start.getD book.now, zone := r.zone, duration := r.duration,
      schedule := r.schedule, seasonal := r.seasonal, weather := r.weather }
  match ({ s.config with station := b.station } : Config).saveOn s.faults.config b.tree s.cwd
    s.configPath with
  | (t, .error e) => (t, .error (.config e))
  | (t, .ok ()) => (t, recorded .wateringRun result)

/-- Records a reading. -/
def recordSensor (s : Surroundings) (t : Tree) (code : UInt8) (id : UInt16) (value : Int32) :
    CommandResult :=
  let (b, result) := (s.readyBook t).recordSensor code id value
  (b.tree, recorded .sensorReading result)

/-- Records an event; its words are joined by blanks. -/
def recordEvent (s : Surroundings) (t : Tree) (severity : Severity) (words : List String) :
    CommandResult :=
  let (b, result, _) := (s.readyBook t).recordEvent severity (String.intercalate " " words)
  (b.tree, recorded .systemEvent result)

/-! ## 4. Questions -/

/-- The answer to a question, in pieces. -/
def pieces (s : Surroundings) (t : Tree) (q : Query) : Except CommandError (List Piece) :=
  ((s.book t).logTree.answer q).mapError .query

/-- The bytes of an answer, with a line feed at their end. -/
def document (pieces : List Piece) : List UInt8 := Piece.document pieces ++ Utf8.encode ['\n']

/-- How a question fails that cannot write its answer: within a piece, or only at the end when
what was held back is written. -/
def unanswered (s : Surroundings) (pieces : List Piece) (room : Nat) (cause : String) :
    CommandError :=
  match (Piece.deliver cause (room + s.faults.held) pieces).2 with
  | .error e => .query e
  | .ok () => .unfinished cause

/-- Answers a question. -/
def answer (s : Surroundings) (t : Tree) (q : Query) : CommandResult :=
  match s.output with
  | none => (t, (s.pieces t q).map fun pieces => { out := document pieces })
  | some path =>
    match t.write path.names [] with
    | .error cause => (t, .error (.output path cause))
    | .ok emptied =>
      match s.pieces emptied q with
      | .error e => (emptied, .error e)
      | .ok pieces =>
        let (bytes, failure) := WriteFault.taken s.faults.answer (document pieces)
        match emptied.write path.names bytes with
        | .error cause => (emptied, .error (.output path cause))
        | .ok t =>
          match failure with
          | none => (t, .ok {})
          | some cause => (t, .error (s.unanswered pieces bytes.length cause))

/-! ## 5. The configuration -/

/-- Shows or changes the configuration. -/
def configure (s : Surroundings) (t : Tree) : ConfigAction → CommandResult
  | .show_ =>
    match s.config.text? with
    | some text => (t, .ok { out := Utf8.encode text })
    | none => (t, .error (.config .serialize))
  | .path => (t, .ok { out := Utf8.encode (s.configPath.text.toList ++ ['\n']) })
  | .zones count =>
    let station := { s.config.station with zones := count }
    s.save t { s.config with station } (s.notes [s!"Zones set to {station.numberOfZones.toNat}"])
  | .flow zone rate =>
    s.save t { s.config with station := s.config.station.setFlowRate zone rate }
      (s.notes [s!"Zone {zone.toNat} flow rate set to {rate.toNat}"])

end Surroundings

/-! ## 6. The counters -/

/-- The weekdays, Sunday first. -/
def weekdayNames : List String :=
  ["Sunday", "Monday", "Tuesday", "Wednesday", "Thursday", "Friday", "Saturday"]

/-- A line of the table of counters. -/
def counterLine (name : String) (value : Nat) : List Char :=
  [' ', ' '] ++ leftAligned 10 name.toList ++ ' ' :: rightAligned 10 (decimal value) ++ ['\n']

/-- The counters as they are shown. -/
def countersText (c : WaterCounter) : List Char :=
  let rollover :=
    match c.updatedAt with
    | some time => time.shown
    | none => "never".toList
  "Running water counters (1/100 flow-unit-minutes):\n\n".toList ++
    ((weekdayNames.zip c.weekday.toList).flatMap fun (name, n) => counterLine name n.toNat) ++
    counterLine "Week" c.weekTotal ++ "\nLifetime total: ".toList ++ decimal c.lifetime.toNat ++
    " flow-unit-minutes\nLast rollover:  ".toList ++ rollover ++ ['\n']

/-! ## 7. All commands -/

/-- What completes a first word, the same for every shell: the names of the commands. -/
def Shell.completions (_ : Shell) : Shown :=
  let names := ["init", "watering", "sensor", "event", "graph", "table", "series", "counters",
    "config", "completions", "help"]
  { out := Utf8.encode (names.flatMap fun name => name.toList ++ ['\n']) }

/-- The range of the days of a question. -/
def Days.range (days : Days) : DayRange := .spanning days.first (days.last.getD days.first)

/-- Carries out a command. -/
def Command.run (s : Surroundings) (t : Tree) : Command → CommandResult
  | .init => s.init t
  | .watering r => s.recordWatering t r
  | .sensor code id value => s.recordSensor t code id value
  | .event severity words => s.recordEvent t severity words
  | .graph days grouping => s.answer t (.chart days.range grouping)
  | .table days => s.answer t (.table days.range)
  | .series kind id days summary => s.answer t (.series kind id days.range summary)
  | .counters => (t, .ok { out := Utf8.encode (countersText (.ofStation s.config.station)) })
  | .config action => s.configure t action
  | .completions shell => (t, .ok shell.completions)

end IrrigationLog
