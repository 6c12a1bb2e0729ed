/-
# Configuration

What an operator configures is kept in one settings file: where the log tree stands, the
limits on event chunks, and the settings of the station with its water counters.

* `Config.load` reads the file; without a file everything has its default, but a file that
  cannot be read or understood is a failure, so that it is never written over;
* `Config.save` writes it, making its directory first.  The file is made empty before it is
  written, so that a disk that fails leaves a beginning of it, and the old settings are lost
  (`Config.saveOn`);
* `Config.logRoot` says where the log tree stands: where the command says, else where the file
  says, else at the default place.
-/
import IrrigationLog.Data.Form
import IrrigationLog.Data.Toml.Document
import IrrigationLog.Event.Limits
import IrrigationLog.Text.Utf8
import IrrigationLog.Tree.Basic
import IrrigationLog.Tree.Fault
import IrrigationLog.Tree.Path

namespace IrrigationLog

/-! ## 1. The configuration -/

/-- What an operator configures. -/
structure Config where
  /-- Where the log tree stands. -/
  root : Option String := none
  /-- The size of event chunks that is asked for, in bytes. -/
  chunkSize : UInt64 := .ofNat EventLimits.standard.requested
  /-- The size of the event buffer, in bytes. -/
  maxPayload : UInt64 := .ofNat EventLimits.standard.capacity
  station : Station := {}
  deriving DecidableEq

namespace Config

instance : Inhabited Config := ⟨{}⟩

/-- The limits on event chunks. -/
def limits (c : Config) : EventLimits := ⟨c.maxPayload.toNat, c.chunkSize.toNat⟩

/-- Where the log tree stands, given what the command says and the default place. -/
def logRoot (c : Config) (said : Option String) (standard : String) : String :=
  (said.or c.root).getD standard

/-! ## 2. The file -/

/-- The pairs of the station. -/
def stationPairs (s : Station) : Toml.Pairs :=
  [("zones", .number s.zones.toNat),
    ("flow_rates", .numbers (s.flowRates.map fun r => (r.toNat : Int))),
    ("weekday_counters", .numbers (s.weekdayCounters.toList.map fun c => (c.toNat : Int))),
    ("lifetime_counter", .number s.lifetime.toNat)] ++
    s.counterDate.toList.map fun t => ("counter_date", .numbers t.parts)

/-- The settings file of a configuration. -/
def document (c : Config) : Toml.Document where
  top :=
    c.root.toList.map (fun root => ("log_root", .text root)) ++
      [("event_chunk_size", .number c.chunkSize.toNat),
        ("max_event_payload", .number c.maxPayload.toNat)]
  tables := [("station", stationPairs c.station)]

/-- The text of the settings file.  There is none for a size of 2^63 or more: the format has no
such numbers. -/
def text? (c : Config) : Option (List Char) :=
  if c.chunkSize.toNat < UInt64.size / 2 ∧ c.maxPayload.toNat < UInt64.size / 2 then
    some c.document.text
  else none

/-- The configuration with the given data. -/
def ofData? (d : Data) : Option Config := do
  let slots ← d.slots? .lenient ["log_root", "event_chunk_size", "max_event_payload", "station"]
  match slots with
  | [root, chunkSize, maxPayload, station] => do
    let root ← root.default? none (Data.optional? Data.text?)
    let chunkSize ← chunkSize.default? (.ofNat EventLimits.standard.requested) Data.uint64?
    let maxPayload ← maxPayload.default? (.ofNat EventLimits.standard.capacity) Data.uint64?
    let station ← station.default? {} (Station.ofData? .lenient)
    pure { root, chunkSize, maxPayload, station }
  | _ => none

/-- The configuration that a settings file holds. -/
def parse? (text : List Char) : Option Config := (Toml.read? text).bind ofData?

end Config

/-! ## 3. What can go wrong -/

/-- Why a configuration could not be loaded or saved. -/
inductive ConfigError where
  | read (path : Path) (cause : Cause)
  /-- The file is no settings file, or a setting is out of its bounds. -/
  | parse (path : Path)
  | makeDirectory (path : Path) (cause : Cause)
  /-- The configuration has no text. -/
  | serialize
  /-- The file could not be opened, or not all of it could be written. -/
  | write (path : Path) (cause : String)
  deriving DecidableEq

namespace ConfigError

/-- What is said of a failure first. -/
def message : ConfigError → String
  | read path _ => s!"Failed to read config: {path.text}"
  | parse path => s!"Failed to parse config: {path.text}"
  | makeDirectory path _ => s!"Failed to create config directory: {path.text}"
  | serialize => "Failed to serialize config"
  | write path _ => s!"Failed to write config: {path.text}"

/-- What is said of the reason for a failure. -/
def reasons : ConfigError → List String
  | read _ cause | makeDirectory _ cause => [cause.message]
  | write _ cause => [cause]
  | parse _ => ["no settings file"]
  | serialize => ["out-of-range value for u64 type"]

end ConfigError

/-! ## 4. Loading and saving -/

namespace Config

/-- Reads the configuration at a path. -/
def load (t : Tree) (path : Path) : Except ConfigError Config :=
  if t.occupied path.names then
    match t.readBytes path.names with
    | .error cause => .error (.read path cause)
    | .ok bytes =>
      match Utf8.decode? bytes with
      | none => .error (.read path .notText)
      | some text =>
        match parse? text with
        | none => .error (.parse path)
        | some c => .ok c
  else .ok {}

/-- Makes the directory above a path that is read from a working directory. -/
def makeParent (t : Tree) (cwd : List String) (path : Path) : Except ConfigError Tree :=
  match path.parent? cwd with
  | none => .ok t
  | some parent =>
    match t.makeDirs parent.names with
    | .ok t => .ok t
    | .error cause => .error (.makeDirectory parent cause)

/-- Writes the configuration to a path, on a disk that may fail.  The directory stays when the
file could not be written, and so does what the disk took of it. -/
def saveOn (c : Config) (fault : Option WriteFault) (t : Tree) (cwd : List String)
    (path : Path) : Tree × Except ConfigError Unit :=
  match makeParent t cwd path with
  | .error e => (t, .error e)
  | .ok t =>
    match c.text? with
    | none => (t, .error .serialize)
    | some text =>
      let (bytes, failure) := WriteFault.taken fault (Utf8.encode text)
      match t.write path.names bytes with
      | .error cause => (t, .error (.write path cause.message))
      | .ok t =>
        match failure with
        | none => (t, .ok ())
        | some cause => (t, .error (.write path cause))

/-- Writes the configuration to a path, on a disk that does not fail. -/
def save (c : Config) (t : Tree) (cwd : List String) (path : Path) :
    Tree × Except ConfigError Unit :=
  c.saveOn none t cwd path

end Config

end IrrigationLog
