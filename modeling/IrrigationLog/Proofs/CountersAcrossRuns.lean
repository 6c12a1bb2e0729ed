/-
# Counters survive from one program run to the next

Every watering run is recorded by a program of its own, which loads the configuration, counts
the water and saves the configuration with the new counters.  Between two of them nothing is
kept but the file.  As long as every program could save it, the counters in the file are those of
one book that had counted all the water, and no other setting has changed
(`Config.load_afterAll`).

Nothing is assumed of the log tree.  A program may find it missing, blocked or damaged, so that
it cannot be set up or the line of the run cannot be written, or the disk may fail within the
line: the water is counted all the same, and counted once.  Other programs may do with the tree
what they like between two turns, if they leave the configuration alone.  A configuration that is
not there stands for the defaults, and a size that the file cannot hold shows in the first failure
to save.

* **One turn** counts one use of water (`WateringProcess.load_watered`): the program works with
  what it loaded, at the time that it was given.
* **All turns** are counted one after the other, by induction on the turns.
-/
import IrrigationLog.Proofs.FailedCommand
import IrrigationLog.Proofs.GivenTime
import IrrigationLog.Proofs.SavedSettings
import IrrigationLog.Proofs.WaterTotals

namespace IrrigationLog

/-! ## 1. Processes -/

/-- A program that is called, without the tree that it finds. -/
structure Process where
  cwd : List String
  env : Environment
  home : String
  clock : Clock
  /-- How the disk fails, if it does. -/
  faults : Faults := {}
  /-- The words after the name of the program. -/
  words : List String

/-- The machine on which a program runs that finds a tree. -/
def Process.machine (p : Process) (t : Tree) : Machine :=
  ⟨t, p.cwd, p.env, p.home, p.clock, p.faults⟩

/-- A command that is no request for completions is carried out with the configuration that is
loaded. -/
theorem Machine.perform_of_load {m : Machine} {g : Globals} {command : Command} {c : Config}
    (hcommand : ∀ shell, command ≠ .completions shell)
    (hload : Config.load m.tree (m.configPath g) = .ok c) :
    m.perform ⟨g, command⟩ = command.run (m.surroundings g c) m.tree := by
  unfold perform
  dsimp only
  split
  · rename_i shell
    exact absurd rfl (hcommand shell)
  · rw [hload]

/-- What a program leaves that carries such a command out. -/
theorem Machine.invoke_of_load {m : Machine} {words : List String} {g : Globals}
    {command : Command} {c : Config} (hread : Invocation.read m.env words = .ok ⟨g, command⟩)
    (hcommand : ∀ shell, command ≠ .completions shell)
    (hload : Config.load m.tree (m.configPath g) = .ok c) :
    m.invoke words =
      ((command.run (m.surroundings g c) m.tree).1,
        reply (command.run (m.surroundings g c) m.tree).2) := by
  rw [invoke, hread, ← perform_of_load hcommand hload]

/-- A call of the program that records a watering run at a given time. -/
structure WateringProcess extends Process where
  globals : Globals
  run : GivenRun
  now : DateTime
  read_words : Invocation.read env words = .ok ⟨globals, .watering run⟩
  now_given : globals.now = some now

namespace WateringProcess

/-- The tree that a process leaves. -/
def after (p : WateringProcess) (t : Tree) : Tree := ((p.machine t).invoke p.words).1

/-- Where the configuration is. -/
def configPath (p : WateringProcess) (t : Tree) : Path := (p.machine t).configPath p.globals

/-- Whether the configuration could be saved: no failure to save it is reported. -/
def saves (p : WateringProcess) (t : Tree) : Bool :=
  match ((p.machine t).perform ⟨p.globals, .watering p.run⟩).2 with
  | .error (.config e) => e.isOfLoad
  | _ => true

/-- The water that a process counts, at the flow rates of a station. -/
def use (p : WateringProcess) (s : Station) : WaterUse :=
  ⟨p.now, p.run.duration, s.flowRate p.run.zone⟩

end WateringProcess

/-! ## 2. One turn -/

/-- The configuration with other counters. -/
def Config.withCounters (c : Config) (w : WaterCounter) : Config :=
  { c with
    station :=
      { c.station with
        weekdayCounters := w.weekday
        lifetime := w.lifetime
        counterDate := w.updatedAt } }

/-- Counters with a time of their last fold are stored as they are. -/
theorem Config.withCounters_of_store {c : Config} {w : WaterCounter}
    (h : WaterCounter.ofStation (w.store c.station) = w) :
    { c with station := w.store c.station } = c.withCounters w := by
  have hdate : w.updatedAt.or c.station.counterDate = w.updatedAt :=
    congrArg WaterCounter.updatedAt h
  simp only [withCounters, WaterCounter.store, hdate]

/-- Setting the log tree up changes neither the settings nor the clock. -/
theorem Surroundings.readyBook_eq (s : Surroundings) (t : Tree) :
    (s.readyBook t).station = s.config.station ∧ (s.readyBook t).clock = s.clock := by
  unfold readyBook LogBook.setUp
  split <;> exact ⟨rfl, rfl⟩

/-- The configuration that is saved after a run has the water of the run in its counters. -/
theorem Surroundings.counted_eq (s : Surroundings) (t : Tree) (r : GivenRun) :
    s.counted t r = s.config.withCounters ((WaterCounter.ofStation s.config.station).use
      ⟨s.clock.now, r.duration, s.config.station.flowRate r.zone⟩).1 := by
  obtain ⟨hstation, hclock⟩ := s.readyBook_eq t
  have hstored := LogBook.ofStation_store_apply (.ofStation s.config.station) s.clock.now
    (WaterCounter.contribution r.duration (s.config.station.flowRate r.zone)) s.config.station rfl
  rw [counted, LogBook.countWater, LogBook.counters, LogBook.now, hstation, hclock]
  exact Config.withCounters_of_store hstored

/-- **A watering run saves its counters**, whatever becomes of its line, unless it reports that
they could not be saved. -/
theorem Surroundings.load_recordWatering (s : Surroundings) (t : Tree) (r : GivenRun) {path : Path}
    (hpath : path.names = s.configPath.names) :
    (∃ e, (s.recordWatering t r).2 = .error (.config e) ∧ e.isOfLoad = false) ∨
      Config.load (s.recordWatering t r).1 path = .ok (s.counted t r) := by
  rw [recordWatering_eq]
  dsimp only
  rcases (s.counted t r).saveOn_cases s.faults.config
    ((s.readyBook t).recordWatering (s.givenRun t r)).1.tree s.cwd s.configPath with
    ⟨u, heq, -⟩ | ⟨u, e, heq, hsaving, -⟩
  · refine Or.inr ?_
    rw [heq]
    exact Config.load_of_saveOn heq hpath
  · rw [heq]
    exact Or.inl ⟨e, rfl, hsaving⟩

namespace WateringProcess

variable {p : WateringProcess} {t : Tree} {c : Config}

/-- What a process works with, once it has loaded a configuration. -/
def surroundings (p : WateringProcess) (t : Tree) (c : Config) : Surroundings :=
  (p.machine t).surroundings p.globals c

/-- The clock of a process shows the time that it was given. -/
theorem now_surroundings (p : WateringProcess) (t : Tree) (c : Config) :
    (p.surroundings t c).clock.now = p.now := by
  have hset : (p.surroundings t c).clock = .setTo p.now := by
    rw [surroundings, Machine.surroundings, p.now_given]
    rfl
  rw [hset, Clock.now_setTo (Invocation.read_onSecond p.read_words p.now p.now_given)]

theorem perform_eq (hload : Config.load t (p.configPath t) = .ok c) :
    (p.machine t).perform ⟨p.globals, .watering p.run⟩ =
      (p.surroundings t c).recordWatering t p.run := by
  rw [Machine.perform_of_load (m := p.machine t) (fun _ => by simp) hload]
  rfl

theorem after_eq (hload : Config.load t (p.configPath t) = .ok c) :
    p.after t = ((p.surroundings t c).recordWatering t p.run).1 := by
  rw [after, Machine.invoke_of_load (m := p.machine t) p.read_words (fun _ => by simp) hload]
  rfl

/-- **One process counts its water once**, whatever the log tree is like. -/
theorem load_watered {path : Path} (hload : Config.load t path = .ok c)
    (hpath : (p.configPath t).names = path.names) (hsaves : p.saves t) :
    Config.load (p.after t) path =
      .ok (c.withCounters ((WaterCounter.ofStation c.station).use (p.use c.station)).1) := by
  have hfound : Config.load t (p.configPath t) = .ok c :=
    Config.load_congr (congrArg t.node? hpath) hload
  have hcounted : (p.surroundings t c).counted t p.run =
      c.withCounters ((WaterCounter.ofStation c.station).use (p.use c.station)).1 := by
    rw [Surroundings.counted_eq, now_surroundings]
    rfl
  rw [after_eq hfound, ← hcounted]
  rcases (p.surroundings t c).load_recordWatering t p.run hpath.symm with ⟨e, he, hsaving⟩ | hsaved
  · rw [saves, perform_eq hfound, he] at hsaves
    have hloading : e.isOfLoad = true := hsaves
    rw [hsaving] at hloading
    cases hloading
  · exact hsaved

end WateringProcess

/-! ## 3. All turns -/

/-- What happens to a tree. -/
inductive Turn where
  /-- A watering run is recorded. -/
  | watering (p : WateringProcess)
  /-- Other programs have changed the tree. -/
  | others (tree : Tree)

namespace Turn

/-- The tree after a turn. -/
def after (t : Tree) : Turn → Tree
  | watering p => p.after t
  | others tree => tree

/-- Whether a turn saves the counters at a path, or leaves what stands there alone. -/
def Keeps (path : Path) (t : Tree) : Turn → Prop
  | watering p => (p.configPath t).names = path.names ∧ p.saves t
  | others tree => tree.node? path.names = t.node? path.names

/-- The water that is counted in a turn, at the flow rates of a station. -/
def use? (s : Station) : Turn → Option WaterUse
  | watering p => some (p.use s)
  | others _ => none

/-- The tree after some turns. -/
def afterAll (t : Tree) (turns : List Turn) : Tree := turns.foldl after t

/-- Turns that each keep the configuration. -/
def KeepAll (path : Path) : Tree → List Turn → Prop
  | _, [] => True
  | t, turn :: turns => turn.Keeps path t ∧ KeepAll path (turn.after t) turns

end Turn

/-- **Counters survive from one program run to the next.** -/
theorem Config.load_afterAll {t : Tree} {path : Path} {c : Config} {turns : List Turn}
    (hload : load t path = .ok c) (hkeep : Turn.KeepAll path t turns) :
    load (Turn.afterAll t turns) path =
      .ok (c.withCounters ((WaterCounter.ofStation c.station).useAll
        (turns.filterMap (Turn.use? c.station)))) := by
  induction turns generalizing t c with
  | nil => exact hload
  | cons turn turns ih =>
    obtain ⟨hturn, hrest⟩ := hkeep
    cases turn with
    | others tree => exact ih (load_congr hturn hload) hrest
    | watering p => exact ih (p.load_watered hload hturn.1 hturn.2) hrest

/-- A configuration with one zone. -/
def oneZone : Config := { root := some "/log", station := .uniform 1 600 }

/-- Half an hour of water on a Sunday. -/
def sundayRun : WateringProcess where
  cwd := []
  env := [("IRRIGO_CONFIG", "/etc/irrigo.toml")]
  home := "/"
  clock := ⟨0⟩
  words := ["--now", "2024-06-02 06:00", "watering", "--zone", "1", "--duration", "30"]
  globals := { config := some "/etc/irrigo.toml", now := DateTime.ofParts? 2024 6 2 6 0 0 0 }
  run := ⟨1, 30, none, 0, 100, 100⟩
  now := (DateTime.ofParts? 2024 6 2 6 0 0 0).getD .epoch
  read_words := by decide +kernel
  now_given := by decide +kernel

/-- Ten minutes a week later. -/
def nextSundayRun : WateringProcess where
  cwd := ["etc"]
  env := [("IRRIGO_CONFIG", "irrigo.toml")]
  home := "/"
  clock := ⟨0⟩
  words := ["watering", "-z", "1", "-d", "10", "--now", "2024-06-09T18:30:15"]
  globals := { config := some "irrigo.toml", now := DateTime.ofParts? 2024 6 9 18 30 15 0 }
  run := ⟨1, 10, none, 0, 100, 100⟩
  now := (DateTime.ofParts? 2024 6 9 18 30 15 0).getD .epoch
  read_words := by decide +kernel
  now_given := by decide +kernel

/-- A tree with a settings file and something at the place of the log tree, if anything. -/
def settled (c : Config) (log : List (String × Tree)) : Tree :=
  .dir (("etc", .dir [("irrigo.toml", .file (Utf8.encode c.document.text))]) :: log)

/-- The configuration after the first run. -/
def afterSunday : Config :=
  oneZone.withCounters ⟨#v[300, 0, 0, 0, 0, 0, 0], 0, some sundayRun.now⟩

/-- Two runs; between them somebody has put a file in the place of the log tree. -/
def twoSundays : List Turn :=
  [.watering sundayRun, .others (settled afterSunday [("log", .file [])]), .watering nextSundayRun]

/-- The water of the first Sunday is folded into the lifetime counter, and that of the second is
in the counter of its weekday, though its line could not be written. -/
theorem Config.load_afterAll_of_twoSundays :
    load (settled oneZone []) ⟨"/etc/irrigo.toml", ["etc", "irrigo.toml"]⟩ = .ok oneZone ∧
    Turn.KeepAll ⟨"/etc/irrigo.toml", ["etc", "irrigo.toml"]⟩ (settled oneZone []) twoSundays ∧
    load (Turn.afterAll (settled oneZone []) twoSundays)
        ⟨"/etc/irrigo.toml", ["etc", "irrigo.toml"]⟩ =
      .ok (oneZone.withCounters ⟨#v[100, 0, 0, 0, 0, 0, 0], 3, some nextSundayRun.now⟩) := by
  have htext : oneZone.text? = some oneZone.document.text := by decide +kernel
  have htext' : afterSunday.text? = some afterSunday.document.text := by decide +kernel
  have hload (path : Path) (hpath : path.names = ["etc", "irrigo.toml"]) :
      load (settled oneZone []) path = .ok oneZone :=
    load_of_text (by rw [hpath]; rfl) htext
  have hload' (path : Path) (hpath : path.names = ["etc", "irrigo.toml"]) :
      load (settled afterSunday [("log", .file [])]) path = .ok afterSunday :=
    load_of_text (by rw [hpath]; rfl) htext'
  have hkeep : Turn.KeepAll ⟨"/etc/irrigo.toml", ["etc", "irrigo.toml"]⟩ (settled oneZone [])
      twoSundays := by
    refine ⟨⟨?_, ?_⟩, ?_, ⟨?_, ?_⟩, trivial⟩
    · decide +kernel
    · rw [WateringProcess.saves, WateringProcess.perform_eq (hload _ (by decide +kernel))]
      decide +kernel
    · rw [Turn.Keeps, Turn.after, WateringProcess.after_eq (hload _ (by decide +kernel))]
      decide +kernel
    · decide +kernel
    · change nextSundayRun.saves (settled afterSunday [("log", .file [])]) = true
      rw [WateringProcess.saves, WateringProcess.perform_eq (hload' _ (by decide +kernel))]
      decide +kernel
  have hcounters : (WaterCounter.ofStation oneZone.station).useAll
      (twoSundays.filterMap (Turn.use? oneZone.station)) =
        ⟨#v[100, 0, 0, 0, 0, 0, 0], 3, some nextSundayRun.now⟩ := by
    decide +kernel
  refine ⟨hload _ rfl, hkeep, ?_⟩
  rw [load_afterAll (hload _ rfl) hkeep, hcounters]

end IrrigationLog
