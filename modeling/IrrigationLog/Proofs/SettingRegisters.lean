/-
# Settings are registers

A setting is changed by a program of its own, which loads the configuration, changes the number
of zones or the flow rate of one zone, and writes the whole file anew.  As long as these programs
succeed, the number of zones and the flow rate of each zone are registers: each has what was set
last, or what it had at the start, whatever was done to the others in between.  Everything else
in the file is as it was (`Config.last_setting_holds`).

* **A register** has what was written to it last (`get_foldl_eq_last_write`).
* **The flow rates** are a list that grows up to the zone that is set.  What it grows by is what a
  zone without a rate has anyway (`Station.flowRate_setFlowRate`).
* **No zone 0.** A station has none to set, and a command line gives none
  (`Invocation.read_inRange`): the one bound on numbers that the argument needs is one that is
  checked.
* **One program** leaves the configuration with its change (`SettingProcess.load_after`), and all
  of them all changes, by induction.
-/
import Mathlib.Data.List.GetD
import IrrigationLog.Proofs.CountersAcrossRuns
import IrrigationLog.Proofs.GivenZones

namespace IrrigationLog

/-! ## 1. Registers -/

/-- **A register has what was written to it last**, if each step writes it or leaves it alone. -/
theorem get_foldl_eq_last_write {σ α β : Type} {step : σ → α → σ} (get : σ → β)
    (write? : α → Option β) {as : List α}
    (h : ∀ s, ∀ a ∈ as, get (step s a) = (write? a).getD (get s)) (s : σ) :
    get (as.foldl step s) = (as.filterMap write?).getLast?.getD (get s) := by
  induction as generalizing s with
  | nil => rfl
  | cons a as ih =>
    have hstep := h s a List.mem_cons_self
    have hrest := ih (fun s b hb => h s b (List.mem_cons_of_mem _ hb)) (step s a)
    rw [List.foldl_cons, hrest, hstep]
    cases hwrite : write? a with
    | none => rw [List.filterMap_cons_none hwrite, Option.getD_none]
    | some b =>
      rw [List.filterMap_cons_some hwrite, List.getLast?_cons, Option.getD_some, Option.getD_some]

/-! ## 2. Flow rates -/

/-- What a list reads as where it has nothing may as well stand there. -/
theorem getD_append_replicate {α : Type} (as : List α) (n i : Nat) (a : α) :
    (as ++ List.replicate n a).getD i a = as.getD i a := by
  rcases Nat.lt_or_ge i as.length with hi | hi
  · exact List.getD_append as _ a i hi
  · have hpadding : (List.replicate n a).getD (i - as.length) a = a :=
      List.getElem?_getD_replicate_default_eq a n _
    rw [List.getD_append_right as _ a i hi, hpadding, List.getD_eq_default as a hi]

/-- **Setting the flow rate of a zone** changes that of no other one, also where the list of the
rates grows. -/
theorem Station.flowRate_setFlowRate (s : Station) {zone : UInt8} (hzone : zone ≠ 0)
    (rate : UInt16) (z : UInt8) :
    (s.setFlowRate zone rate).flowRate z = if zone = z then rate else s.flowRate z := by
  by_cases hz : z = 0
  · subst hz
    rw [flowRate, if_pos rfl, if_neg hzone, flowRate, if_pos rfl]
  · have hpos : zone.toNat ≠ 0 := fun h => hzone (UInt8.toNat_inj.mp h)
    have hpos' : z.toNat ≠ 0 := fun h => hz (UInt8.toNat_inj.mp h)
    have hlength : zone.toNat - 1 <
        (s.flowRates ++ List.replicate (zone.toNat - s.flowRates.length) 0).length := by
      rw [List.length_append, List.length_replicate]
      omega
    rw [flowRate, flowRate, if_neg hz, if_neg hz, setFlowRate]
    dsimp only
    rw [List.getD_eq_getElem?_getD, List.getElem?_set]
    by_cases heq : zone = z
    · subst heq
      rw [if_pos rfl, if_pos rfl, if_pos hlength, Option.getD_some]
    · have hplace : zone.toNat - 1 ≠ z.toNat - 1 := by
        have hne : zone.toNat ≠ z.toNat := fun h => heq (UInt8.toNat_inj.mp h)
        omega
      rw [if_neg hplace, if_neg heq, ← List.getD_eq_getElem?_getD, getD_append_replicate]

/-! ## 3. Actions -/

namespace ConfigAction

/-- The configuration with the change that an action asks for. -/
def apply (c : Config) : ConfigAction → Config
  | zones count => { c with station := { c.station with zones := count } }
  | flow zone rate => { c with station := c.station.setFlowRate zone rate }
  | show_ | path => c

/-- The number of zones that is set, if it is. -/
def zones? : ConfigAction → Option UInt8
  | zones count => some count
  | _ => none

/-- The rate that is set for a zone, if it is. -/
def rate? (z : UInt8) : ConfigAction → Option UInt16
  | flow zone rate => if zone = z then some rate else none
  | _ => none

variable {a : ConfigAction}

theorem zones_apply (a : ConfigAction) (c : Config) :
    (a.apply c).station.zones = a.zones?.getD c.station.zones := by
  cases a <;> rfl

theorem flowRate_apply (ha : a.InRange) (c : Config) (z : UInt8) :
    (a.apply c).station.flowRate z = (a.rate? z).getD (c.station.flowRate z) := by
  cases a with
  | flow zone rate =>
    have hzone : zone ≠ 0 := by
      rintro rfl
      exact absurd ha.1 (by decide)
    have hset := c.station.flowRate_setFlowRate hzone rate z
    rw [apply, hset, rate?]
    split <;> rfl
  | zones count => rfl
  | show_ => rfl
  | path => rfl

/-- The number of zones is a register. -/
theorem zones_foldl_apply (as : List ConfigAction) (c : Config) :
    (as.foldl apply c).station.zones =
      (as.filterMap zones?).getLast?.getD c.station.zones :=
  get_foldl_eq_last_write (fun c : Config => c.station.zones) zones?
    (fun c a _ => zones_apply a c) c

/-- The flow rate of each zone is a register. -/
theorem flowRate_foldl_apply {as : List ConfigAction} (has : ∀ a ∈ as, a.InRange) (c : Config)
    (z : UInt8) :
    (as.foldl apply c).station.flowRate z =
      (as.filterMap (rate? z)).getLast?.getD (c.station.flowRate z) :=
  get_foldl_eq_last_write (fun c : Config => c.station.flowRate z) (rate? z)
    (fun c a ha => flowRate_apply (has a ha) c z) c

/-- **Actions change nothing but the number of zones and the flow rates.** -/
theorem foldl_apply_eq (as : List ConfigAction) (c : Config) :
    as.foldl apply c = { c with
      station := { c.station with
        zones := (as.foldl apply c).station.zones
        flowRates := (as.foldl apply c).station.flowRates } } := by
  induction as generalizing c with
  | nil => rfl
  | cons a as ih => cases a <;> exact ih _

end ConfigAction

/-! ## 4. One program -/

/-- A call of the program that is about the configuration. -/
structure SettingProcess extends Process where
  globals : Globals
  action : ConfigAction
  read_words : Invocation.read env words = .ok ⟨globals, .config action⟩

namespace Surroundings

variable {s : Surroundings} {t : Tree} {c : Config} {path : Path} {shown shown' : Shown}

/-- What was saved is loaded. -/
theorem load_save (hpath : path.names = s.configPath.names)
    (h : (s.save t c shown).2 = .ok shown') : Config.load (s.save t c shown).1 path = .ok c := by
  unfold save at h ⊢
  rcases hsaved : c.saveOn s.faults.config t s.cwd s.configPath with ⟨u, e | _⟩
  · rw [hsaved] at h
    cases h
  · exact Config.load_of_saveOn hsaved hpath

/-- **An action that succeeds** leaves the configuration with its change. -/
theorem load_configure {action : ConfigAction} (hload : Config.load t path = .ok s.config)
    (hpath : path.names = s.configPath.names) (h : (s.configure t action).2 = .ok shown) :
    Config.load (s.configure t action).1 path = .ok (action.apply s.config) := by
  cases action with
  | zones count => exact load_save hpath h
  | flow zone rate => exact load_save hpath h
  | path => exact hload
  | show_ =>
    unfold configure
    cases s.config.text? <;> exact hload

end Surroundings

namespace SettingProcess

variable {p : SettingProcess} {t : Tree} {c : Config} {path : Path}

/-- The tree that a process leaves. -/
def after (p : SettingProcess) (t : Tree) : Tree := ((p.machine t).invoke p.words).1

/-- Whether a process ends with success. -/
def Succeeds (p : SettingProcess) (t : Tree) : Prop := ((p.machine t).invoke p.words).2.code = 0

/-- Where the configuration is. -/
def configPath (p : SettingProcess) (t : Tree) : Path := (p.machine t).configPath p.globals

/-- What a process works with, once it has loaded a configuration. -/
def surroundings (p : SettingProcess) (t : Tree) (c : Config) : Surroundings :=
  (p.machine t).surroundings p.globals c

/-- The zones that a process names are zones that can be configured. -/
theorem action_inRange (p : SettingProcess) : p.action.InRange :=
  Invocation.read_inRange p.read_words p.action rfl

theorem invoke_eq (hload : Config.load t path = .ok c)
    (hpath : (p.configPath t).names = path.names) :
    (p.machine t).invoke p.words =
      (((p.surroundings t c).configure t p.action).1,
        Machine.reply ((p.surroundings t c).configure t p.action).2) := by
  have hfound : Config.load t (p.configPath t) = .ok c :=
    Config.load_congr (congrArg t.node? hpath) hload
  rw [Machine.invoke_of_load (m := p.machine t) p.read_words (fun _ => by simp) hfound]
  rfl

theorem after_eq (hload : Config.load t path = .ok c)
    (hpath : (p.configPath t).names = path.names) :
    p.after t = ((p.surroundings t c).configure t p.action).1 := by
  rw [after, invoke_eq hload hpath]

theorem succeeds_iff (hload : Config.load t path = .ok c)
    (hpath : (p.configPath t).names = path.names) :
    p.Succeeds t ↔ (Machine.reply ((p.surroundings t c).configure t p.action).2).code = 0 := by
  rw [Succeeds, invoke_eq hload hpath]

/-- **One process changes what it is told to**, and nothing else. -/
theorem load_after (hload : Config.load t path = .ok c)
    (hpath : (p.configPath t).names = path.names) (hok : p.Succeeds t) :
    Config.load (p.after t) path = .ok (p.action.apply c) := by
  rw [succeeds_iff hload hpath] at hok
  rw [after_eq hload hpath]
  cases hresult : ((p.surroundings t c).configure t p.action).2 with
  | error e =>
    rw [hresult] at hok
    cases hok
  | ok shown => exact (p.surroundings t c).load_configure hload hpath.symm hresult

/-! ## 5. All programs -/

/-- The tree after some processes. -/
def afterAll (t : Tree) (ps : List SettingProcess) : Tree := ps.foldl (fun t p => p.after t) t

/-- Processes that each succeed with the configuration at a path. -/
def SucceedAll (path : Path) : Tree → List SettingProcess → Prop
  | _, [] => True
  | t, p :: ps =>
    ((p.configPath t).names = path.names ∧ p.Succeeds t) ∧ SucceedAll path (p.after t) ps

/-- **All processes together** leave the configuration with all their changes. -/
theorem load_after_processes {ps : List SettingProcess}
    (hload : Config.load t path = .ok c) (hall : SucceedAll path t ps) :
    Config.load (afterAll t ps) path = .ok ((ps.map action).foldl ConfigAction.apply c) := by
  induction ps generalizing t c with
  | nil => exact hload
  | cons p ps ih =>
    obtain ⟨⟨hpath, hok⟩, hrest⟩ := hall
    exact ih (load_after hload hpath hok) hrest

end SettingProcess

/-- **Settings are registers.**  After any calls of the program that are about the configuration,
each of which succeeds, the number of zones is the one that was set last, and the flow rate of
every zone the one that was set for it last; what was never set is what it was at the start.  All
other settings, and the counters, are as they were. -/
theorem Config.last_setting_holds {t : Tree} {path : Path} {c : Config}
    {ps : List SettingProcess} (hload : load t path = .ok c)
    (hall : SettingProcess.SucceedAll path t ps) :
    let actions := ps.map SettingProcess.action
    ∃ d, load (SettingProcess.afterAll t ps) path = .ok d ∧
      d.station.zones = (actions.filterMap ConfigAction.zones?).getLast?.getD c.station.zones ∧
      (∀ z, d.station.flowRate z =
        (actions.filterMap (ConfigAction.rate? z)).getLast?.getD (c.station.flowRate z)) ∧
      d = { c with
        station := { c.station with
          zones := d.station.zones
          flowRates := d.station.flowRates } } := by
  intro actions
  have hranged : ∀ a ∈ actions, a.InRange := by
    intro a ha
    obtain ⟨p, -, rfl⟩ := List.mem_map.mp ha
    exact p.action_inRange
  exact ⟨_, SettingProcess.load_after_processes hload hall,
    ConfigAction.zones_foldl_apply actions c,
    ConfigAction.flowRate_foldl_apply hranged c, ConfigAction.foldl_apply_eq actions c⟩

/-- A configuration with water counted and the rate of one zone. -/
def oneRate : Config where
  root := some "/log"
  station :=
    { flowRates := [600], weekdayCounters := #v[0, 0, 0, 450, 0, 0, 0], lifetime := 7,
      counterDate := DateTime.ofParts? 2024 5 8 6 0 0 0 }

/-- Sets the rate of the third zone, which has none yet. -/
def thirdZone : SettingProcess where
  cwd := []
  env := [("IRRIGO_CONFIG", "/etc/irrigo.toml")]
  home := "/"
  clock := ⟨0⟩
  words := ["config", "flow", "3", "120"]
  globals := { config := some "/etc/irrigo.toml" }
  action := .flow 3 120
  read_words := by decide +kernel

/-- Sets the number of zones, in another directory. -/
def fourZones : SettingProcess where
  cwd := ["etc"]
  env := []
  home := "/"
  clock := ⟨0⟩
  words := ["--config", "irrigo.toml", "config", "zones", "4"]
  globals := { config := some "irrigo.toml" }
  action := .zones 4
  read_words := by decide +kernel

/-- Sets the rate of the third zone once more. -/
def thirdZoneAgain : SettingProcess where
  cwd := ["log"]
  env := [("IRRIGO_CONFIG", "../etc/irrigo.toml")]
  home := "/"
  clock := ⟨0⟩
  words := ["config", "flow", "3", "99", "-q"]
  globals := { config := some "../etc/irrigo.toml", quiet := true }
  action := .flow 3 99
  read_words := by decide +kernel

/-- Where these programs find the settings file. -/
def settingsFile : Path := ⟨"/etc/irrigo.toml", ["etc", "irrigo.toml"]⟩

/-- The third zone has the later of its two rates, the second one still has none, and the first
one has kept its own. -/
theorem Config.last_setting_holds_of_thirdZone :
    load (settled oneRate []) settingsFile = .ok oneRate ∧
    SettingProcess.SucceedAll settingsFile (settled oneRate [])
      [thirdZone, fourZones, thirdZoneAgain] ∧
    ∃ d, load (SettingProcess.afterAll (settled oneRate [])
        [thirdZone, fourZones, thirdZoneAgain]) settingsFile = .ok d ∧
      d.station.zones = 4 ∧ d.station.flowRate 3 = 99 ∧ d.station.flowRate 2 = 0 ∧
      d.station.flowRate 1 = 600 ∧
      d.station.weekdayCounters = oneRate.station.weekdayCounters := by
  have hload : load (settled oneRate []) settingsFile = .ok oneRate :=
    load_of_text rfl (by decide +kernel : oneRate.text? = some oneRate.document.text)
  have hthird : thirdZone.Succeeds (settled oneRate []) := by
    rw [SettingProcess.succeeds_iff hload (by decide +kernel)]
    decide +kernel
  have hload' := SettingProcess.load_after hload (by decide +kernel) hthird
  have hfour : fourZones.Succeeds (thirdZone.after (settled oneRate [])) := by
    rw [SettingProcess.succeeds_iff hload' (by decide +kernel),
      SettingProcess.after_eq hload (by decide +kernel)]
    decide +kernel
  have hload'' := SettingProcess.load_after hload' (by decide +kernel) hfour
  have hagain :
      thirdZoneAgain.Succeeds (fourZones.after (thirdZone.after (settled oneRate []))) := by
    rw [SettingProcess.succeeds_iff hload'' (by decide +kernel),
      SettingProcess.after_eq hload' (by decide +kernel),
      SettingProcess.after_eq hload (by decide +kernel)]
    decide +kernel
  have hall : SettingProcess.SucceedAll settingsFile (settled oneRate [])
      [thirdZone, fourZones, thirdZoneAgain] :=
    ⟨⟨by decide +kernel, hthird⟩, ⟨by decide +kernel, hfour⟩, ⟨by decide +kernel, hagain⟩, trivial⟩
  obtain ⟨d, hd, hzones, hrates, hrest⟩ := last_setting_holds hload hall
  have hweekday := congrArg (fun d : Config => d.station.weekdayCounters) hrest
  exact ⟨hload, hall, d, hd, hzones, hrates 3, hrates 2, hrates 1, hweekday⟩

end IrrigationLog
