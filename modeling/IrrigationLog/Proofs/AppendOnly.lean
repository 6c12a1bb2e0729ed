/-
# The log tree only grows

What stands in a log tree is never taken away and never rewritten, and an operation that fails
leaves the tree as it found it.

* Setting up adds directories, whether or not it comes to its end (`addsDirs_setUp`).
* A recording that succeeds extends one file by one line (`grows_of_ok`), and one that fails
  changes nothing (`tree_of_error`): the partition is opened or created before anything is
  written to it, and on a sound disk nothing fails after that.
* The settings of the station are no part of this.  Only a watering run touches them, and it
  counts its water before its line is tried (`station_watering`).

`LogBook.step_append_only` is **the whole of it, for every operation on every tree**.
-/
import IrrigationLog.Proofs.Calls

namespace IrrigationLog

/-- Whether an operation is one that records something. -/
def Operation.records : Operation → Bool
  | .watering _ | .sensor .. | .reading .. | .event .. => true
  | _ => false

namespace LogBook

variable {b : LogBook} {op : Operation}

/-! ## 1. The tree -/

/-- Setting up only adds directories. -/
theorem addsDirs_setUp (b : LogBook) : b.tree.AddsDirs (b.step .setUp).1.tree :=
  .of_along b.node?_setUp

/-- What is to be recorded has an entry, unless it comes under a code that no sensor has. -/
theorem exists_entry_of_records (hop : op.records = true)
    (hcode : ∀ code id value, op = .sensor code id value → ∃ kind, Sensor.ofCode code = .ok kind) :
    ∃ e, op.entryOf? b = some e := by
  cases op with
  | sensor code id value =>
    obtain ⟨kind, hkind⟩ := hcode code id value rfl
    rw [entryOf?_sensor_of_ok hkind]
    exact ⟨_, rfl⟩
  | watering | reading | event => exact ⟨_, rfl⟩
  | setUp | close | setClock | advanceClock | setLimits | replaceStation | query => cases hop

/-- A recording that succeeds has an entry: a code that no sensor has is refused. -/
theorem exists_entry_of_ok (hop : op.records = true) (hok : (b.step op).2.result = .ok ()) :
    ∃ e, op.entryOf? b = some e := by
  refine exists_entry_of_records hop fun code id value heq => ?_
  subst heq
  cases hcode : Sensor.ofCode code with
  | ok kind => exact ⟨kind, rfl⟩
  | error e =>
    rw [step_sensor_of_error hcode] at hok
    cases hok

/-- **A recording that succeeds extends one file by one line.** -/
theorem grows_of_ok (hop : op.records = true)
    (hok : (b.step op).2.result = .ok ()) :
    ∃ e, op.entryOf? b = some e ∧ e.line ≠ [] ∧
      b.tree.Grows (b.step op).1.tree (e.partition.path b.root).names
        (Utf8.encode e.partition.header) (Utf8.encode e.line) := by
  obtain ⟨e, he⟩ := exists_entry_of_ok hop hok
  refine ⟨e, he, e.line_ne_nil, grows_of_recorded ?_⟩
  simp only [Call.recorded?, hok, he]

/-- **A recording that fails changes nothing in the tree.** -/
theorem tree_of_error (h : b.fault = none) (hop : op.records = true) {e : StoreError}
    (herr : (b.step op).2.result = .error e) : (b.step op).1.tree = b.tree := by
  cases he : op.entryOf? b with
  | none =>
    refine step_of_no_entry he ?_
    rintro rfl
    cases hop
  | some entry =>
    refine tree_of_not_recorded h he ?_
    simp only [Call.recorded?, herr]

/-- What records nothing and does not set the book up leaves the tree alone. -/
theorem tree_of_not_records (hset : op ≠ .setUp) (hop : op.records = false) :
    (b.step op).1.tree = b.tree := by
  refine step_of_no_entry ?_ hset
  cases op with
  | watering | sensor | reading | event => cases hop
  | setUp | close | setClock | advanceClock | setLimits | replaceStation | query => rfl

/-! ## 2. The settings -/

/-- Adding a line leaves the settings alone. -/
theorem station_append (b : LogBook) (p : Partition) (line : List Char) :
    (b.append p line).1.station = b.station := by
  rw [append_fst]

/-- Readings and events leave the settings alone. -/
theorem station_of_records (hop : op.records = true) (hw : ∀ r, op ≠ .watering r) :
    (b.step op).1.station = b.station := by
  cases op with
  | watering r => exact absurd rfl (hw r)
  | sensor code id value =>
    cases hcode : Sensor.ofCode code with
    | ok kind =>
      rw [step_sensor_of_ok hcode]
      exact b.station_append _ _
    | error e => rw [step_sensor_of_error hcode]
  | reading kind id value => exact b.station_append _ _
  | event severity message =>
    obtain ⟨ready, announcement, heq⟩ := b.recordEvent_eq severity message
    change (b.recordEvent severity message).1.station = b.station
    rw [heq]
    exact b.station_append _ _
  | setUp | close | setClock | advanceClock | setLimits | replaceStation | query => cases hop

/-- **A watering run counts its water** and changes nothing else in the settings, whatever
becomes of its line. -/
theorem station_watering (b : LogBook) (r : WateringRun) :
    (b.step (.watering r)).1.station =
      (b.counters.apply b.now (WaterCounter.contribution r.duration
        (b.station.flowRate r.zone))).1.store b.station :=
  (b.countWater r).station_append _ _

/-! ## 3. Every operation -/

/-- **The log tree only grows, a failure changes nothing in it, and only watering runs touch
the settings.** -/
theorem step_append_only (h : b.fault = none) (op : Operation) :
    (op = .setUp → b.tree.AddsDirs (b.step op).1.tree) ∧
    (op ≠ .setUp → op.records = false → (b.step op).1.tree = b.tree) ∧
    (op.records = true →
      ((b.step op).2.result = .ok () →
        ∃ e, op.entryOf? b = some e ∧ e.line ≠ [] ∧
          b.tree.Grows (b.step op).1.tree (e.partition.path b.root).names
            (Utf8.encode e.partition.header) (Utf8.encode e.line)) ∧
      (∀ e, (b.step op).2.result = .error e → (b.step op).1.tree = b.tree) ∧
      ((∀ r, op ≠ .watering r) → (b.step op).1.station = b.station)) ∧
    (∀ r, op = .watering r →
      (b.step op).1.station =
        (b.counters.apply b.now (WaterCounter.contribution r.duration
          (b.station.flowRate r.zone))).1.store b.station ∧
      (b.step op).1.station.zones = b.station.zones ∧
      (b.step op).1.station.flowRates = b.station.flowRates ∧
      ∀ b' : LogBook, b'.station = b.station → b'.clock = b.clock →
        (b'.step op).1.station = (b.step op).1.station) := by
  refine ⟨?_, fun hset hop => tree_of_not_records hset hop, fun hop => ⟨?_, ?_, ?_⟩, ?_⟩
  · rintro rfl
    exact b.addsDirs_setUp
  · exact fun hok => grows_of_ok hop hok
  · exact fun e herr => tree_of_error h hop herr
  · exact fun hw => station_of_records hop hw
  · rintro r rfl
    refine ⟨b.station_watering r, ?_, ?_, fun b' hs hc => ?_⟩
    · rw [station_watering]
      rfl
    · rw [station_watering]
      rfl
    · rw [station_watering, station_watering, counters, counters, now, now, hs, hc]

/-- The first event on an empty tree. -/
theorem step_append_only_of_event :
    blank.setUp.1.fault = none ∧ (blank.setUp.1.step (.event .info "up")).2.result = .ok () ∧
      ∃ e, (Operation.event .info "up").entryOf? blank.setUp.1 = some e ∧ e.line ≠ [] ∧
        blank.setUp.1.tree.Grows (blank.setUp.1.step (.event .info "up")).1.tree
          (e.partition.path blank.setUp.1.root).names (Utf8.encode e.partition.header)
          (Utf8.encode e.line) := by
  have hfault : blank.setUp.1.fault = none := by decide +kernel
  have hok : (blank.setUp.1.step (.event .info "up")).2.result = .ok () := by rfl
  exact ⟨hfault, hok, ((step_append_only hfault (.event .info "up")).2.2.1 rfl).1 hok⟩

end LogBook

end IrrigationLog
