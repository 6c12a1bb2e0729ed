/-
# JSON forms

What the program hands on as JSON it takes back: records, settings, counters and words are read
from the JSON text that was made of them.  Others write JSON too, and not as the program does.

* **A form** puts values of a kind into structured data and reads them from it.  It is lawful if
  its data are told in full by their text and are read as the value (`Form.Lawful`).
* **The fields of a structure** are read from a record by name, so that their order does not
  matter and unknown fields are let go, or from a list by their place (`Form.HasFields`).
* **Settings** may be left out; they have their defaults then (`Station.ofData?_remaining`).

`forms_round_trip` puts this together for all kinds.
-/
import IrrigationLog.Proofs.FormValues
import IrrigationLog.Proofs.JsonText

namespace IrrigationLog

open Data

/-- The fields of a record. -/
def Data.fields : Data → List (String × Data)
  | .record fields => fields
  | _ => []

/-- The names of the fields. -/
def Data.names (d : Data) : List String := d.fields.map Prod.fst

/-! ## 1. Forms -/

/-- How values of a kind are put into structured data and read from it. -/
structure Form (α : Type) where
  toData : α → Data
  ofData? : Data → Option α

namespace Form

variable {α : Type} {f : Form α}

/-- The JSON text of a value. -/
def write (f : Form α) (a : α) : List Char := Json.text (f.toData a)

/-- The value of a JSON text. -/
def read? (f : Form α) (cs : List Char) : Option α := (Json.read? cs).bind f.ofData?

/-- A JSON text as the program writes it. -/
def rewrite? (f : Form α) (cs : List Char) : Option (List Char) := (f.read? cs).map f.write

/-- Every value is read back from its text, and a text that was written anew stays as it is. -/
structure RoundTrips (f : Form α) : Prop where
  read?_write : ∀ a, f.read? (f.write a) = some a
  rewrite?_stable : ∀ cs out, f.rewrite? cs = some out → f.rewrite? out = some out

/-- A value is read from its fields: from a record that has them in any order, with fields of
other names between them, and from a list. -/
structure ReadsFields (f : Form α) : Prop where
  toData_eq : ∀ a, f.toData a = .record (f.toData a).fields
  anyOrder : ∀ a cs given, Json.read? cs = some (.record given) →
    (given.filter fun g => g.1 ∈ (f.toData a).names).Perm (f.toData a).fields →
      f.read? cs = some a
  asList : ∀ a cs, Json.read? cs = some (.list ((f.toData a).fields.map Prod.snd)) →
    f.read? cs = some a

/-- The data of a value are told by their text, and are read as the value. -/
structure Lawful (f : Form α) : Prop where
  plain : ∀ a, (f.toData a).Plain
  ofData?_toData : ∀ a, f.ofData? (f.toData a) = some a

/-- **What is lawful round-trips.** -/
theorem Lawful.roundTrips (h : f.Lawful) : f.RoundTrips := by
  have hread (a : α) : f.read? (f.write a) = some a := by
    rw [read?, write, Json.read?_text (h.plain a), Option.bind_some, h.ofData?_toData]
  refine ⟨hread, fun cs out hout => ?_⟩
  obtain ⟨a, -, rfl⟩ := Option.map_eq_some_iff.mp hout
  rw [rewrite?, hread, Option.map_some]

/-- The data of a value are the fields of these names, and all that counts is what the data has
for each of them. -/
structure HasFields (f : Form α) (names : List String) : Prop where
  nodup : names.Nodup
  toData_eq : ∀ a, f.toData a = .record (f.toData a).fields
  names_toData : ∀ a, (f.toData a).names = names
  ofData?_eq : ∃ build, ∀ d, f.ofData? d = (d.slots? .strict names).bind build

namespace HasFields

variable {names : List String}

/-- Data that have the same for each field are read alike. -/
theorem ofData?_congr {d e : Data} (h : f.HasFields names)
    (hslots : d.slots? .strict names = e.slots? .strict names) : f.ofData? d = f.ofData? e := by
  obtain ⟨build, hbuild⟩ := h.ofData?_eq
  rw [hbuild, hbuild, hslots]

/-- A value has all its fields. -/
theorem slots?_toData (h : f.HasFields names) (a : α) :
    (f.toData a).slots? .strict names = some ((f.toData a).fields.map fun g => .given g.2) := by
  have hnames : (f.toData a).fields.map Prod.fst = names := h.names_toData a
  have hown := slots?_ownNames .strict (hnames ▸ h.nodup)
  rw [← h.toData_eq, hnames] at hown
  exact hown

/-- **The fields of a structure tell it.** -/
theorem readsFields (h : f.HasFields names) (hf : f.Lawful) : f.ReadsFields where
  toData_eq := h.toData_eq
  anyOrder a cs given hcs hgiven := by
    rw [h.names_toData] at hgiven
    have hslots := slots?_of_known .strict hgiven
    rw [← h.toData_eq] at hslots
    rw [read?, hcs, Option.bind_some, h.ofData?_congr hslots, hf.ofData?_toData]
  asList a cs hcs := by
    have hlength : ((f.toData a).fields.map Prod.snd).length = names.length := by
      rw [← h.names_toData a, Data.names, List.length_map, List.length_map]
    have hslots : (Data.list ((f.toData a).fields.map Prod.snd)).slots? .strict names =
        (f.toData a).slots? .strict names := by
      rw [h.slots?_toData, slots?_items .strict hlength, List.map_map]
      rfl
    rw [read?, hcs, Option.bind_some, h.ofData?_congr hslots, hf.ofData?_toData]

end HasFields

end Form

/-! ## 2. Words -/

/-- Words are read by their table. -/
theorem Form.lawful_of_lookup {α : Type} {word : α → String} {values : List α}
    (h : ∀ a, (wordTable word values).lookup (word a) = some a) :
    Form.Lawful ⟨fun a => .text (word a), name? (wordTable word values)⟩ where
  plain _ := .text _
  ofData?_toData := h

/-- The form of categories. -/
def Category.form : Form Category := ⟨toData, ofData?⟩

theorem Category.form_lawful : form.Lawful :=
  Form.lawful_of_lookup fun c => by cases c <;> rfl

/-- The form of sensor kinds. -/
def Sensor.form : Form Sensor := ⟨toData, ofData?⟩

theorem Sensor.form_lawful : form.Lawful :=
  Form.lawful_of_lookup fun s => by cases s <;> rfl

/-- The form of severities. -/
def Severity.form : Form Severity := ⟨toData, ofData?⟩

theorem Severity.form_lawful : form.Lawful :=
  Form.lawful_of_lookup fun s => by cases s <;> rfl

/-- The form of groupings. -/
def Grouping.form : Form Grouping := ⟨toData, ofData?⟩

theorem Grouping.form_lawful : form.Lawful :=
  Form.lawful_of_lookup fun g => by cases g <;> rfl

/-- The form of summaries. -/
def Summary.form : Form Summary := ⟨toData, ofData?⟩

theorem Summary.form_lawful : form.Lawful :=
  Form.lawful_of_lookup fun s => by cases s <;> rfl

/-! ## 3. Records -/

namespace WateringRun

/-- The form of watering runs. -/
def form : Form WateringRun := ⟨toData, ofData? .strict⟩

theorem form_hasFields : form.HasFields
    ["start", "zone", "duration", "schedule", "seasonal_adjustment", "weather_adjustment"] where
  nodup := by decide
  toData_eq _ := rfl
  names_toData _ := rfl
  ofData?_eq := ⟨_, fun _ => rfl⟩

theorem form_lawful : form.Lawful where
  plain r := by
    refine .record fun f hf => ?_
    simp only [List.mem_cons, List.not_mem_nil, or_false] at hf
    rcases hf with rfl | rfl | rfl | rfl | rfl | rfl
    · exact .ints _
    all_goals exact .int _
  ofData?_toData r := by
    have hslots := form_hasFields.slots?_toData r
    change ofData? .strict r.toData = some r
    change r.toData.slots? _ _ = some [.given (ints r.start.parts), .given (.int r.zone.toNat),
      .given (.int r.duration.toNat), .given (.int r.schedule.toNat),
      .given (.int r.seasonal.toInt), .given (.int r.weather.toInt)] at hslots
    simp [ofData?, hslots, Slot.required?, dateTime?_parts, uint8?_toNat, uint16?_toNat,
      int32?_toInt]

end WateringRun

namespace Reading

/-- The form of readings. -/
def form : Form Reading := ⟨toData, ofData? .strict⟩

theorem form_hasFields : form.HasFields ["timestamp", "reading"] where
  nodup := by decide
  toData_eq _ := rfl
  names_toData _ := rfl
  ofData?_eq := ⟨_, fun _ => rfl⟩

theorem form_lawful : form.Lawful where
  plain r := by
    refine .record fun f hf => ?_
    simp only [List.mem_cons, List.not_mem_nil, or_false] at hf
    rcases hf with rfl | rfl
    · exact .ints _
    · exact .int _
  ofData?_toData r := by
    have hslots := form_hasFields.slots?_toData r
    change ofData? .strict r.toData = some r
    change r.toData.slots? _ _ = some [.given (ints r.time.parts), .given (.int r.value.toInt)]
      at hslots
    simp [ofData?, hslots, Slot.required?, dateTime?_parts, int32?_toInt]

end Reading

namespace EventChunk

/-- The form of event chunks. -/
def form : Form EventChunk := ⟨toData, ofData? .strict⟩

theorem form_hasFields :
    form.HasFields ["severity", "timestamp", "continuation", "payload"] where
  nodup := by decide
  toData_eq _ := rfl
  names_toData _ := rfl
  ofData?_eq := ⟨_, fun _ => rfl⟩

theorem form_lawful : form.Lawful where
  plain c := by
    refine .record fun f hf => ?_
    simp only [List.mem_cons, List.not_mem_nil, or_false] at hf
    rcases hf with rfl | rfl | rfl | rfl
    · exact .text _
    · exact .int _
    · exact .bool _
    · exact .text _
  ofData?_toData c := by
    have hslots := form_hasFields.slots?_toData c
    have hseverity : Severity.ofData? c.severity.toData = some c.severity :=
      Severity.form_lawful.ofData?_toData c.severity
    change ofData? .strict c.toData = some c
    change c.toData.slots? _ _ = some [.given c.severity.toData,
      .given (.int c.timestamp.toInt), .given (.bool c.continuation), .given (.text c.payload)]
      at hslots
    simp [ofData?, hslots, Slot.required?, hseverity, int64?_toInt, bool?, text?]

end EventChunk

/-! ## 4. Settings and counters -/

theorem Data.Plain.ofOptional {α : Type} {put : α → Data} (h : ∀ a, (put a).Plain)
    (o : Option α) : (Data.ofOptional put o).Plain := by
  cases o with
  | none => exact .null
  | some a => exact h a

/-- A time that may be absent is read back. -/
theorem optional?_ofDateTime (o : Option DateTime) :
    (ofOptional ofDateTime o).optional? (dateTime? .strict) = some o :=
  optional?_ofOptional (fun t => dateTime?_parts t) (fun _ => nofun) o

/-- A field that is left out has its default. -/
theorem default?_unless {α : Type} {d : Data} {read? : Data → Option α} {a : α}
    (h : read? d = some a) (standard : α) (p : Prop) [Decidable p] :
    Slot.default? standard read? (if p then .missing else .given d) =
      some (if p then standard else a) := by
  split
  · rfl
  · exact h

namespace Station

/-- The form of station settings. -/
def form : Form Station := ⟨toData, ofData? .strict⟩

theorem form_hasFields : form.HasFields
    ["zones", "flow_rates", "weekday_counters", "lifetime_counter", "counter_date"] where
  nodup := by decide
  toData_eq _ := rfl
  names_toData _ := rfl
  ofData?_eq := ⟨_, fun _ => rfl⟩

/-- The settings with the defaults for the named ones. -/
def resetting (s : Station) (left : List String) : Station where
  zones := if "zones" ∈ left then 8 else s.zones
  flowRates := if "flow_rates" ∈ left then [] else s.flowRates
  weekdayCounters := if "weekday_counters" ∈ left then Vector.replicate 7 0 else s.weekdayCounters
  lifetime := if "lifetime_counter" ∈ left then 0 else s.lifetime
  counterDate := if "counter_date" ∈ left then none else s.counterDate

/-- **Settings that are left out have their defaults.** -/
theorem ofData?_remaining (s : Station) (left : List String) :
    ofData? .strict (.record (s.toData.fields.filter fun f => f.1 ∉ left)) =
      some (s.resetting left) := by
  have hnodup : (s.toData.fields.map Prod.fst).Nodup := form_hasFields.nodup
  have hslots := slots?_remaining .strict hnodup left
  change Data.slots? _ ["zones", "flow_rates", "weekday_counters", "lifetime_counter",
    "counter_date"] _ = some [_, _, _, _, _] at hslots
  have hflow := list?_map uint16?_toNat s.flowRates
  have hweek : (list (s.weekdayCounters.toList.map fun c => .int c.toNat)).vector? .strict 7
      uint32? = some s.weekdayCounters := vector?_map uint32?_toNat s.weekdayCounters
  rw [ofData?, hslots, Option.bind_eq_bind, Option.bind_some]
  dsimp only
  rw [default?_unless (uint8?_toNat s.zones), default?_unless hflow, default?_unless hweek,
    default?_unless (uint32?_toNat s.lifetime),
    default?_unless (optional?_ofDateTime s.counterDate)]
  rfl

theorem form_lawful : form.Lawful where
  plain s := by
    refine .record fun f hf => ?_
    simp only [List.mem_cons, List.not_mem_nil, or_false] at hf
    rcases hf with rfl | rfl | rfl | rfl | rfl
    · exact .int _
    · exact .map (fun _ => .int _) _
    · exact .map (fun _ => .int _) _
    · exact .int _
    · exact .ofOptional (fun _ => .ints _) _
  ofData?_toData s := ofData?_remaining s []

end Station

namespace WaterCounter

/-- The form of running counters. -/
def form : Form WaterCounter := ⟨toData, ofData? .strict⟩

theorem form_hasFields : form.HasFields ["weekday", "lifetime", "updated_at"] where
  nodup := by decide
  toData_eq _ := rfl
  names_toData _ := rfl
  ofData?_eq := ⟨_, fun _ => rfl⟩

theorem form_lawful : form.Lawful where
  plain c := by
    refine .record fun f hf => ?_
    simp only [List.mem_cons, List.not_mem_nil, or_false] at hf
    rcases hf with rfl | rfl | rfl
    · exact .map (fun _ => .int _) _
    · exact .int _
    · exact .ofOptional (fun _ => .ints _) _
  ofData?_toData c := by
    have hslots := form_hasFields.slots?_toData c
    have hweek : (list (c.weekday.toList.map fun n => .int n.toNat)).vector? .strict 7 uint32? =
        some c.weekday := vector?_map uint32?_toNat c.weekday
    change ofData? .strict c.toData = some c
    change c.toData.slots? _ _ = some [.given (.list (c.weekday.toList.map fun n => .int n.toNat)),
      .given (.int c.lifetime.toNat), .given (ofOptional ofDateTime c.updatedAt)] at hslots
    simp [ofData?, hslots, Slot.required?, Slot.optional?, hweek, uint32?_toNat,
      optional?_ofDateTime]

end WaterCounter

/-! ## 5. All kinds -/

/-- **JSON forms round-trip.**  Values of every kind are read back from their JSON text, and a
text that was written anew stays as it is.  The fields of a structure may come in any order, with
unknown fields between them, or as a list; settings that are left out have their defaults.  The
fields may stand in any text that denotes them, and the text of all plain data denotes the data. -/
theorem forms_round_trip :
    (Category.form.RoundTrips ∧ Sensor.form.RoundTrips ∧ Severity.form.RoundTrips ∧
      Grouping.form.RoundTrips ∧ Summary.form.RoundTrips ∧ WateringRun.form.RoundTrips ∧
      Reading.form.RoundTrips ∧ EventChunk.form.RoundTrips ∧ Station.form.RoundTrips ∧
      WaterCounter.form.RoundTrips) ∧
    (WateringRun.form.ReadsFields ∧ Reading.form.ReadsFields ∧ EventChunk.form.ReadsFields ∧
      Station.form.ReadsFields ∧ WaterCounter.form.ReadsFields) ∧
    (∀ (s : Station) (left : List String) (cs : List Char) (given : List (String × Data)),
      Json.read? cs = some (.record given) →
      (given.filter fun g => g.1 ∈ s.toData.names).Perm
        (s.toData.fields.filter fun f => f.1 ∉ left) →
        Station.form.read? cs = some (s.resetting left)) ∧
    ∀ d : Data, d.Plain → Json.read? (Json.text d) = some d := by
  refine ⟨?_, ?_, ?_, fun d hd => Json.read?_text hd⟩
  · exact ⟨Category.form_lawful.roundTrips, Sensor.form_lawful.roundTrips,
      Severity.form_lawful.roundTrips, Grouping.form_lawful.roundTrips,
      Summary.form_lawful.roundTrips, WateringRun.form_lawful.roundTrips,
      Reading.form_lawful.roundTrips, EventChunk.form_lawful.roundTrips,
      Station.form_lawful.roundTrips, WaterCounter.form_lawful.roundTrips⟩
  · exact ⟨WateringRun.form_hasFields.readsFields WateringRun.form_lawful,
      Reading.form_hasFields.readsFields Reading.form_lawful,
      EventChunk.form_hasFields.readsFields EventChunk.form_lawful,
      Station.form_hasFields.readsFields Station.form_lawful,
      WaterCounter.form_hasFields.readsFields WaterCounter.form_lawful⟩
  · intro s left cs given hcs hgiven
    have hnames := Station.form_hasFields.names_toData s
    change s.toData.names = _ at hnames
    rw [hnames] at hgiven
    rw [Form.read?, hcs, Option.bind_some, ← Station.ofData?_remaining]
    exact Station.form_hasFields.ofData?_congr (slots?_of_known .strict hgiven)

/-- Settings in another order, with a field that is unknown and three that are left out, and an
event chunk given as a list. -/
theorem forms_round_trip_of_otherWriters :
    Station.form.read? (Json.text (.record [("note", .null), ("lifetime_counter", .int 7),
        ("zones", .int 4)])) = some { zones := 4, lifetime := 7 } ∧
      EventChunk.form.read? (Json.text (.list [.text "crit", .int (-1), .bool true,
        .text "💧\x01"])) = some ⟨.crit, -1, true, "💧\x01"⟩ := by
  have hsettings : (Data.record [("note", .null), ("lifetime_counter", .int 7),
      ("zones", .int 4)]).Plain := by
    refine .record fun f hf => ?_
    simp only [List.mem_cons, List.not_mem_nil, or_false] at hf
    rcases hf with rfl | rfl | rfl
    · exact .null
    · exact .int _
    · exact .int _
  have hchunk : (Data.list [.text "crit", .int (-1), .bool true, .text "💧\x01"]).Plain := by
    refine .list fun d hd => ?_
    simp only [List.mem_cons, List.not_mem_nil, or_false] at hd
    rcases hd with rfl | rfl | rfl | rfl
    · exact .text _
    · exact .int _
    · exact .bool _
    · exact .text _
  obtain ⟨-, ⟨-, -, hlist, -⟩, hleft, hread⟩ := forms_round_trip
  exact ⟨hleft { zones := 4, lifetime := 7 } ["flow_rates", "weekday_counters", "counter_date"]
    _ _ (hread _ hsettings) (.swap _ _ _),
    hlist.asList ⟨.crit, -1, true, "💧\x01"⟩ _ (hread _ hchunk)⟩

end IrrigationLog
