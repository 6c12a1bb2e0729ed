/-
# Settings are loaded as they were saved

A settings file is written from a configuration and read as one.  A configuration that has a
text is read back from it (`Config.parse?_text`), and one that was saved is loaded again
(`Config.load_of_saveOn`): no setting is dropped, reset or rounded on the way, and the text is
always one that the reader takes.

* **The station** has each of its settings under its name (`slots?_stationPairs`), and a setting
  that is absent is left out and reads as absent.
* **The file** is a settings file of the kind that is read back as its data
  (`Config.wellFormed_document`).
-/
import IrrigationLog.Config
import IrrigationLog.Proofs.FailedCommand
import IrrigationLog.Proofs.FormValues
import IrrigationLog.Proofs.SettingsText

namespace IrrigationLog

open Data

/-! ## 1. The station -/

/-- The time of the last fold, as it is found among the settings. -/
def dateSlot (date : Option DateTime) : Slot :=
  (date.map fun t => Slot.given (ints t.parts)).getD .missing

theorem default?_dateSlot (date : Option DateTime) :
    (dateSlot date).default? none (Data.optional? (dateTime? .lenient)) = some date := by
  cases date with
  | none => rfl
  | some t =>
    change ((ints t.parts).dateTime? .lenient).map some = _
    rw [dateTime?_parts, Option.map_some]

/-- The fields of a station are found under their names. -/
theorem slots?_stationPairs (s : Station) :
    (Data.record (Toml.pairsData (Config.stationPairs s))).slots? .lenient
        ["zones", "flow_rates", "weekday_counters", "lifetime_counter", "counter_date"] =
      some [.given (.int s.zones.toNat), .given (ints (s.flowRates.map fun r => (r.toNat : Int))),
        .given (ints (s.weekdayCounters.toList.map fun c => (c.toNat : Int))),
        .given (.int s.lifetime.toNat), dateSlot s.counterDate] := by
  cases hdate : s.counterDate with
  | none =>
    simp [slots?, Toml.pairsData, Config.stationPairs, Toml.Item.toData, hdate, dateSlot,
      fieldSlot?_cons_self, fieldSlot?_cons_other, fieldSlot?_of_notMem]
  | some t =>
    simp [slots?, Toml.pairsData, Config.stationPairs, Toml.Item.toData, hdate, dateSlot,
      fieldSlot?_cons_self, fieldSlot?_cons_other]

/-- **The settings of a station are read back.** -/
theorem Station.ofData?_stationPairs (s : Station) :
    Station.ofData? .lenient (.record (Toml.pairsData (Config.stationPairs s))) = some s := by
  have hzones : Slot.default? 8 uint8? (.given (.int s.zones.toNat)) = some s.zones :=
    uint8?_toNat s.zones
  have hflow : Slot.default? [] (list? uint16?)
      (.given (ints (s.flowRates.map fun r => (r.toNat : Int)))) = some s.flowRates := by
    rw [ints, List.map_map]
    exact list?_map uint16?_toNat s.flowRates
  have hweek : Slot.default? (Vector.replicate 7 0) (vector? .lenient 7 uint32?)
      (.given (ints (s.weekdayCounters.toList.map fun c => (c.toNat : Int)))) =
        some s.weekdayCounters := by
    rw [ints, List.map_map]
    exact vector?_map uint32?_toNat s.weekdayCounters
  have hlifetime : Slot.default? 0 uint32? (.given (.int s.lifetime.toNat)) = some s.lifetime :=
    uint32?_toNat s.lifetime
  rw [Station.ofData?, slots?_stationPairs, Option.bind_eq_bind, Option.bind_some]
  dsimp only
  rw [hzones, hflow, hweek, hlifetime, default?_dateSlot]
  rfl

/-! ## 2. The file -/

namespace Config

/-- The data of a settings file. -/
theorem toData_document (c : Config) :
    c.document.toData = .record (Toml.pairsData c.document.top ++
      [("station", .record (Toml.pairsData (stationPairs c.station)))]) :=
  rfl

/-- The place of the log tree, as it is found among the settings. -/
def rootSlot (root : Option String) : Slot :=
  (root.map fun text => Slot.given (.text text)).getD .missing

theorem default?_rootSlot (root : Option String) :
    (rootSlot root).default? none (Data.optional? Data.text?) = some root := by
  cases root <;> rfl

/-- The settings are found under their names. -/
theorem slots?_document (c : Config) :
    c.document.toData.slots? .lenient
        ["log_root", "event_chunk_size", "max_event_payload", "station"] =
      some [rootSlot c.root, .given (.int c.chunkSize.toNat), .given (.int c.maxPayload.toNat),
        .given (.record (Toml.pairsData (stationPairs c.station)))] := by
  rw [toData_document]
  cases hroot : c.root with
  | none =>
    simp [slots?, Toml.pairsData, document, Toml.Item.toData, hroot, rootSlot,
      fieldSlot?_cons_self, fieldSlot?_cons_other, fieldSlot?_of_notMem]
  | some text =>
    simp [slots?, Toml.pairsData, document, Toml.Item.toData, hroot, rootSlot,
      fieldSlot?_cons_self, fieldSlot?_cons_other]

/-- **The data of a settings file are read as the configuration.** -/
theorem ofData?_document (c : Config) : ofData? c.document.toData = some c := by
  have hchunk : Slot.default? (.ofNat EventLimits.standard.requested) uint64?
      (.given (.int c.chunkSize.toNat)) = some c.chunkSize := uint64?_toNat c.chunkSize
  have hpayload : Slot.default? (.ofNat EventLimits.standard.capacity) uint64?
      (.given (.int c.maxPayload.toNat)) = some c.maxPayload := uint64?_toNat c.maxPayload
  have hstation : Slot.default? {} (Station.ofData? .lenient)
      (.given (.record (Toml.pairsData (stationPairs c.station)))) = some c.station :=
    c.station.ofData?_stationPairs
  rw [ofData?, slots?_document, Option.bind_eq_bind, Option.bind_some]
  dsimp only
  rw [default?_rootSlot, hchunk, hpayload, hstation]
  rfl

/-- A number of at most eight bytes can be written down, with a sign or without. -/
theorem fits_of_bounds {i : Int} (h : -18446744073709551616 ≤ i ∧ i < 18446744073709551616) :
    Toml.fits i = true := by
  have hlow : -Int.pow 2 127 = -170141183460469231731687303715884105728 := rfl
  have hhigh : Int.pow 2 128 = 340282366920938463463374607431768211456 := rfl
  unfold Toml.fits
  rw [hlow, hhigh, Bool.and_eq_true, decide_eq_true_eq, decide_eq_true_eq]
  omega

theorem fits_parts (t : DateTime) : ∀ i ∈ t.parts, Toml.fits i = true := by
  have hyear := t.date.year_bounds
  have hhour := t.time.hour_lt
  have hminute := t.time.minute_lt
  have hsecond := t.time.second_lt
  have hnano := t.time.nanosecond_lt
  have hordinal := t.date.ordinal_le_366
  intro i hi
  refine fits_of_bounds ?_
  simp only [DateTime.parts, List.mem_cons, List.not_mem_nil, or_false] at hi
  omega

theorem writable_stationPairs (s : Station) : ∀ p ∈ stationPairs s, Toml.Writable p := by
  intro p hp
  rcases List.mem_append.mp hp with hp | hp
  · simp only [List.mem_cons, List.not_mem_nil, or_false] at hp
    rcases hp with rfl | rfl | rfl | rfl
    · have hbound := s.zones.toNat_lt
      exact ⟨(by decide : Toml.IsBare "zones"), fits_of_bounds (by omega)⟩
    · refine ⟨(by decide : Toml.IsBare "flow_rates"), fun i hi => ?_⟩
      obtain ⟨rate, -, rfl⟩ := List.mem_map.mp hi
      have hbound := rate.toNat_lt
      exact fits_of_bounds (by omega)
    · refine ⟨(by decide : Toml.IsBare "weekday_counters"), fun i hi => ?_⟩
      obtain ⟨amount, -, rfl⟩ := List.mem_map.mp hi
      have hbound := amount.toNat_lt
      exact fits_of_bounds (by omega)
    · have hbound := s.lifetime.toNat_lt
      exact ⟨(by decide : Toml.IsBare "lifetime_counter"), fits_of_bounds (by omega)⟩
  · obtain ⟨t, -, rfl⟩ := List.mem_map.mp hp
    exact ⟨(by decide : Toml.IsBare "counter_date"), fits_parts t⟩

theorem writable_top (c : Config) : ∀ p ∈ c.document.top, Toml.Writable p := by
  intro p hp
  rcases List.mem_append.mp hp with hp | hp
  · obtain ⟨root, -, rfl⟩ := List.mem_map.mp hp
    exact ⟨(by decide : Toml.IsBare "log_root"), trivial⟩
  · simp only [List.mem_cons, List.not_mem_nil, or_false] at hp
    rcases hp with rfl | rfl
    · have hbound := c.chunkSize.toNat_lt
      exact ⟨(by decide : Toml.IsBare "event_chunk_size"), fits_of_bounds (by omega)⟩
    · have hbound := c.maxPayload.toNat_lt
      exact ⟨(by decide : Toml.IsBare "max_event_payload"), fits_of_bounds (by omega)⟩

/-- The settings file is one that is read back. -/
theorem wellFormed_document (c : Config) : c.document.WellFormed where
  top := c.writable_top
  tables := by
    intro table htable
    obtain rfl := List.mem_singleton.mp htable
    refine ⟨(by decide : Toml.IsBare "station"), writable_stationPairs c.station, ?_⟩
    rw [stationPairs, List.map_append]
    cases c.station.counterDate <;> simp
  nodup := by
    simp only [document, List.map_append]
    cases c.root <;> simp

/-- **A configuration is read back from its text.** -/
theorem parse?_text {c : Config} {text : List Char} (h : c.text? = some text) :
    parse? text = some c := by
  unfold text? at h
  split at h
  · cases h
    rw [parse?, Toml.read?_text c.wellFormed_document, Option.bind_some, ofData?_document]
  · cases h

/-! ## 3. Loading -/

/-- **What is loaded**: the defaults if there is no file, else what the text of the file says. -/
theorem load_eq_ok_iff {t : Tree} {path : Path} {c : Config} :
    load t path = .ok c ↔ t.node? path.names = none ∧ c = {} ∨
      ∃ bytes text, t.node? path.names = some (.file bytes) ∧ Utf8.decode? bytes = some text ∧
        parse? text = some c := by
  unfold load Tree.occupied Tree.readBytes Tree.node? Tree.find?
  rcases t.lookup path.names with cause | (bytes | entries)
  · simp [Except.toOption, eq_comm]
  · simp only [Except.toOption, Option.isSome_some, if_true, Option.map_some, reduceCtorEq,
      false_and, false_or, Option.some.injEq, Tree.node, Node.file.injEq]
    cases htext : Utf8.decode? bytes with
    | none => simp [htext]
    | some text =>
      cases hconfig : parse? text with
      | none => simp [htext, hconfig]
      | some d => simp [htext, hconfig]
  · simp [Except.toOption, Tree.node]

/-- Where the same stands, the same is loaded. -/
theorem load_congr {t u : Tree} {path other : Path} {c : Config}
    (hnode : u.node? other.names = t.node? path.names) (h : load t path = .ok c) :
    load u other = .ok c := by
  rw [load_eq_ok_iff] at h ⊢
  rw [hnode]
  exact h

/-- The text of a configuration is loaded as the configuration. -/
theorem load_of_text {t : Tree} {path : Path} {c : Config} {text : List Char}
    (hfile : t.node? path.names = some (.file (Utf8.encode text))) (htext : c.text? = some text) :
    load t path = .ok c :=
  load_eq_ok_iff.mpr (Or.inr ⟨_, text, hfile, Utf8.decode?_encode text, parse?_text htext⟩)

/-- **A configuration that was saved is loaded again**, by every path that leads to its file. -/
theorem load_of_saveOn {c : Config} {t u : Tree} {cwd : List String} {path other : Path}
    {fault : Option WriteFault} (h : c.saveOn fault t cwd path = (u, .ok ()))
    (hother : other.names = path.names) : load u other = .ok c := by
  rcases c.saveOn_cases fault t cwd path with
    ⟨u', heq, made, text, -, htext, hset⟩ | ⟨u', e, heq, -⟩
  · cases h.symm.trans heq
    exact load_of_text (by rw [hother]; exact hset.self) htext
  · cases h.symm.trans heq

end Config

end IrrigationLog
