/-
# Records in another order

A record goes to one file, and only the records of the same file have to keep their order.  This
module lets a book record the same things in two orders and compares what is there in the end.

* **Files.**  Where a book can open all partitions, a record adds to its own file and leaves the
  rest of the tree alone (`LogBook.ReadyFor.record`).  What a file holds in the end is therefore
  made of its own records only, in their order (`LogBook.node?_recordAll`).
* **Questions** see nothing of a tree but what is in its partitions (`LogTree.Alike.answer`).
* **Counters** take the water of the runs whatever becomes of the files
  (`LogBook.counters_recordAll`), and the order within a date shows in nothing but the time of the
  fold.

Two trees are the same if they have the same node at every path, the bytes of every file included
(`Tree.node?`); in which order a directory was filled is nothing that a tree tells.

`LogBook.recordAll_reordered` is the whole of it.  The disk takes everything that is written: where
it fills up on the way, the order decides whose line is cut short.
-/
import IrrigationLog.Proofs.Readiness
import IrrigationLog.Proofs.SameDayUses
import IrrigationLog.Proofs.SeriesPoints

namespace IrrigationLog

/-! ## 1. Records -/

/-- Something to be recorded. -/
inductive Recording where
  | watering (r : WateringRun)
  | reading (kind : Sensor) (id : UInt16) (value : Int32)
  | event (severity : Severity) (message : String)

/-- How something is recorded. -/
def Recording.operation : Recording → Operation
  | watering r => .watering r
  | reading kind id value => .reading kind id value
  | event severity message => .event severity message

/-- Something to be recorded, and the time that the clock is set to before. -/
structure TimedRecording where
  time : DateTime
  recording : Recording

namespace TimedRecording

/-- What the clock shows. -/
def now (x : TimedRecording) : DateTime := (Clock.setTo x.time).now

/-- The clock is set, and then the record is made. -/
def operations (x : TimedRecording) : List Operation :=
  [.setClock x.time, x.recording.operation]

/-- What is recorded. -/
def entry (x : TimedRecording) : Entry :=
  match x.recording with
  | .watering r => .watering r
  | .reading kind id value => .reading kind id ⟨x.now, value⟩
  | .event severity message => .event x.now severity (trimMessage message.toList)

/-- The names that lead to the file of a record. -/
def file (root : Path) (x : TimedRecording) : List String := (x.entry.partition.path root).names

/-- The water that a record counts at a station. -/
def use? (s : Station) (x : TimedRecording) : Option WaterUse :=
  match x.recording with
  | .watering r => some ⟨x.now, r.duration, s.flowRate r.zone⟩
  | _ => none

/-- The date of the clock at a watering run. -/
def wateringDate? (x : TimedRecording) : Option Date :=
  match x.recording with
  | .watering _ => some x.now.date
  | _ => none

/-- Of a station, only the flow rates matter for the water that is counted. -/
theorem use?_congr {s s' : Station} (h : s.flowRates = s'.flowRates) : use? s = use? s' := by
  funext x
  unfold use? Station.flowRate
  rw [h]

theorem map_date_use? (s : Station) (xs : List TimedRecording) :
    (xs.filterMap (use? s)).map WaterUse.date = xs.filterMap wateringDate? := by
  rw [List.map_filterMap]
  refine congrArg (fun f => xs.filterMap f) (funext fun x => ?_)
  unfold use? wateringDate?
  cases x.recording <;> rfl

end TimedRecording

/-- Another order of some records, in which the records of each file keep theirs. -/
structure Reordering (root : Path) (xs ys : List TimedRecording) : Prop where
  perm : xs.Perm ys
  same_file : ∀ names, (xs.filter fun x => x.file root = names) =
    ys.filter fun x => x.file root = names

namespace Reordering

variable {root : Path} {x y : TimedRecording} {xs ys zs : List TimedRecording}

theorem cons (x : TimedRecording) (h : Reordering root xs ys) :
    Reordering root (x :: xs) (x :: ys) where
  perm := h.perm.cons x
  same_file names := by
    simp only [List.filter_cons, h.same_file names]

theorem trans (h : Reordering root xs ys) (h' : Reordering root ys zs) : Reordering root xs zs :=
  ⟨h.perm.trans h'.perm, fun names => (h.same_file names).trans (h'.same_file names)⟩

/-- Two records of different files may change places. -/
theorem swap (h : x.file root ≠ y.file root) (xs : List TimedRecording) :
    Reordering root (x :: y :: xs) (y :: x :: xs) where
  perm := .swap y x xs
  same_file names := by
    by_cases hx : x.file root = names
    · have hy : y.file root ≠ names := fun hy => h (hx.trans hy.symm)
      simp [hx, hy]
    · simp [List.filter_cons, hx]

end Reordering

namespace LogBook

variable {b : LogBook} {x : TimedRecording} {xs ys : List TimedRecording}

/-- The book after a record. -/
def record (b : LogBook) (x : TimedRecording) : LogBook :=
  ((b.step (.setClock x.time)).1.step x.recording.operation).1

/-- The book after some records. -/
def recordAll (b : LogBook) (xs : List TimedRecording) : LogBook :=
  (b.run (xs.flatMap TimedRecording.operations)).1

theorem recordAll_cons (b : LogBook) (x : TimedRecording) (xs : List TimedRecording) :
    b.recordAll (x :: xs) = (b.record x).recordAll xs := by
  have hrun (b : LogBook) (op : Operation) (ops : List Operation) :
      (b.run (op :: ops)).1 = ((b.step op).1.run ops).1 := rfl
  unfold recordAll record
  rw [List.flatMap_cons, TimedRecording.operations, List.cons_append, List.singleton_append, hrun,
    hrun]

/-- A book that can write some records: it is ready and its disk takes everything, the directories
are there, and none is in the place of a file. -/
structure ReadyFor (b : LogBook) (xs : List TimedRecording) : Prop where
  ready : b.ready = true
  sound : b.fault = none
  directories : ∀ c : Category, b.tree.node? (Partition.directory b.root c).names = some .dir
  files : ∀ x ∈ xs, b.tree.node? (x.file b.root) ≠ some .dir

/-! ## 2. Adding a line -/

/-- What stands at the path of an entry once its line was written. -/
def nodeWith (e : Entry) : Option Node → Option Node
  | none => some (.file (Utf8.encode e.partition.header ++ Utf8.encode e.line))
  | some (.file bytes) => some (.file (bytes ++ Utf8.encode e.line))
  | some .dir => some .dir

/-- No file turns into a directory. -/
theorem nodeWith_ne_dir {e : Entry} {n : Option Node} (h : n ≠ some .dir) :
    nodeWith e n ≠ some .dir := by
  rcases n with _ | ⟨bytes | _⟩
  · simp [nodeWith]
  · simp [nodeWith]
  · exact absurd rfl h

/-- **A line goes to its own file** where its partition can be opened. -/
theorem append_of_ready {e : Entry} (hready : b.ready = true) (hsound : b.fault = none)
    (hdir : b.tree.node? (Partition.directory b.root e.partition.category).names = some .dir)
    (hfile : b.tree.node? (e.partition.path b.root).names ≠ some .dir) :
    ∃ tree, b.append e.partition e.line = ({ b with tree }, .ok ()) ∧
      ∀ names, tree.node? names =
        if names = (e.partition.path b.root).names then nodeWith e (b.tree.node? names)
        else b.tree.node? names := by
  obtain ⟨tree, htree⟩ : ∃ tree, b.tree.log (e.partition.path b.root).names
      (b.entry e.partition e.line) = .ok tree := Tree.exists_log hdir hfile _
  have hgrows := Tree.log_grows htree
  refine ⟨tree, ?_, fun names => ?_⟩
  · unfold append written
    dsimp only
    rw [if_pos hready, hsound, WriteFault.taken_none]
    dsimp only
    rw [htree]
  · by_cases hnames : names = (e.partition.path b.root).names
    · subst hnames
      rw [if_pos rfl]
      rcases hgrows.self with ⟨hold, hnew⟩ | ⟨bytes, hold, hnew⟩ <;> rw [hnew, hold] <;> rfl
    · rw [if_neg hnames, hgrows.other names hnames]

/-! ## 3. One record -/

/-- A record has its entry once the clock is set. -/
theorem entryOf?_recording (b : LogBook) (x : TimedRecording) :
    x.recording.operation.entryOf? (b.step (.setClock x.time)).1 = some x.entry := by
  obtain ⟨time, recording⟩ := x
  cases recording <;> rfl

theorem record_place (b : LogBook) (x : TimedRecording) :
    (b.record x).root = b.root ∧ (b.record x).fault = b.fault :=
  (b.step (.setClock x.time)).1.step_place x.recording.operation

/-- A recording that could open its partition leaves the book as ready as it was. -/
theorem ready_of_opened {op : Operation} {e : Entry} (he : op.entryOf? b = some e)
    (hresult : ∀ path cause, (b.step op).2.result ≠ .error (.openFile path cause)) :
    (b.step op).1.ready = b.ready := by
  have hdecides : Call.decides ⟨b, op, (b.step op).2⟩ = false := by
    unfold Call.decides
    split
    · rename_i hop
      obtain rfl : op = .setUp := hop
      cases he
    · rename_i hop
      obtain rfl : op = .close := hop
      cases he
    · rename_i hopen
      exact absurd hopen (hresult _ _)
    · rfl
  have hstep := b.ready_step op
  dsimp only at hstep
  rw [hdecides] at hstep
  exact hstep

/-- **A record adds to its own file** and leaves the rest of the tree alone, and the book can go
on. -/
theorem ReadyFor.record (h : b.ReadyFor (x :: xs)) :
    (b.record x).ReadyFor xs ∧
      ∀ names, (b.record x).tree.node? names =
        if names = x.file b.root then nodeWith x.entry (b.tree.node? names)
        else b.tree.node? names := by
  obtain ⟨tree, happend, hnodes⟩ := append_of_ready (b := (b.step (.setClock x.time)).1)
    (e := x.entry) h.ready h.sound (h.directories _) (h.files x List.mem_cons_self)
  obtain ⟨htree, hresult⟩ := step_of_entry (b.entryOf?_recording x)
  rw [happend] at htree hresult
  have hnode : ∀ names, (b.record x).tree.node? names =
      if names = x.file b.root then nodeWith x.entry (b.tree.node? names)
      else b.tree.node? names :=
    fun names => (congrArg (Tree.node? · names) htree).trans (hnodes names)
  refine ⟨⟨?_, (b.record_place x).2.trans h.sound, fun c => ?_, fun y hy => ?_⟩, hnode⟩
  · -- Only an event whose partition cannot be opened closes the book.
    refine (ready_of_opened (b.entryOf?_recording x) fun path cause => ?_).trans h.ready
    rw [hresult]
    simp
  · rw [(b.record_place x).1, hnode, if_neg, h.directories]
    intro heq
    exact not_isPrefix_directory b.root x.entry.partition c (heq ▸ List.prefix_refl _)
  · rw [(b.record_place x).1, hnode]
    have hfree := h.files y (List.mem_cons_of_mem _ hy)
    -- The next records may go to the file that was written now, or to another.
    split
    · exact nodeWith_ne_dir hfree
    · exact hfree

/-- **A watering run counts its water at the station**, and no other record changes it. -/
theorem station_record (b : LogBook) (x : TimedRecording) :
    (b.record x).station =
      ((x.use? b.station).map fun u => (b.counters.use u).1.store b.station).getD b.station := by
  obtain ⟨time, recording⟩ := x
  unfold LogBook.record
  cases recording with
  | watering r => exact station_watering _ r
  | reading kind id value => exact station_of_records rfl fun _ => by simp [Recording.operation]
  | event severity message => exact station_of_records rfl fun _ => by simp [Recording.operation]

/-- A record counts its water, and leaves the number of zones and the flow rates alone. -/
theorem counters_record (b : LogBook) (x : TimedRecording) :
    (b.record x).counters = b.counters.useAll (x.use? b.station).toList ∧
      (b.record x).station.zones = b.station.zones ∧
      (b.record x).station.flowRates = b.station.flowRates := by
  have hstation := b.station_record x
  cases huse : x.use? b.station with
  | none =>
    rw [huse] at hstation
    unfold counters
    rw [hstation]
    exact ⟨rfl, rfl, rfl⟩
  | some u =>
    rw [huse] at hstation
    unfold counters
    rw [hstation]
    exact ⟨ofStation_store_apply _ _ _ _ rfl, rfl, rfl⟩

/-! ## 4. Any number of records -/

theorem root_recordAll (b : LogBook) (xs : List TimedRecording) : (b.recordAll xs).root = b.root :=
  b.root_run _

/-- **A file holds what its own records made of it**, in their order. -/
theorem node?_recordAll (h : b.ReadyFor xs) (names : List String) :
    (b.recordAll xs).tree.node? names =
      (xs.filter fun x => x.file b.root = names).foldl (fun n x => nodeWith x.entry n)
        (b.tree.node? names) := by
  induction xs generalizing b with
  | nil => rfl
  | cons x xs ih =>
    obtain ⟨hready, hnode⟩ := h.record
    rw [recordAll_cons, ih hready, (b.record_place x).1, hnode]
    by_cases hfile : x.file b.root = names
    · rw [List.filter_cons_of_pos (by simpa using hfile), List.foldl_cons, if_pos hfile.symm]
    · rw [List.filter_cons_of_neg (by simpa using hfile), if_neg (Ne.symm hfile)]

/-- **The counters take the water of all runs**, in their order. -/
theorem counters_recordAll (b : LogBook) (xs : List TimedRecording) :
    (b.recordAll xs).counters =
        b.counters.useAll (xs.filterMap (TimedRecording.use? b.station)) ∧
      (b.recordAll xs).station.zones = b.station.zones := by
  induction xs generalizing b with
  | nil => exact ⟨rfl, rfl⟩
  | cons x xs ih =>
    obtain ⟨hcounters, hzones, hrates⟩ := b.counters_record x
    obtain ⟨hrest, hkept⟩ := ih (b.record x)
    rw [recordAll_cons, hrest, hcounters, TimedRecording.use?_congr hrates, hkept, hzones,
      ← WaterCounter.useAll_append]
    refine ⟨congrArg b.counters.useAll ?_, rfl⟩
    rw [List.filterMap_cons]
    cases x.use? b.station <;> rfl

end LogBook

/-! ## 5. Questions -/

namespace LogTree

/-- Log trees with the same zones and the same in every partition. -/
structure Alike (t u : LogTree) : Prop where
  zones : t.zones = u.zones
  partitions : ∀ p, t.open? p = u.open? p

namespace Alike

variable {t u : LogTree}

theorem scanZone (h : Alike t u) (zone : UInt8) (range : DayRange) :
    t.scanZone zone range = u.scanZone zone range := by
  unfold LogTree.scanZone
  rw [h.partitions]

theorem scanSensor (h : Alike t u) (kind : Sensor) (id : UInt16) (month : UInt8)
    (range : DayRange) : t.scanSensor kind id month range = u.scanSensor kind id month range := by
  unfold LogTree.scanSensor
  rw [h.partitions]

theorem zoneList (h : Alike t u) : t.zoneList = u.zoneList := by
  unfold LogTree.zoneList
  rw [h.zones]

theorem chartPieces (h : Alike t u) (range : DayRange) (grouping : Grouping) (first : Bool)
    (zones : List UInt8) :
    t.chartPieces range grouping first zones = u.chartPieces range grouping first zones := by
  induction zones generalizing first with
  | nil => rfl
  | cons zone zones ih =>
    unfold LogTree.chartPieces LogTree.zoneBins
    simp only [h.scanZone, ih]

theorem tablePieces (h : Alike t u) (range : DayRange) (first : Bool) (zones : List UInt8) :
    t.tablePieces range first zones = u.tablePieces range first zones := by
  induction zones generalizing first with
  | nil => rfl
  | cons zone zones ih =>
    unfold LogTree.tablePieces
    simp only [h.scanZone, ih]

theorem forEachPoint {σ ε : Type} (h : Alike t u) (kind : Sensor) (id : UInt16) (range : DayRange)
    (summary : Summary) (receive : σ → SeriesPoint → Except ε σ) (s : σ) :
    t.forEachPoint kind id range summary receive s =
      u.forEachPoint kind id range summary receive s := by
  rw [forEachPoint_eq, forEachPoint_eq]
  unfold LogTree.seriesPoints
  simp only [h.scanSensor]

/-- **A question sees nothing but what is in the partitions.** -/
theorem answer (h : Alike t u) (q : Query) : t.answer q = u.answer q := by
  cases q with
  | chart range grouping =>
    unfold LogTree.answer LogTree.chart
    simp only [h.zoneList, h.chartPieces]
  | table range =>
    unfold LogTree.answer LogTree.table
    simp only [h.zoneList, h.tablePieces]
  | series kind id range summary =>
    unfold LogTree.answer LogTree.series
    simp only [h.forEachPoint]

end Alike

end LogTree

/-! ## 6. Two orders -/

namespace LogBook

variable {b : LogBook} {xs ys : List TimedRecording}

/-- Another order of some records needs the same partitions. -/
theorem ReadyFor.of_reordering (h : b.ReadyFor xs) (hxs : Reordering b.root xs ys) :
    b.ReadyFor ys :=
  ⟨h.ready, h.sound, h.directories, fun y hy => h.files y (hxs.perm.symm.subset hy)⟩

/-- Two orders of some records leave the same nodes. -/
theorem node?_reordered (h : b.ReadyFor xs) (hxs : Reordering b.root xs ys)
    (names : List String) :
    (b.recordAll xs).tree.node? names = (b.recordAll ys).tree.node? names := by
  rw [node?_recordAll h, node?_recordAll (h.of_reordering hxs), hxs.same_file names]

/-- Two orders of some records leave log trees that are alike. -/
theorem alike_reordered (h : b.ReadyFor xs) (hxs : Reordering b.root xs ys) :
    (b.recordAll xs).logTree.Alike (b.recordAll ys).logTree := by
  constructor
  · change (b.recordAll xs).station.numberOfZones = (b.recordAll ys).station.numberOfZones
    unfold Station.numberOfZones
    rw [(b.counters_recordAll xs).2, (b.counters_recordAll ys).2]
  · intro p
    rw [open?_eq, open?_eq]
    change ((b.recordAll xs).tree.node? (p.path (b.recordAll xs).root).names).map _ =
      ((b.recordAll ys).tree.node? (p.path (b.recordAll ys).root).names).map _
    rw [root_recordAll, root_recordAll, node?_reordered h hxs]

/-- **Records of different files commute.**  In any order that keeps the order within each file,
the same records leave the same tree, so that every question has the same answer; and where the
dates of the watering runs go back in neither order, the counters hold the same, too. -/
theorem recordAll_reordered (h : b.ReadyFor xs) (hxs : Reordering b.root xs ys) :
    (∀ names, (b.recordAll xs).tree.node? names = (b.recordAll ys).tree.node? names) ∧
    (∀ zone range, (b.recordAll xs).logTree.scanZone zone range =
      (b.recordAll ys).logTree.scanZone zone range) ∧
    (∀ kind id month range, (b.recordAll xs).logTree.scanSensor kind id month range =
      (b.recordAll ys).logTree.scanSensor kind id month range) ∧
    (∀ q cause room, (b.recordAll xs).logTree.writeAnswer q cause room =
      (b.recordAll ys).logTree.writeAnswer q cause room) ∧
    ((xs.filterMap TimedRecording.wateringDate?).Pairwise (· ≤ ·) →
      (ys.filterMap TimedRecording.wateringDate?).Pairwise (· ≤ ·) →
      (b.recordAll xs).station.weekdayCounters = (b.recordAll ys).station.weekdayCounters ∧
      (b.recordAll xs).station.lifetime = (b.recordAll ys).station.lifetime ∧
      (b.recordAll xs).station.counterDate.map DateTime.date =
        (b.recordAll ys).station.counterDate.map DateTime.date) := by
  have halike := alike_reordered h hxs
  refine ⟨node?_reordered h hxs, halike.scanZone, halike.scanSensor, fun q cause room => ?_,
    fun hxdates hydates => ?_⟩
  · unfold LogTree.writeAnswer
    rw [halike.answer]
  · rw [← TimedRecording.map_date_use? b.station] at hxdates hydates
    have hsame := WaterCounter.sameDay_useAll (hxs.perm.filterMap _) hxdates hydates b.counters
    rw [← (b.counters_recordAll xs).1, ← (b.counters_recordAll ys).1] at hsame
    exact ⟨hsame.weekday, hsame.lifetime, hsame.date⟩

/-- A book that was set up, with two zones of the same flow rate. -/
def twoZones : LogBook := { blank with station := .uniform 2 600 }.setUp.1

/-- A run of the first zone, counted an hour after the start of the count. -/
def atOne : TimedRecording := ⟨{ DateTime.epoch with
  time := { TimeOfDay.midnight with hour := 1, hour_lt := by decide } }, .watering firstRun⟩

/-- A run of the second zone, counted at the start of the count. -/
def atMidnight : TimedRecording := ⟨.epoch, .watering { firstRun with zone := 2 }⟩

/-- An event between them. -/
def between : TimedRecording := ⟨.epoch, .event .info "up"⟩

/-- The run of the second zone may come first: both runs are counted, and only the time of the fold
tells the order. -/
theorem recordAll_reordered_of_twoZones :
    let xs := [atOne, between, atMidnight]
    let ys := [atMidnight, atOne, between]
    twoZones.ReadyFor xs ∧ Reordering twoZones.root xs ys ∧
    (xs.filterMap TimedRecording.wateringDate?).Pairwise (· ≤ ·) ∧
    (ys.filterMap TimedRecording.wateringDate?).Pairwise (· ≤ ·) ∧
    (twoZones.recordAll xs).tree.node? (between.file twoZones.root) ≠ none ∧
    (twoZones.recordAll xs).tree.node? (between.file twoZones.root) =
      (twoZones.recordAll ys).tree.node? (between.file twoZones.root) ∧
    (twoZones.recordAll xs).station.weekdayCounters =
      (twoZones.recordAll ys).station.weekdayCounters ∧
    (twoZones.recordAll xs).station.counterDate ≠ (twoZones.recordAll ys).station.counterDate := by
  intro xs ys
  have hready : twoZones.ReadyFor xs := by
    refine ⟨by decide +kernel, by decide +kernel, fun c => ?_, by decide +kernel⟩
    cases c <;> decide +kernel
  have hxs : Reordering twoZones.root xs ys := by
    have hbetween : between.file twoZones.root ≠ atMidnight.file twoZones.root := by
      decide +kernel
    have hzones : atOne.file twoZones.root ≠ atMidnight.file twoZones.root := by decide +kernel
    exact (Reordering.cons atOne (Reordering.swap hbetween [])).trans
      (Reordering.swap hzones [between])
  have hxdates : (xs.filterMap TimedRecording.wateringDate?).Pairwise (· ≤ ·) := by decide +kernel
  have hydates : (ys.filterMap TimedRecording.wateringDate?).Pairwise (· ≤ ·) := by decide +kernel
  obtain ⟨hnodes, -, -, -, hcounters⟩ := recordAll_reordered hready hxs
  exact ⟨hready, hxs, hxdates, hydates, by decide +kernel, hnodes _,
    (hcounters hxdates hydates).1, by decide +kernel⟩

end LogBook

end IrrigationLog
