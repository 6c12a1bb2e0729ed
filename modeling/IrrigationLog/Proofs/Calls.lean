/-
# What a run records

A run is judged by its calls: on which book each operation was carried out and what it gave
back.  A recording that succeeds leaves an `Entry`, which knows the partition it belongs to and
the line it is written as; every other call leaves nothing.

* `LogBook.append_cases` says **all that adding a line can do**: it fails and the book is the same,
  or it extends the file of its partition, by the whole of what was to be written, or by a
  beginning of it on a disk that fails.
* `LogBook.grows_of_recorded` and `LogBook.node?_of_not_recorded` lift this to operations: the
  file of an entry grows by its line, and nothing else happens to any file.
* `LogBook.node?_run_of_absent` is **the file that a run leaves** where there was none: the
  header and the lines of its entries, in the order of the calls.  `LogBook.open?_run` says
  the same of what a query opens.
-/
import IrrigationLog.LogBook.Step
import IrrigationLog.Proofs.PartitionNames
import IrrigationLog.Proofs.TreeFrame

namespace IrrigationLog

/-! ## 1. Entries -/

/-- What a recording leaves in the log. -/
inductive Entry where
  | watering (r : WateringRun)
  | reading (kind : Sensor) (id : UInt16) (r : Reading)
  | event (time : DateTime) (severity : Severity) (message : List Char)

namespace Entry

/-- The partition that an entry belongs to. -/
def partition : Entry → Partition
  | watering r => .watering r.start.date.year r.zone.toNat
  | reading kind id r => .sensor kind r.time.date.month r.time.date.year id.toNat
  | event time .. => .system time.date.month time.date.year

/-- The line that an entry is written as. -/
def line : Entry → List Char
  | watering r => (WateringLine.ofRun r).text
  | reading _ _ r => (SensorLine.ofReading r).text
  | event time severity message => systemLine time severity message

/-- No line is empty. -/
theorem line_ne_nil (e : Entry) : e.line ≠ [] := by
  cases e with
  | watering r => simp [line, WateringLine.text]
  | reading kind id r => simp [line, SensorLine.text]
  | event time severity message => simp [line, systemLine]

/-- The line of an entry, if it goes to the file of a partition. -/
def lineIn? (root : Path) (q : Partition) (e : Entry) : Option (List Char) :=
  if (e.partition.path root).names = (q.path root).names then some e.line else none

end Entry

/-- What an operation on a book would record. -/
def Operation.entryOf? (b : LogBook) : Operation → Option Entry
  | .watering r => some (.watering r)
  | .sensor code id value =>
    match Sensor.ofCode code with
    | .ok kind => some (.reading kind id ⟨b.now, value⟩)
    | .error _ => none
  | .reading kind id value => some (.reading kind id ⟨b.now, value⟩)
  | .event severity message => some (.event b.now severity (trimMessage message.toList))
  | _ => none

/-- A call: an operation, the book it was carried out on, and what it gave back. -/
structure Call where
  book : LogBook
  operation : Operation
  outcome : Outcome

/-- What a call recorded, if it succeeded. -/
def Call.recorded? (c : Call) : Option Entry :=
  match c.outcome.result with
  | .ok () => c.operation.entryOf? c.book
  | .error _ => none

namespace LogBook

/-- A book on an empty tree, its clock at the start of the count. -/
def blank : LogBook := { tree := .dir [], root := ⟨"/", []⟩, clock := ⟨0⟩ }

/-- The calls of a run. -/
def calls (b : LogBook) : List Operation → List Call
  | [] => []
  | op :: ops => ⟨b, op, (b.step op).2⟩ :: (b.step op).1.calls ops

/-- The entries that a run records, in the order of the calls. -/
def entries (b : LogBook) (ops : List Operation) : List Entry :=
  (b.calls ops).filterMap Call.recorded?

/-! ## 2. Adding a line -/

variable {b : LogBook} {p : Partition} {line : List Char}

/-- The disk takes what is to be written, or cuts it short. -/
theorem written_cases (b : LogBook) (bytes : List UInt8) :
    b.written bytes = (bytes, .ok ()) ∨
      ∃ part cause, b.written bytes = (part, .error (.output cause)) ∧
        WriteFault.Cuts b.fault bytes part := by
  unfold written
  rcases WriteFault.taken_cases b.fault bytes with heq | ⟨part, cause, heq, hcuts⟩
  · rw [heq]
    exact Or.inl rfl
  · rw [heq]
    exact Or.inr ⟨part, cause, rfl, hcuts⟩

/-- **What adding a line can do.**  The book is not ready, or the partition cannot be opened, and
the book stays the same; or the file of the partition gets the line, behind the header if it is
new; or it gets a beginning of that, where the disk takes no more. -/
theorem append_cases (b : LogBook) (p : Partition) (line : List Char) :
    (b.ready = false ∧ b.append p line = (b, .error .notReady)) ∨
    (∃ cause, b.ready = true ∧ b.append p line = (b, .error (.openFile (p.path b.root) cause))) ∨
    (∃ tree, b.append p line = ({ b with tree }, .ok ()) ∧
      b.tree.Grows tree (p.path b.root).names (Utf8.encode p.header) (Utf8.encode line)) ∨
    ∃ tree part cause, b.append p line = ({ b with tree }, .error (.output cause)) ∧
      WriteFault.Cuts b.fault (b.entry p line) part ∧
      b.tree.Grows tree (p.path b.root).names [] part := by
  unfold append
  cases hready : b.ready with
  | false => exact Or.inl ⟨rfl, rfl⟩
  | true =>
    rw [if_pos rfl]
    rcases b.written_cases (b.entry p line) with heq | ⟨part, cause, heq, hcuts⟩
    · rw [heq]
      dsimp only
      cases hlog : b.tree.log (p.path b.root).names (b.entry p line) with
      | error cause => exact Or.inr (Or.inl ⟨cause, rfl, rfl⟩)
      | ok tree => exact Or.inr (Or.inr (Or.inl ⟨tree, rfl, Tree.log_grows hlog⟩))
    · rw [heq]
      dsimp only
      cases hlog : b.tree.log (p.path b.root).names part with
      | error cause => exact Or.inr (Or.inl ⟨cause, rfl, rfl⟩)
      | ok tree =>
        have hplain : b.tree.log (p.path b.root).names
            ((if b.tree.occupied (p.path b.root).names then [] else []) ++ part) = .ok tree := by
          rw [ite_self]
          exact hlog
        exact Or.inr (Or.inr (Or.inr ⟨tree, part, cause, rfl, hcuts, Tree.log_grows hplain⟩))

/-- **A line that was added stands at the end of its file**, on any disk. -/
theorem grows_of_append_ok (hok : (b.append p line).2 = .ok ()) :
    b.tree.Grows (b.append p line).1.tree (p.path b.root).names (Utf8.encode p.header)
      (Utf8.encode line) := by
  rcases b.append_cases p line with
    ⟨-, heq⟩ | ⟨cause, -, heq⟩ | ⟨tree, heq, hgrows⟩ | ⟨tree, part, cause, heq, -⟩ <;>
    rw [heq] at hok ⊢
  · cases hok
  · cases hok
  · exact hgrows
  · cases hok

/-- A line that was not added leaves a disk without a fault as it was. -/
theorem append_of_error {e : StoreError} (h : b.fault = none)
    (herr : (b.append p line).2 = .error e) : (b.append p line).1 = b := by
  rcases b.append_cases p line with
    ⟨-, heq⟩ | ⟨cause, -, heq⟩ | ⟨tree, heq, hgrows⟩ | ⟨tree, part, cause, heq, hcuts, -⟩
  · rw [heq]
  · rw [heq]
  · rw [heq] at herr
    cases herr
  · rw [h] at hcuts
    exact absurd hcuts (WriteFault.not_cuts_none _ _)

/-- Whatever becomes of a line, the tree is all that it changes. -/
theorem append_fst (b : LogBook) (p : Partition) (line : List Char) :
    (b.append p line).1 = { b with tree := (b.append p line).1.tree } := by
  unfold append
  dsimp only
  split
  · cases b.tree.log (p.path b.root).names (b.written (b.entry p line)).1 <;> rfl
  · rfl

/-- The settings have no part in adding a line. -/
theorem append_of_station (b : LogBook) (s : Station) (p : Partition) (line : List Char) :
    ({ b with station := s } : LogBook).append p line =
      ({ (b.append p line).1 with station := s }, (b.append p line).2) := by
  have hwritten : ({ b with station := s } : LogBook).written
      (({ b with station := s } : LogBook).entry p line) = b.written (b.entry p line) := rfl
  unfold append
  dsimp only
  rw [hwritten]
  by_cases hready : b.ready = true
  · rw [if_pos hready, if_pos hready]
    cases b.tree.log (p.path b.root).names (b.written (b.entry p line)).1 <;> rfl
  · rw [if_neg hready, if_neg hready]

/-- An event is written like any other line; the book that is left may be closed. -/
theorem recordEvent_eq (b : LogBook) (severity : Severity) (message : String) :
    ∃ ready announcement, b.recordEvent severity message =
      let written := b.append (.system b.now.date.month b.now.date.year)
        (systemLine b.now severity (trimMessage message.toList))
      ({ written.1 with ready }, written.2, announcement) := by
  unfold recordEvent
  dsimp only
  split
  · rename_i b' heq
    exact ⟨b'.ready, _, by rw [heq]⟩
  · rename_i b' heq
    exact ⟨b'.ready, _, by rw [heq]⟩
  · rename_i b' cause heq
    exact ⟨b'.ready, _, by rw [heq]⟩
  · rename_i b' e _ _ heq
    exact ⟨false, _, by rw [heq]; rfl⟩

/-! ## 3. One operation -/

section Codes

variable {code : UInt8}

/-- A reading under the code of a kind is a reading of that kind. -/
theorem step_sensor_of_ok {kind : Sensor} (hcode : Sensor.ofCode code = .ok kind) (b : LogBook)
    (id : UInt16) (value : Int32) :
    b.step (.sensor code id value) = b.step (.reading kind id value) := by
  simp only [step, recordSensor, hcode]

/-- A code that no kind has is refused. -/
theorem step_sensor_of_error {e : VocabularyError} (hcode : Sensor.ofCode code = .error e)
    (b : LogBook) (id : UInt16) (value : Int32) :
    b.step (.sensor code id value) = (b, { result := .error (.unsupportedSensor code) }) := by
  simp only [step, recordSensor, hcode]

theorem entryOf?_sensor_of_ok {kind : Sensor} (hcode : Sensor.ofCode code = .ok kind)
    (b : LogBook) (id : UInt16) (value : Int32) :
    (Operation.sensor code id value).entryOf? b = (Operation.reading kind id value).entryOf? b := by
  simp only [Operation.entryOf?, hcode]

theorem entryOf?_sensor_of_error {e : VocabularyError} (hcode : Sensor.ofCode code = .error e)
    (b : LogBook) (id : UInt16) (value : Int32) :
    (Operation.sensor code id value).entryOf? b = none := by
  simp only [Operation.entryOf?, hcode]

end Codes

/-- What setting up does, without a case for each result. -/
theorem setUp_eq (b : LogBook) :
    b.setUp =
      ({ b with tree := (makeCategories b.root b.tree Category.all).1
                ready := (makeCategories b.root b.tree Category.all).2.isNone },
        match (makeCategories b.root b.tree Category.all).2 with
        | none => .ok ()
        | some e => .error e) := by
  unfold setUp
  rcases makeCategories b.root b.tree Category.all with ⟨tree, _ | e⟩ <;> rfl

/-- The place of a book and its disk stay what they are. -/
theorem step_place (b : LogBook) (op : Operation) :
    (b.step op).1.root = b.root ∧ (b.step op).1.fault = b.fault := by
  have happend (b : LogBook) (p : Partition) (line : List Char) :
      (b.append p line).1.root = b.root ∧ (b.append p line).1.fault = b.fault := by
    rw [append_fst]
    exact ⟨rfl, rfl⟩
  cases op with
  | setUp =>
    change b.setUp.1.root = b.root ∧ b.setUp.1.fault = b.fault
    rw [setUp_eq]
    exact ⟨rfl, rfl⟩
  | watering r => exact happend (b.countWater r) _ _
  | sensor code id value =>
    cases hcode : Sensor.ofCode code with
    | ok kind =>
      rw [step_sensor_of_ok hcode]
      exact happend b _ _
    | error e =>
      rw [step_sensor_of_error hcode]
      exact ⟨rfl, rfl⟩
  | reading kind id value => exact happend b _ _
  | event severity message =>
    obtain ⟨ready, announcement, heq⟩ := b.recordEvent_eq severity message
    change (b.recordEvent severity message).1.root = b.root ∧
      (b.recordEvent severity message).1.fault = b.fault
    rw [heq]
    exact happend b _ _
  | close | setClock | advanceClock | setLimits | replaceStation | query => exact ⟨rfl, rfl⟩

/-- **An operation with an entry adds the line of it** and does nothing else to the tree. -/
theorem step_of_entry {op : Operation} {e : Entry} (he : op.entryOf? b = some e) :
    (b.step op).1.tree = (b.append e.partition e.line).1.tree ∧
      (b.step op).2.result = (b.append e.partition e.line).2 := by
  cases op with
  | watering r =>
    cases he
    have heq := b.append_of_station (b.countWater r).station
      (.watering r.start.date.year r.zone.toNat) (WateringLine.ofRun r).text
    exact ⟨congrArg (·.1.tree) heq, congrArg (·.2) heq⟩
  | sensor code id value =>
    cases hcode : Sensor.ofCode code with
    | ok kind =>
      rw [entryOf?_sensor_of_ok hcode] at he
      rw [step_sensor_of_ok hcode]
      cases he
      exact ⟨rfl, rfl⟩
    | error e' =>
      rw [entryOf?_sensor_of_error hcode] at he
      cases he
  | reading kind id value =>
    cases he
    exact ⟨rfl, rfl⟩
  | event severity message =>
    cases he
    obtain ⟨ready, announcement, heq⟩ := b.recordEvent_eq severity message
    change (b.recordEvent severity message).1.tree = _ ∧
      (b.recordEvent severity message).2.1 = _
    rw [heq]
    exact ⟨rfl, rfl⟩
  | setUp | close | setClock | advanceClock | setLimits | replaceStation | query => cases he

/-- An operation without an entry leaves the tree alone, unless it sets the book up. -/
theorem step_of_no_entry {op : Operation} (he : op.entryOf? b = none) (hop : op ≠ .setUp) :
    (b.step op).1.tree = b.tree := by
  cases op with
  | setUp => exact absurd rfl hop
  | sensor code id value =>
    cases hcode : Sensor.ofCode code with
    | ok kind =>
      rw [entryOf?_sensor_of_ok hcode] at he
      cases he
    | error e => rw [step_sensor_of_error hcode]
  | watering | reading | event => cases he
  | close | setClock | advanceClock | setLimits | replaceStation | query => rfl

/-! ## 4. Setting up -/

/-- **What becomes of a category**: its directory is there already, or can be made, or cannot. -/
theorem makeCategory_cases (root : Path) (t : Tree) (c : Category) :
    let directory := Partition.directory root c
    (t.isDir directory.names = true ∧ makeCategory root t c = .ok t) ∨
      (∃ u, t.makeDirs directory.names = .ok u ∧ makeCategory root t c = .ok u) ∨
      ∃ cause, t.makeDirs directory.names = .error cause ∧
        makeCategory root t c = .error (.createDirectory directory cause) := by
  unfold makeCategory
  dsimp only
  split
  · exact Or.inl ⟨‹_›, rfl⟩
  · split
    · exact Or.inr (Or.inl ⟨_, ‹_›, rfl⟩)
    · exact Or.inr (Or.inr ⟨_, ‹_›, rfl⟩)

/-- Making the directory of a category adds directories along its path. -/
theorem node?_makeCategory {root : Path} {t u : Tree} {c : Category}
    (h : makeCategory root t c = .ok u) (path : List String) :
    u.node? path = t.node? path ∨
      path <+: (Partition.directory root c).names ∧ t.node? path = none ∧
        u.node? path = some .dir := by
  rcases makeCategory_cases root t c with ⟨-, heq⟩ | ⟨v, hmade, heq⟩ | ⟨cause, -, heq⟩
  · obtain rfl := Except.ok.inj (heq.symm.trans h)
    exact Or.inl rfl
  · obtain rfl := Except.ok.inj (heq.symm.trans h)
    exact Tree.node?_makeDirs hmade path
  · cases heq.symm.trans h

/-- Making the directories of categories adds directories along their paths. -/
theorem node?_makeCategories (root : Path) (t : Tree) (cs : List Category) (path : List String) :
    (makeCategories root t cs).1.node? path = t.node? path ∨
      (∃ c, path <+: (Partition.directory root c).names) ∧ t.node? path = none ∧
        (makeCategories root t cs).1.node? path = some .dir := by
  induction cs generalizing t with
  | nil => exact Or.inl rfl
  | cons c cs ih =>
    unfold makeCategories
    split
    · rename_i u hmade
      rcases node?_makeCategory hmade path with hsame | ⟨hpre, hnone, hdir⟩
      · rw [← hsame]
        exact ih u
      · rcases ih u with hkept | ⟨-, hfree, -⟩
        · exact Or.inr ⟨⟨c, hpre⟩, hnone, hkept.trans hdir⟩
        · rw [hdir] at hfree
          cases hfree
    · exact ih t

/-- **Setting up adds directories** and nothing else. -/
theorem node?_setUp (b : LogBook) (path : List String) :
    (b.step .setUp).1.tree.node? path = b.tree.node? path ∨
      (∃ c, path <+: (Partition.directory b.root c).names) ∧ b.tree.node? path = none ∧
        (b.step .setUp).1.tree.node? path = some .dir := by
  change b.setUp.1.tree.node? path = _ ∨ _ ∧ _ ∧ b.setUp.1.tree.node? path = _
  rw [setUp_eq]
  exact node?_makeCategories b.root b.tree Category.all path

/-- No file of a partition is on the way to the directory of a category. -/
theorem not_isPrefix_directory (root : Path) (q : Partition) (c : Category) :
    ¬ (q.path root).names <+: (Partition.directory root c).names := by
  intro hp
  have hlen := hp.length_le
  simp only [Partition.names_path, Partition.directory, Path.names_join, List.length_append,
    List.length_cons, List.length_nil] at hlen
  omega

/-! ## 5. What one operation records -/

variable {q : Partition} {root : Path} {op : Operation} {e : Entry}

/-- **The file of a recorded entry grows by its line.** -/
theorem grows_of_recorded (hrec : (Call.mk b op (b.step op).2).recorded? = some e) :
    b.tree.Grows (b.step op).1.tree (e.partition.path b.root).names
      (Utf8.encode e.partition.header) (Utf8.encode e.line) := by
  unfold Call.recorded? at hrec
  split at hrec
  · rename_i hok
    obtain ⟨htree, hres⟩ := step_of_entry hrec
    change (b.step op).2.result = .ok () at hok
    rw [hok] at hres
    rw [htree]
    exact grows_of_append_ok hres.symm
  · cases hrec

/-- A call that has an entry and records nothing changes nothing. -/
theorem tree_of_not_recorded (h : b.fault = none) (he : op.entryOf? b = some e)
    (hrec : (Call.mk b op (b.step op).2).recorded? = none) : (b.step op).1.tree = b.tree := by
  obtain ⟨htree, hres⟩ := step_of_entry he
  cases happend : (b.append e.partition e.line).2 with
  | error e' => rw [htree, append_of_error h happend]
  | ok _ =>
    simp only [Call.recorded?, hres.trans happend, he] at hrec
    cases hrec

/-- **A call that records nothing touches no partition.** -/
theorem node?_of_not_recorded (h : b.fault = none)
    (hrec : (Call.mk b op (b.step op).2).recorded? = none) (q : Partition) :
    (b.step op).1.tree.node? (q.path b.root).names = b.tree.node? (q.path b.root).names := by
  cases he : op.entryOf? b with
  | none =>
    by_cases hop : op = .setUp
    · subst hop
      rcases b.node?_setUp (q.path b.root).names with hsame | ⟨⟨c, hp⟩, -⟩
      · exact hsame
      · exact absurd hp (not_isPrefix_directory b.root q c)
    · rw [step_of_no_entry he hop]
  | some e => rw [tree_of_not_recorded h he hrec]

/-! ## 6. The file that a run leaves -/

/-- The lines that a run adds to the file of a partition. -/
def linesIn (b : LogBook) (ops : List Operation) (root : Path) (q : Partition) :
    List (List Char) :=
  (b.entries ops).filterMap (Entry.lineIn? root q)

/-- The lines of a run are those of its first operation and those of the others. -/
theorem linesIn_cons (b : LogBook) (op : Operation) (ops : List Operation) (root : Path)
    (q : Partition) :
    b.linesIn (op :: ops) root q =
      (((Call.mk b op (b.step op).2).recorded?.bind (Entry.lineIn? root q)).toList) ++
        (b.step op).1.linesIn ops root q := by
  unfold linesIn entries
  rw [calls, List.filterMap_cons]
  cases (Call.mk b op (b.step op).2).recorded? with
  | none => rfl
  | some e =>
    rw [List.filterMap_cons, Option.bind_some]
    cases e.lineIn? root q <;> rfl

/-- One operation adds nothing to a file, or makes it with its header and one line, or has one
line at its end. -/
theorem node?_step (h : b.fault = none) (hroot : b.root = root) (op : Operation)
    (q : Partition) :
    ((Call.mk b op (b.step op).2).recorded?.bind (Entry.lineIn? root q) = none ∧
      (b.step op).1.tree.node? (q.path root).names = b.tree.node? (q.path root).names) ∨
    ∃ line, (Call.mk b op (b.step op).2).recorded?.bind (Entry.lineIn? root q) = some line ∧
      (b.tree.node? (q.path root).names = none ∧
        (b.step op).1.tree.node? (q.path root).names
          = some (.file (Utf8.encode q.header ++ Utf8.encode line)) ∨
      ∃ bytes, b.tree.node? (q.path root).names = some (.file bytes) ∧
        (b.step op).1.tree.node? (q.path root).names
          = some (.file (bytes ++ Utf8.encode line))) := by
  subst hroot
  cases hrec : (Call.mk b op (b.step op).2).recorded? with
  | none => exact Or.inl ⟨rfl, node?_of_not_recorded h hrec q⟩
  | some e =>
    have hgrows := grows_of_recorded hrec
    rw [Option.bind_some, Entry.lineIn?]
    by_cases hnames : (e.partition.path b.root).names = (q.path b.root).names
    · rw [if_pos hnames]
      rw [hnames, Partition.header_eq_of_names_path_eq hnames] at hgrows
      exact Or.inr ⟨e.line, rfl, hgrows.self⟩
    · rw [if_neg hnames]
      exact Or.inl ⟨rfl, hgrows.other _ (Ne.symm hnames)⟩

/-- A file that is there has the lines of a run at its end. -/
theorem node?_run_of_file (h : b.fault = none) (hroot : b.root = root) {bytes : List UInt8}
    (hn : b.tree.node? (q.path root).names = some (.file bytes)) (ops : List Operation) :
    (b.run ops).1.tree.node? (q.path root).names
      = some (.file (bytes ++ Utf8.encode (b.linesIn ops root q).flatten)) := by
  induction ops generalizing b bytes with
  | nil => simpa [linesIn, entries, calls, run, Utf8.encode] using hn
  | cons op ops ih =>
    obtain ⟨hroot', hfault⟩ := b.step_place op
    have ih := @ih (b.step op).1 (hfault.trans h) (hroot'.trans hroot)
    change ((b.step op).1.run ops).1.tree.node? _ = _
    rw [linesIn_cons]
    rcases node?_step h hroot op q with ⟨hline, hsame⟩ | ⟨line, hline, ⟨hfree, -⟩ | hmore⟩
    · rw [hline, ih (hsame.trans hn)]
      rfl
    · rw [hn] at hfree
      cases hfree
    · obtain ⟨old, hold, hnew⟩ := hmore
      rw [hn] at hold
      cases hold
      rw [hline, ih hnew, Option.toList_some, List.singleton_append, List.flatten_cons,
        Utf8.encode_append, List.append_assoc]

/-- **The file that a run leaves** where there was none. -/
theorem node?_run_of_absent (h : b.fault = none) (hroot : b.root = root)
    (hn : b.tree.node? (q.path root).names = none) (ops : List Operation) :
    (b.run ops).1.tree.node? (q.path root).names =
      if b.linesIn ops root q = [] then none
      else some (.file (Utf8.encode (q.header ++ (b.linesIn ops root q).flatten))) := by
  induction ops generalizing b with
  | nil => exact hn
  | cons op ops ih =>
    obtain ⟨hroot', hfault⟩ := b.step_place op
    have ih := @ih (b.step op).1 (hfault.trans h) (hroot'.trans hroot)
    change ((b.step op).1.run ops).1.tree.node? _ = _
    rw [linesIn_cons]
    rcases node?_step h hroot op q with ⟨hline, hsame⟩ | ⟨line, hline, ⟨-, hnew⟩ | hmore⟩
    · rw [hline]
      exact ih (hsame.trans hn)
    · rw [hline, node?_run_of_file (hfault.trans h) (hroot'.trans hroot) hnew, if_neg (by simp),
        Option.toList_some, List.singleton_append, List.flatten_cons, Utf8.encode_append,
        Utf8.encode_append, List.append_assoc]
    · obtain ⟨bytes, hold, -⟩ := hmore
      rw [hn] at hold
      cases hold

/-- A run ends with a book at the place at which it started. -/
theorem root_run (b : LogBook) (ops : List Operation) : (b.run ops).1.root = b.root := by
  induction ops generalizing b with
  | nil => rfl
  | cons op ops ih => exact (ih (b.step op).1).trans (b.step_place op).1

/-- A partition is opened as the node at its path tells. -/
theorem open?_eq (t : LogTree) (q : Partition) :
    t.open? q = (t.tree.node? (q.path t.root).names).map fun
      | .file bytes => bytes
      | .dir => [] := by
  unfold LogTree.open? Tree.node?
  split
  · rename_i hfind
    rw [hfind]
    rfl
  · rename_i hfind
    rw [hfind]
    rfl
  · rename_i hfind
    rw [hfind]
    rfl

/-- **What a query opens after a run** that started without the partition. -/
theorem open?_run (h : b.fault = none) (habsent : b.tree.find? (q.path b.root).names = none)
    (ops : List Operation) :
    (b.run ops).1.logTree.open? q =
      if b.linesIn ops b.root q = [] then none
      else some (Utf8.encode (q.header ++ (b.linesIn ops b.root q).flatten)) := by
  have hnode := node?_run_of_absent h rfl (Tree.node?_eq_none_iff.mpr habsent) ops
  rw [open?_eq]
  change ((b.run ops).1.tree.node? (q.path (b.run ops).1.root).names).map _ = _
  rw [root_run, hnode]
  split <;> rfl

/-- The lines of a run in a file, told from the records that they were made of. -/
theorem linesIn_eq_map {ρ : Type} {record? : Entry → Option ρ} {text : ρ → List Char}
    (hline : ∀ e : Entry, e.lineIn? root q = (record? e).map text) (b : LogBook)
    (ops : List Operation) :
    b.linesIn ops root q = ((b.entries ops).filterMap record?).map text := by
  rw [linesIn, List.map_filterMap]
  exact congrArg (fun f => (b.entries ops).filterMap f) (funext hline)

end LogBook

end IrrigationLog
