/-
# The system log

An event is logged as its day, its time, its code and its message, with commas between them and
a line feed at the end.  The first three hold no comma, so the message may hold as many as it
likes: a line is cut at its first three commas into what it was made of
(`SystemEvent.fieldsOf?_text`), and in the log of its month it gives the event back
(`SystemEvent.ofLine?_text`).

A message loses the line ends at its end and keeps those before them.  An event is therefore not
always one line: it is as many lines as its message has, and a further line of it may look like
an event of its own.  `SystemEvent.line_forged` is the message that makes one event pass for
two.

`LogBook.systemLog_run` is **what a run leaves in the system log of a month**, for all messages:
the events are those of the calls that wrote one (`SystemEvent.GivenBy`), and it says which lines
there are, when there is one for each event, and that the events can then be read back.
-/
import IrrigationLog.Proofs.Calls
import IrrigationLog.Proofs.PartitionFile
import IrrigationLog.Proofs.WholeLines

namespace IrrigationLog

open Text

/-! ## 1. The line of an event -/

/-- A system event as it is logged. -/
structure SystemEvent where
  time : DateTime
  severity : Severity
  message : List Char
  deriving DecidableEq

namespace SystemEvent

/-- The time of day as it is logged. -/
def clockText (t : TimeOfDay) : List Char :=
  decimal t.hour ++ ':' :: (decimal t.minute ++ ':' :: decimal t.second)

/-- Day, time, code and message of an event. -/
def fields (e : SystemEvent) : List Char × List Char × List Char × List Char :=
  (decimal e.time.date.day, clockText e.time.time, decimal e.severity.code.toNat, e.message)

/-- What is logged of an event, up to the line feed. -/
def text (e : SystemEvent) : List Char :=
  decimal e.time.date.day ++ ',' :: (clockText e.time.time ++ ',' ::
    (decimal e.severity.code.toNat ++ ',' :: e.message))

theorem systemLine_eq (e : SystemEvent) :
    systemLine e.time e.severity e.message = e.text ++ ['\n'] := by
  simp [systemLine, text, clockText]

/-- The parts of a line at its first three commas. -/
def fieldsOf? (line : List Char) : Option (List Char × List Char × List Char × List Char) := do
  let (day, rest) ← cutOnce ',' line
  let (clock, rest) ← cutOnce ',' rest
  let (code, message) ← cutOnce ',' rest
  pure (day, clock, code, message)

/-- The event of a line in the log of a month. -/
def ofLine? (month : Nat) (year : Int) (line : List Char) : Option SystemEvent := do
  let (day, clock, code, message) ← fieldsOf? line
  let (hour, rest) ← cutOnce ':' clock
  let (minute, second) ← cutOnce ':' rest
  let time ← DateTime.ofParts? year month (← readDigits? day) (← readDigits? hour)
    (← readDigits? minute) (← readDigits? second) 0
  let severity ← (Severity.ofCode (← readUInt8? code)).toOption
  pure ⟨time, severity, message⟩

/-! ## 2. A line is read back -/

/-- A mark that is neither a digit nor a colon does not occur in a time of day. -/
theorem beq_of_mem_clockText {m : Char} (hm : m.isDigit = false) (hcolon : (':' == m) = false)
    {t : TimeOfDay} : ∀ c ∈ clockText t, (c == m) = false := by
  intro c hc
  unfold clockText at hc
  simp only [List.mem_append, List.mem_cons] at hc
  rcases hc with hc | rfl | hc | rfl | hc
  · exact beq_of_mem_decimal hm c hc
  · exact hcolon
  · exact beq_of_mem_decimal hm c hc
  · exact hcolon
  · exact beq_of_mem_decimal hm c hc

/-- **A line is cut at its first three commas into what it was made of**, whatever the message
is. -/
theorem fieldsOf?_text (e : SystemEvent) : fieldsOf? e.text = some e.fields := by
  unfold fieldsOf? text
  simp only [cutOnce_append_cons _ (beq_of_mem_decimal (m := ',') rfl),
    cutOnce_append_cons _ (beq_of_mem_clockText (m := ',') rfl rfl), Option.bind_eq_bind,
    Option.bind_some]
  rfl

/-- **A line gives its event back** in the log of the month of the event.  Fractions of a second
are not logged. -/
theorem ofLine?_text {e : SystemEvent} (hns : e.time.time.nanosecond = 0) :
    ofLine? e.time.date.month e.time.date.year e.text = some e := by
  have htime : DateTime.ofParts? e.time.date.year e.time.date.month e.time.date.day
      e.time.time.hour e.time.time.minute e.time.time.second 0 = some e.time := by
    have hparts : TimeOfDay.ofParts? e.time.time.hour e.time.time.minute e.time.time.second 0 =
        some e.time.time :=
      TimeOfDay.ofParts?_eq_some_iff.mpr ⟨rfl, rfl, rfl, hns⟩
    rw [DateTime.ofParts?, Date.ofYmd?_self, hparts]
    rfl
  unfold ofLine?
  simp only [fieldsOf?_text, fields, clockText,
    cutOnce_append_cons _ (beq_of_mem_decimal (m := ':') rfl), readDigits?_decimal, htime,
    readUInt8?_decimal, Severity.ofCode_code, Option.bind_eq_bind, Option.bind_some]
  rfl

/-! ## 3. The lines of an event -/

/-- The event as it stands in its file. -/
def line (e : SystemEvent) : List Char := e.text ++ ['\n']

/-- What a reader of the file takes for lines of its own. -/
def lines (e : SystemEvent) : List (List Char) := cutAt (· == '\n') e.text

/-- **A message can make one event pass for two.** -/
theorem line_forged (e f : SystemEvent) :
    ({ e with message := e.message ++ '\n' :: f.text } : SystemEvent).line = e.line ++ f.line := by
  simp [line, text]

/-- The line feeds of an event are those of its message. -/
theorem count_text (e : SystemEvent) : e.text.count '\n' = e.message.count '\n' := by
  have hdecimal (n : Nat) : (decimal n).count '\n' = 0 :=
    List.count_eq_zero.mpr fun hmem => absurd (isDigit_of_mem_decimal hmem) (by decide)
  simp [text, clockText, hdecimal]

theorem length_lines (e : SystemEvent) : e.lines.length = e.message.count '\n' + 1 := by
  rw [lines, length_cutAt, ← count_text]
  rfl

/-- An event on one line is its line. -/
theorem lines_of_one_line {e : SystemEvent} (h : '\n' ∉ e.message) : e.lines = [e.text] := by
  have htext : e.text.count '\n' = 0 := (count_text e).trans (List.count_eq_zero.mpr h)
  exact cutAt_eq_singleton fun c hc => beq_eq_false_iff_ne.mpr fun heq =>
    List.count_eq_zero.mp htext (heq ▸ hc)

variable {es : List SystemEvent}

/-- **There is one line for each event** if no message holds a line feed, and only then. -/
theorem length_flatMap_lines_eq_iff :
    (es.flatMap lines).length = es.length ↔ ∀ e ∈ es, '\n' ∉ e.message := by
  have hsum : (es.flatMap lines).length
      = es.length + (es.map fun e => e.message.count '\n').sum := by
    induction es with
    | nil => rfl
    | cons e es ih =>
      rw [List.flatMap_cons, List.length_append, length_lines, ih, List.length_cons, List.map_cons,
        List.sum_cons]
      omega
  rw [hsum, Nat.add_eq_left, List.sum_eq_zero_iff_forall_eq_nat, List.forall_mem_map]
  exact forall₂_congr fun e _ => List.count_eq_zero

theorem flatMap_lines_of_one_line (h : ∀ e ∈ es, '\n' ∉ e.message) :
    es.flatMap lines = es.map text := by
  induction es with
  | nil => rfl
  | cons e es ih =>
    rw [List.flatMap_cons, lines_of_one_line (h e List.mem_cons_self), List.map_cons,
      ih fun f hf => h f (List.mem_cons_of_mem _ hf)]
    rfl

end SystemEvent

/-! ## 4. The lines of a file -/

/-- The lines of a text that is made of whole lines. -/
def Text.endedLines (cs : List Char) : List (List Char) := (cutAt (· == '\n') cs).dropLast

/-- The lines of a file of events are those of the events. -/
theorem endedLines_flatMap_line (es : List SystemEvent) :
    endedLines (es.flatMap SystemEvent.line) = es.flatMap SystemEvent.lines := by
  have hcut : cutAt (· == '\n') (es.flatMap SystemEvent.line)
      = es.flatMap SystemEvent.lines ++ [[]] := by
    induction es with
    | nil => rfl
    | cons e es ih =>
      rw [List.flatMap_cons, SystemEvent.line, List.append_assoc, List.singleton_append,
        cutAt_append_mark (by decide), ih, List.flatMap_cons, List.append_assoc]
      rfl
  rw [endedLines, hcut, List.dropLast_concat]

/-- The lines of a partition that is text; one that is absent has none. -/
def LogTree.lines? (t : LogTree) (q : Partition) : Option (List (List Char)) :=
  (t.open? q).elim (some []) fun bytes => (Utf8.decode? bytes).map endedLines

/-! ## 5. What is recorded for a month -/

variable {month : Nat} {year : Int}

namespace Entry

/-- The system event of an entry, if it belongs to a month. -/
def eventOf? (month : Nat) (year : Int) : Entry → Option SystemEvent
  | event time severity message =>
    if time.date.month = month ∧ time.date.year = year then some ⟨time, severity, message⟩
    else none
  | _ => none

/-- **The lines of a system log are the lines of the events recorded for its month.** -/
theorem lineIn?_system (root : Path) (e : Entry) :
    e.lineIn? root (.system month year) = (e.eventOf? month year).map SystemEvent.line := by
  unfold lineIn?
  by_cases hpart : e.partition = .system month year
  · rw [if_pos (Partition.names_path_eq_system_iff.mpr hpart)]
    cases e with
    | watering => cases hpart
    | reading => cases hpart
    | event time severity message =>
      injection hpart with hmonth hyear
      rw [eventOf?, if_pos ⟨hmonth, hyear⟩]
      exact congrArg some (SystemEvent.systemLine_eq ⟨time, severity, message⟩)
  · rw [if_neg fun hnames => hpart (Partition.names_path_eq_system_iff.mp hnames)]
    cases e with
    | watering => rfl
    | reading => rfl
    | event time severity message =>
      have hkey : ¬ (time.date.month = month ∧ time.date.year = year) := by
        rintro ⟨rfl, rfl⟩
        exact hpart rfl
      rw [eventOf?, if_neg hkey]
      rfl

theorem of_eventOf?_eq_some {e : Entry} {s : SystemEvent} (h : e.eventOf? month year = some s) :
    e = .event s.time s.severity s.message ∧ s.time.date.month = month ∧
      s.time.date.year = year := by
  cases e with
  | watering => cases h
  | reading => cases h
  | event time severity message =>
    simp only [eventOf?] at h
    split at h
    · rename_i hkey
      cases h
      exact ⟨rfl, hkey⟩
    · cases h

end Entry

/-- A clock shows whole seconds. -/
theorem Clock.nanosecond_now (c : Clock) : c.now.time.nanosecond = 0 := by
  unfold now DateTime.ofEpochSeconds?
  cases Date.ofDayNumber? (c.seconds.toInt / 86400) <;> rfl

/-- An event is recorded at the time of its call. -/
theorem Call.time_of_recorded {c : Call} {time : DateTime} {severity : Severity}
    {message : List Char} (h : c.recorded? = some (.event time severity message)) :
    time = c.book.now := by
  obtain ⟨b, op, outcome⟩ := c
  have hentry : op.entryOf? b = some (.event time severity message) := by
    unfold recorded? at h
    split at h
    · exact h
    · cases h
  cases op with
  | event s m =>
    cases hentry
    rfl
  | sensor code id value =>
    cases hcode : Sensor.ofCode code with
    | ok kind =>
      rw [LogBook.entryOf?_sensor_of_ok hcode] at hentry
      cases hentry
    | error e =>
      rw [LogBook.entryOf?_sensor_of_error hcode] at hentry
      cases hentry
  | watering | reading => cases hentry
  | setUp | close | setClock | advanceClock | setLimits | replaceStation | query => cases hentry

/-- Whether a call wrote an event, in a month. -/
def Call.wroteEvent (month : Nat) (year : Int) (c : Call) : Bool :=
  match c.operation, c.outcome.result with
  | .event .., .ok () => c.book.now.date.month == month && c.book.now.date.year == year
  | _, _ => false

/-- An event is the one that a call gave: it has the severity that was given, the time of the call,
and the message without the line ends at its end. -/
def SystemEvent.GivenBy (c : Call) (e : SystemEvent) : Prop :=
  e.time = c.book.now ∧ ∃ message, c.operation = .event e.severity message ∧
    TrimsTo message.toList e.message

/-- The event that a call recorded, if it belongs to a month. -/
def Call.eventOf? (month : Nat) (year : Int) (c : Call) : Option SystemEvent :=
  c.recorded?.bind (Entry.eventOf? month year)

/-- A call that wrote an event in a month recorded the event that it gave; any other call recorded
none for the month. -/
theorem Call.eventOf?_cases (c : Call) :
    (c.wroteEvent month year = true ∧ ∃ e, c.eventOf? month year = some e ∧ e.GivenBy c) ∨
      c.wroteEvent month year = false ∧ c.eventOf? month year = none := by
  obtain ⟨b, op, outcome⟩ := c
  cases hresult : outcome.result with
  | error e => exact Or.inr (by simp [wroteEvent, eventOf?, recorded?, hresult])
  | ok _ =>
    cases op with
    | event severity message =>
      by_cases hmonth : b.now.date.month = month ∧ b.now.date.year = year
      · refine Or.inl ⟨?_, ⟨b.now, severity, trimMessage message.toList⟩, ?_, rfl, message, rfl,
          trimsTo_iff.mpr rfl⟩
        · simp [wroteEvent, hresult, hmonth]
        · simp [eventOf?, recorded?, hresult, Operation.entryOf?, Entry.eventOf?, hmonth]
      · refine Or.inr ⟨?_, ?_⟩
        · simpa [wroteEvent, hresult] using hmonth
        · simp [eventOf?, recorded?, hresult, Operation.entryOf?, Entry.eventOf?, hmonth]
    | sensor code id value =>
      refine Or.inr ⟨rfl, ?_⟩
      cases hcode : Sensor.ofCode code <;>
        simp [eventOf?, recorded?, hresult, Operation.entryOf?, hcode, Entry.eventOf?]
    | _ =>
      exact Or.inr ⟨rfl, by simp [eventOf?, recorded?, hresult, Operation.entryOf?, Entry.eventOf?]⟩

namespace LogBook

variable {b : LogBook}

/-- The events that are recorded for a month, in the order of the calls. -/
def recordedEvents (b : LogBook) (ops : List Operation) (month : Nat) (year : Int) :
    List SystemEvent :=
  (b.entries ops).filterMap (Entry.eventOf? month year)

theorem of_mem_recordedEvents {ops : List Operation} {e : SystemEvent}
    (h : e ∈ b.recordedEvents ops month year) :
    e.time.date.month = month ∧ e.time.date.year = year ∧ e.time.time.nanosecond = 0 := by
  obtain ⟨entry, hentry, hevent⟩ := List.mem_filterMap.mp h
  obtain ⟨rfl, hmonth, hyear⟩ := Entry.of_eventOf?_eq_some hevent
  obtain ⟨c, -, hc⟩ := List.mem_filterMap.mp hentry
  rw [hmonth, hyear, c.time_of_recorded hc]
  exact ⟨rfl, rfl, c.book.clock.nanosecond_now⟩

/-- **The events that are recorded for a month are those that the calls gave which wrote one**, one
for each, in order. -/
theorem givenBy_recordedEvents (b : LogBook) (ops : List Operation) (month : Nat) (year : Int) :
    List.Forall₂ SystemEvent.GivenBy ((b.calls ops).filter (Call.wroteEvent month year))
      (b.recordedEvents ops month year) := by
  have hevents : b.recordedEvents ops month year
      = (b.calls ops).filterMap (Call.eventOf? month year) := List.filterMap_filterMap
  rw [hevents]
  induction b.calls ops with
  | nil => exact List.Forall₂.nil
  | cons c cs ih =>
    rcases @Call.eventOf?_cases month year c with ⟨hwrote, e, he, hgiven⟩ | ⟨hsilent, hnone⟩
    · rw [List.filter_cons_of_pos hwrote, List.filterMap_cons_some he]
      exact List.Forall₂.cons hgiven ih
    · rw [List.filter_cons_of_neg (by simp [hsilent]), List.filterMap_cons_none hnone]
      exact ih

/-! ## 6. What a run leaves -/

/-- The lines of the system log of a month are those of the events that a run recorded for it. -/
theorem lines?_run (h : b.fault = none)
    (habsent : b.tree.find? ((Partition.system month year).path b.root).names = none)
    (ops : List Operation) :
    (b.run ops).1.logTree.lines? (.system month year) =
      some ((b.recordedEvents ops month year).flatMap SystemEvent.lines) := by
  have hlines : b.linesIn ops b.root (.system month year)
      = (b.recordedEvents ops month year).map SystemEvent.line :=
    linesIn_eq_map (Entry.lineIn?_system b.root) b ops
  have hfile : Utf8.decode? (Utf8.encode ((Partition.system month year).header
      ++ ((b.recordedEvents ops month year).map SystemEvent.line).flatten))
      = some ((b.recordedEvents ops month year).flatMap SystemEvent.line) := by
    rw [Utf8.decode?_encode, ← List.flatMap_def]
    rfl
  unfold LogTree.lines?
  rw [open?_run h habsent, hlines]
  split
  · rename_i hnone
    rw [List.map_eq_nil_iff.mp hnone]
    rfl
  · rw [Option.elim_some, hfile, Option.map_some, endedLines_flatMap_line]

/-- **What a run leaves in the system log of a month.**  The events are those that the calls gave
which wrote one, in order, and the lines are those of the events. -/
theorem systemLog_run (h : b.fault = none)
    (habsent : b.tree.find? ((Partition.system month year).path b.root).names = none)
    (ops : List Operation) :
    let events := b.recordedEvents ops month year
    List.Forall₂ SystemEvent.GivenBy ((b.calls ops).filter (Call.wroteEvent month year)) events ∧
    ∃ lines, (b.run ops).1.logTree.lines? (.system month year) = some lines ∧
      lines = events.flatMap SystemEvent.lines ∧
      (lines.length = events.length ↔ ∀ e ∈ events, '\n' ∉ e.message) ∧
      ((∀ e ∈ events, '\n' ∉ e.message) →
        lines.map SystemEvent.fieldsOf? = events.map (fun e => some e.fields) ∧
          lines.map (SystemEvent.ofLine? month year) = events.map some) := by
  intro events
  refine ⟨givenBy_recordedEvents b ops month year, _, lines?_run h habsent ops, rfl,
    SystemEvent.length_flatMap_lines_eq_iff, fun hone => ?_⟩
  rw [SystemEvent.flatMap_lines_of_one_line hone, List.map_map, List.map_map]
  constructor
  · exact List.map_congr_left fun e _ => e.fieldsOf?_text
  · refine List.map_congr_left fun e he => ?_
    obtain ⟨rfl, rfl, hns⟩ := of_mem_recordedEvents he
    exact SystemEvent.ofLine?_text hns

/-- One event, with a line feed in its message and an event's text behind it. -/
def forgedEvent : List Operation := [.setUp, .event .notice "pump off\n1,0:0:0,2,flood"]

/-- A single event leaves two lines, and each reads as an event. -/
theorem systemLog_run_of_forgedEvent :
    blank.fault = none ∧
    blank.tree.find? ((Partition.system 1 1970).path blank.root).names = none ∧
    (blank.recordedEvents forgedEvent 1 1970).length = 1 ∧
    ∃ lines, (blank.run forgedEvent).1.logTree.lines? (.system 1 1970) = some lines ∧
      lines.map (SystemEvent.ofLine? 1 1970) =
        [some ⟨.epoch, .notice, "pump off".toList⟩, some ⟨.epoch, .crit, "flood".toList⟩] := by
  have hfault : blank.fault = none := rfl
  have habsent : blank.tree.find? ((Partition.system 1 1970).path blank.root).names = none := rfl
  have hevents : blank.recordedEvents forgedEvent 1 1970
      = [⟨.epoch, .notice, "pump off\n1,0:0:0,2,flood".toList⟩] := by decide +kernel
  obtain ⟨-, lines, hlines, hflat, -⟩ := systemLog_run hfault habsent forgedEvent
  refine ⟨hfault, habsent, by rw [hevents]; rfl, lines, hlines, ?_⟩
  rw [hflat, hevents]
  decide +kernel

end LogBook

end IrrigationLog
