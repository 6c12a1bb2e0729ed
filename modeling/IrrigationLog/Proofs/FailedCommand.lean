/-
# What a failed command leaves

A command carries out several changes one after the other, and none of them is taken back.  So
a command that fails has not always done nothing.

* Directories that were made stay: those of the log tree, and those above the configuration.
* A watering run counts its water and saves the counters even when its line cannot be written.
  The other way round, the line stays when the counters cannot be saved after it.
* Where the disk fails within a write, it keeps a beginning of what was to be written: of an entry
  at the end of its partition, of a configuration or an answer in a file that was made empty
  first.
* A chart whose grouping has no bins is refused too late.  It is to be refused before there is any
  output, but by then the file for the answer has been made empty (`Surroundings.answer_refused`).
  This is a slip, and about that file nothing is promised here.

`Machine.invoke_failed` is **the whole of what a program that ends with a failure may leave**,
on every machine and for every command line, wherever the disk fails.  In all other cases every
file is as it was.
-/
import IrrigationLog.Machine
import IrrigationLog.Proofs.AppendOnly
import IrrigationLog.Proofs.QueryDocuments

namespace IrrigationLog

/-! ## 1. Saving the configuration -/

/-- Whether a failure is one to load the configuration; the others are to save it. -/
def ConfigError.isOfLoad : ConfigError → Bool
  | read _ _ | parse _ => true
  | makeDirectory _ _ | serialize | write _ _ => false

namespace Config

variable {c : Config} {t u v : Tree} {cwd : List String} {path : Path}

/-- The directories above a configuration are made if they are not there. -/
theorem addsDirs_makeParent (h : makeParent t cwd path = .ok u) : t.AddsDirs u := by
  unfold makeParent at h
  split at h
  · cases h
    exact .refl t
  · split at h
    · rename_i hmade
      cases h
      exact Tree.addsDirs_makeDirs hmade
    · cases h

/-- Without the directories above it, a configuration cannot be saved. -/
theorem isOfLoad_of_makeParent {e : ConfigError} (h : makeParent t cwd path = .error e) :
    e.isOfLoad = false := by
  unfold makeParent at h
  split at h
  · cases h
  · split at h
    · cases h
    · cases h
      rfl

/-- A configuration was saved: the directories above it were made if they were not there, and its
file was written. -/
def Saved (c : Config) (path : Path) (t u : Tree) : Prop :=
  ∃ v text, t.AddsDirs v ∧ c.text? = some text ∧ v.Sets u path.names (Utf8.encode text)

/-- A configuration could not be saved: nothing but directories was made, or the disk took only a
beginning of the file. -/
def Unsaved (c : Config) (path : Path) (fault : Option WriteFault) (t u : Tree) : Prop :=
  t.AddsDirs u ∨ ∃ v text part, t.AddsDirs v ∧ c.text? = some text ∧
    WriteFault.Cuts fault (Utf8.encode text) part ∧ v.Sets u path.names part

/-- **Saving succeeds or fails**, and leaves what it says.  A failure is none to load. -/
theorem saveOn_cases (c : Config) (fault : Option WriteFault) (t : Tree) (cwd : List String)
    (path : Path) :
    (∃ u, c.saveOn fault t cwd path = (u, .ok ()) ∧ c.Saved path t u) ∨
      ∃ u e, c.saveOn fault t cwd path = (u, .error e) ∧ e.isOfLoad = false ∧
        c.Unsaved path fault t u := by
  unfold saveOn
  cases hmade : makeParent t cwd path with
  | error e => exact Or.inr ⟨t, e, rfl, isOfLoad_of_makeParent hmade, Or.inl (.refl t)⟩
  | ok u =>
    have hdirs := addsDirs_makeParent hmade
    cases htext : c.text? with
    | none => exact Or.inr ⟨u, .serialize, rfl, rfl, Or.inl hdirs⟩
    | some text =>
      dsimp only
      rcases WriteFault.taken_cases fault (Utf8.encode text) with heq | ⟨part, cause, heq, hcuts⟩
      · rw [heq]
        dsimp only
        cases hwrite : u.write path.names (Utf8.encode text) with
        | error cause => exact Or.inr ⟨u, _, rfl, rfl, Or.inl hdirs⟩
        | ok v => exact Or.inl ⟨v, rfl, u, text, hdirs, htext, Tree.sets_write hwrite⟩
      · rw [heq]
        dsimp only
        cases hwrite : u.write path.names part with
        | error cause' => exact Or.inr ⟨u, _, rfl, rfl, Or.inl hdirs⟩
        | ok v =>
          exact Or.inr ⟨v, _, rfl, rfl,
            Or.inr ⟨u, text, part, hdirs, htext, hcuts, Tree.sets_write hwrite⟩⟩

/-- What can be left of a tree with more directories can be left of the tree. -/
theorem Unsaved.of_addsDirs {fault : Option WriteFault} (hdirs : t.AddsDirs u)
    (h : c.Unsaved path fault u v) : c.Unsaved path fault t v := by
  rcases h with hadded | ⟨w, text, part, hadded, hrest⟩
  · exact Or.inl (hdirs.trans hadded)
  · exact Or.inr ⟨w, text, part, hdirs.trans hadded, hrest⟩

end Config

namespace Surroundings

variable {s : Surroundings} {t : Tree} {e : CommandError}

/-- A configuration that a command could not save. -/
theorem unsaved_save {c : Config} {shown : Shown} (h : (s.save t c shown).2 = .error e) :
    c.Unsaved s.configPath s.faults.config t (s.save t c shown).1 := by
  unfold save at h ⊢
  rcases c.saveOn_cases s.faults.config t s.cwd s.configPath with
    ⟨u, heq, -⟩ | ⟨u, e', heq, -, hleft⟩
  · rw [heq] at h
    cases h
  · rw [heq]
    exact hleft

end Surroundings

/-! ## 2. Recording -/

namespace Entry

/-- What is to be written of an entry: its line, behind the header of the partition where nothing
stands yet. -/
def toWrite (e : Entry) (root : Path) (t : Tree) : List UInt8 :=
  (if t.occupied (e.partition.path root).names then [] else Utf8.encode e.partition.header) ++
    Utf8.encode e.line

/-- An entry was recorded: directories were made if they were not there, and its partition got its
line. -/
def Recorded (e : Entry) (root : Path) (t u : Tree) : Prop :=
  ∃ v, t.AddsDirs v ∧ v.Grows u (e.partition.path root).names (Utf8.encode e.partition.header)
    (Utf8.encode e.line)

/-- An entry could not be recorded: nothing but directories was made, or the disk took only a
beginning of what was to be written. -/
def Unrecorded (e : Entry) (root : Path) (fault : Option WriteFault) (t u : Tree) : Prop :=
  t.AddsDirs u ∨ ∃ v part, t.AddsDirs v ∧ WriteFault.Cuts fault (e.toWrite root v) part ∧
    v.Grows u (e.partition.path root).names [] part

end Entry

namespace Surroundings

variable {s : Surroundings} {t : Tree} {e : CommandError}

theorem readyBook_place (s : Surroundings) (t : Tree) :
    (s.readyBook t).root = s.root ∧ (s.readyBook t).fault = s.faults.log :=
  (s.book t).step_place .setUp

/-- Setting the log tree up adds directories, however far it comes. -/
theorem addsDirs_readyBook (s : Surroundings) (t : Tree) : t.AddsDirs (s.readyBook t).tree :=
  (s.book t).addsDirs_setUp

/-- **Recording an entry succeeds or fails**, and leaves what it says. -/
theorem record_cases {op : Operation} {entry : Entry}
    (he : op.entryOf? (s.readyBook t) = some entry) :
    let after := (s.readyBook t).step op
    (after.2.result = .ok () ∧ entry.Recorded s.root t after.1.tree) ∨
      ∃ e, after.2.result = .error e ∧ entry.Unrecorded s.root s.faults.log t after.1.tree := by
  obtain ⟨hroot, hfault⟩ := s.readyBook_place t
  obtain ⟨htree, hresult⟩ := LogBook.step_of_entry he
  have hready := s.addsDirs_readyBook t
  dsimp only
  rw [htree, hresult]
  rcases (s.readyBook t).append_cases entry.partition entry.line with
    ⟨-, heq⟩ | ⟨cause, -, heq⟩ | ⟨tree, heq, hgrows⟩ | ⟨tree, part, cause, heq, hcuts, hgrows⟩ <;>
    rw [heq]
  · exact Or.inr ⟨_, rfl, Or.inl hready⟩
  · exact Or.inr ⟨_, rfl, Or.inl hready⟩
  · rw [hroot] at hgrows
    exact Or.inl ⟨rfl, _, hready, hgrows⟩
  · rw [LogBook.entry, hroot, hfault] at hcuts
    rw [hroot] at hgrows
    exact Or.inr ⟨_, rfl, Or.inr ⟨_, part, hready, hcuts, hgrows⟩⟩

/-- A watering run as it is recorded: without a time of its own it started now. -/
def givenRun (s : Surroundings) (t : Tree) (r : GivenRun) : WateringRun :=
  { start := r.start.getD (s.readyBook t).now, zone := r.zone, duration := r.duration,
    schedule := r.schedule, seasonal := r.seasonal, weather := r.weather }

/-- The configuration with the water of a run counted. -/
def counted (s : Surroundings) (t : Tree) (r : GivenRun) : Config :=
  { s.config with station := ((s.readyBook t).countWater (s.givenRun t r)).station }

/-- Recording a run, and then saving its counters. -/
theorem recordWatering_eq (s : Surroundings) (t : Tree) (r : GivenRun) :
    s.recordWatering t r =
      let (b, result) := (s.readyBook t).recordWatering (s.givenRun t r)
      match (s.counted t r).saveOn s.faults.config b.tree s.cwd s.configPath with
      | (u, .error e) => (u, .error (.config e))
      | (u, .ok ()) => (u, recorded .wateringRun result) := by
  have hstation : ((s.readyBook t).recordWatering (s.givenRun t r)).1.station
      = (s.counted t r).station := LogBook.station_append _ _ _
  have hcounted : s.counted t r = { s.config with
      station := ((s.readyBook t).recordWatering (s.givenRun t r)).1.station } := by
    rw [hstation]
    rfl
  rw [hcounted]
  rfl

end Surroundings

/-! ## 3. What may be left -/

/-- What a command records that only records. -/
def Command.recording? : Command → Option Operation
  | .sensor code id value => some (.sensor code id value)
  | .event severity words => some (.event severity (String.intercalate " " words))
  | _ => none

/-- The question that a command puts. -/
def Command.query? : Command → Option Query
  | .graph days grouping => some (.chart days.range grouping)
  | .table days => some (.table days.range)
  | .series kind id days summary => some (.series kind id days.range summary)
  | _ => none

namespace Surroundings

/-- The configuration that a command saves which only saves one. -/
def changed? (s : Surroundings) : Command → Option Config
  | .init => some { s.config with root := some s.root.text }
  | .config (.zones count) =>
    some { s.config with station := { s.config.station with zones := count } }
  | .config (.flow zone rate) =>
    some { s.config with station := s.config.station.setFlowRate zone rate }
  | _ => none

/-- What a command that failed may leave of a tree. -/
inductive FailureLeaves (s : Surroundings) (t : Tree) : Command → Tree → Prop
  /-- Directories that were not there. -/
  | directories {c : Command} {u : Tree} (added : t.AddsDirs u) : FailureLeaves s t c u
  /-- The counters of a run that could not be written. -/
  | counters {r : GivenRun} {u v : Tree} {e : StoreError}
      (failed : ((s.readyBook t).recordWatering (s.givenRun t r)).2 = .error e)
      (unrecorded : (Entry.watering (s.givenRun t r)).Unrecorded s.root s.faults.log t u)
      (saved : (s.counted t r).Saved s.configPath u v) : FailureLeaves s t (.watering r) v
  /-- The line of a run whose counters could not be saved. -/
  | line {r : GivenRun} {u v : Tree}
      (written : ((s.readyBook t).recordWatering (s.givenRun t r)).2 = .ok ())
      (recorded : (Entry.watering (s.givenRun t r)).Recorded s.root t u)
      (unsaved : (s.counted t r).Unsaved s.configPath s.faults.config u v) :
      FailureLeaves s t (.watering r) v
  /-- Neither the line nor the counters of a run: at most a beginning of each. -/
  | neither {r : GivenRun} {u v : Tree} {e : StoreError}
      (failed : ((s.readyBook t).recordWatering (s.givenRun t r)).2 = .error e)
      (unrecorded : (Entry.watering (s.givenRun t r)).Unrecorded s.root s.faults.log t u)
      (unsaved : (s.counted t r).Unsaved s.configPath s.faults.config u v) :
      FailureLeaves s t (.watering r) v
  /-- At most a beginning of what else could not be recorded. -/
  | entry {c : Command} {op : Operation} {entry : Entry} {u : Tree}
      (records : c.recording? = some op) (due : op.entryOf? (s.readyBook t) = some entry)
      (unrecorded : entry.Unrecorded s.root s.faults.log t u) : FailureLeaves s t c u
  /-- At most a beginning of a configuration that could not be saved. -/
  | configuration {c : Command} {config : Config} {u : Tree} (changes : s.changed? c = some config)
      (unsaved : config.Unsaved s.configPath s.faults.config t u) : FailureLeaves s t c u
  /-- A beginning of an answer of which the disk took no more. -/
  | answer {c : Command} {q : Query} {path : Path} {emptied u : Tree} {pieces : List Piece}
      {part : List UInt8} (asks : c.query? = some q) (given : s.output = some path)
      (opened : t.Sets emptied path.names [])
      (answered : (s.book emptied).logTree.answer q = .ok pieces)
      (cut : WriteFault.Cuts s.faults.answer (document pieces) part)
      (written : t.Sets u path.names part) : FailureLeaves s t c u
  /-- Anything in the file for the answer to a chart that is refused; nothing else is different. -/
  | refused {days : Days} {grouping : Grouping} {u : Tree} {path : Path}
      (no_bins : grouping.bins = none) (given : s.output = some path)
      (other : ∀ p, p ≠ path.names → u.node? p = t.node? p) :
      FailureLeaves s t (.graph days grouping) u

variable {s : Surroundings} {t : Tree} {e : CommandError}

/-! ## 4. Commands that record -/

/-- A recording is reported as it went. -/
theorem exists_of_recorded_error {what : Recorded} {result : Except StoreError Unit}
    (h : recorded what result = .error e) : ∃ e', result = .error e' := by
  cases result with
  | error e' => exact ⟨e', rfl⟩
  | ok _ => cases h

/-- **A watering run that is reported as failed** has not left both its line and its counters. -/
theorem recordWatering_failed {r : GivenRun} (h : (s.recordWatering t r).2 = .error e) :
    s.FailureLeaves t (.watering r) (s.recordWatering t r).1 := by
  rw [recordWatering_eq] at h ⊢
  dsimp only at h ⊢
  have hrecord := @record_cases s t (.watering (s.givenRun t r)) _ rfl
  have hsave := (s.counted t r).saveOn_cases s.faults.config
    ((s.readyBook t).recordWatering (s.givenRun t r)).1.tree s.cwd s.configPath
  rcases hrecord with ⟨hok, hwritten⟩ | ⟨e', herr, hunwritten⟩
  · rcases hsave with ⟨u, heq, -⟩ | ⟨u, e'', heq, -, hunsaved⟩
    · obtain ⟨e'', herr⟩ := exists_of_recorded_error (by rw [heq] at h; exact h)
      cases hok.symm.trans herr
    · rw [heq]
      exact .line hok hwritten hunsaved
  · rcases hsave with ⟨u, heq, hsaved⟩ | ⟨u, e'', heq, -, hunsaved⟩
    · rw [heq]
      exact .counters herr hunwritten hsaved
    · rw [heq]
      exact .neither herr hunwritten hunsaved

/-- A reading or an event that is reported as failed. -/
theorem recording_failed {c : Command} {op : Operation} (hc : c.recording? = some op)
    (hop : op ≠ .setUp) {e : StoreError} (h : ((s.readyBook t).step op).2.result = .error e) :
    s.FailureLeaves t c ((s.readyBook t).step op).1.tree := by
  cases hdue : op.entryOf? (s.readyBook t) with
  | none =>
    rw [LogBook.step_of_no_entry hdue hop]
    exact .directories (s.addsDirs_readyBook t)
  | some entry =>
    rcases s.record_cases hdue with ⟨hok, -⟩ | ⟨e', -, hleft⟩
    · cases hok.symm.trans h
    · exact .entry hc hdue hleft

/-! ## 5. Commands that ask -/

/-- **Only a grouping without bins makes a question fail** before it is answered. -/
theorem pieces_cases (s : Surroundings) (t : Tree) (q : Query) :
    (∃ pieces, (s.book t).logTree.answer q = .ok pieces ∧ s.pieces t q = .ok pieces) ∨
      ∃ range grouping, q = .chart range grouping ∧ grouping.bins = none ∧
        s.pieces t q = .error (.query (.unsupportedGrouping grouping)) := by
  by_cases hq : q.Supported
  · obtain ⟨pieces, hpieces, -⟩ := (s.book t).logTree.exists_answer hq
    exact Or.inl ⟨pieces, hpieces, by rw [Surroundings.pieces, hpieces]; rfl⟩
  · obtain ⟨range, grouping, rfl, hanswer⟩ := (s.book t).logTree.answer_of_unsupported hq
    refine Or.inr ⟨range, grouping, rfl, ?_, by rw [Surroundings.pieces, hanswer]; rfl⟩
    cases hbins : grouping.bins with
    | none => rfl
    | some n => exact absurd ⟨n, hbins⟩ hq

/-- **A chart whose grouping has no bins is refused too late**: the file for the answer is empty by
then. -/
theorem answer_refused {range : DayRange} {grouping : Grouping} {path : Path} {emptied : Tree}
    (hbins : grouping.bins = none) (hout : s.output = some path)
    (hwrite : t.write path.names [] = .ok emptied) :
    s.answer t (.chart range grouping) =
      (emptied, .error (.query (.unsupportedGrouping grouping))) := by
  rcases s.pieces_cases emptied (.chart range grouping) with
    ⟨pieces, hanswer, -⟩ | ⟨range', grouping', hq, -, hrefused⟩
  · unfold LogTree.answer LogTree.chart at hanswer
    dsimp only at hanswer
    rw [hbins] at hanswer
    cases hanswer
  · cases hq
    unfold answer
    rw [hout]
    dsimp only
    rw [hwrite]
    dsimp only
    rw [hrefused]

/-- What a question that fails has left. -/
theorem answer_failed {c : Command} {q : Query} (hc : c.query? = some q)
    (h : (s.answer t q).2 = .error e) : s.FailureLeaves t c (s.answer t q).1 := by
  unfold answer at h ⊢
  cases hout : s.output with
  | none => exact .directories (.refl t)
  | some path =>
    rw [hout] at h
    dsimp only at h ⊢
    cases hopen : t.write path.names [] with
    | error cause => exact .directories (.refl t)
    | ok emptied =>
      have hemptied := Tree.sets_write hopen
      rw [hopen] at h
      dsimp only at h ⊢
      rcases s.pieces_cases emptied q with
        ⟨pieces, hanswer, hpieces⟩ | ⟨range, grouping, rfl, hbins, hrefused⟩
      · rw [hpieces] at h ⊢
        dsimp only at h ⊢
        rcases WriteFault.taken_cases s.faults.answer (document pieces) with
          heq | ⟨part, cause, heq, hcuts⟩
        · obtain ⟨v, hv⟩ := Tree.write_again hopen (document pieces)
          rw [heq] at h
          dsimp only at h
          rw [hv] at h
          cases h
        · obtain ⟨v, hv⟩ := Tree.write_again hopen part
          rw [heq]
          dsimp only
          rw [hv]
          exact .answer hc hout hemptied hanswer hcuts (hemptied.trans (Tree.sets_write hv))
      · rw [hrefused]
        cases c with
        | graph days grouping' =>
          cases hc
          exact .refused hbins hout hemptied.other
        | init | watering | sensor | event | table | series | counters | config | completions =>
          cases hc

/-! ## 6. All commands -/

/-- Setting up that fails, or that cannot save the first configuration. -/
theorem init_failed (h : (s.init t).2 = .error e) : s.FailureLeaves t .init (s.init t).1 := by
  have hready := s.addsDirs_readyBook t
  unfold readyBook at hready
  unfold init at h ⊢
  dsimp only at h ⊢
  rcases hset : (s.book t).setUp with ⟨b, result⟩
  rw [hset] at hready h
  cases result with
  | error e' => exact .directories hready
  | ok _ =>
    dsimp only at hready h ⊢
    split at h
    · cases h
    · rename_i hfree
      rw [if_neg hfree]
      exact .configuration rfl ((unsaved_save h).of_addsDirs hready)

/-- A configuration that could not be shown or changed. -/
theorem configure_failed {action : ConfigAction} (h : (s.configure t action).2 = .error e) :
    s.FailureLeaves t (.config action) (s.configure t action).1 := by
  cases action with
  | show_ =>
    unfold configure
    cases s.config.text? <;> exact .directories (.refl t)
  | path => cases h
  | zones count => exact .configuration rfl (unsaved_save h)
  | flow zone rate => exact .configuration rfl (unsaved_save h)

/-- **What a command that failed may leave of a tree.** -/
theorem run_failed {c : Command} (h : (c.run s t).2 = .error e) :
    s.FailureLeaves t c (c.run s t).1 := by
  cases c with
  | init => exact init_failed h
  | watering r => exact recordWatering_failed h
  | sensor code id value =>
    obtain ⟨e', hresult⟩ := exists_of_recorded_error h
    exact @recording_failed _ _ _ (.sensor code id value) rfl (by simp) _ hresult
  | event severity words =>
    obtain ⟨e', hresult⟩ := exists_of_recorded_error h
    exact @recording_failed _ _ _ (.event severity (String.intercalate " " words)) rfl (by simp) _
      hresult
  | graph days grouping => exact answer_failed rfl h
  | table days => exact answer_failed rfl h
  | series kind id days summary => exact answer_failed rfl h
  | counters => cases h
  | config action => exact configure_failed h
  | completions shell => cases h

end Surroundings

/-! ## 7. Invocations -/

/-- Without a configuration nothing is carried out. -/
theorem Machine.perform_failed {m : Machine} {i : Invocation} {e : CommandError}
    (h : (m.perform i).2 = .error e) :
    m.tree.AddsDirs (m.perform i).1 ∨
      ∃ config, Config.load m.tree (m.configPath i.globals) = .ok config ∧
        (m.surroundings i.globals config).FailureLeaves m.tree i.command (m.perform i).1 := by
  unfold perform at h ⊢
  split at h
  · cases h
  · cases hload : Config.load m.tree (m.configPath i.globals) with
    | error e' => exact Or.inl (.refl m.tree)
    | ok config =>
      rw [hload] at h
      exact Or.inr ⟨config, rfl, Surroundings.run_failed h⟩

/-- **What a program that ends with a failure may leave of a tree**: directories that were not
there, unless a configuration could be loaded, and then what the command may leave. -/
theorem Machine.invoke_failed {m : Machine} {words : List String}
    (h : (m.invoke words).2.code ≠ 0) :
    m.tree.AddsDirs (m.invoke words).1 ∨
      ∃ i config, Invocation.read m.env words = .ok i ∧
        Config.load m.tree (m.configPath i.globals) = .ok config ∧
        (m.surroundings i.globals config).FailureLeaves m.tree i.command (m.invoke words).1 := by
  cases hread : Invocation.read m.env words with
  | error r =>
    refine Or.inl ?_
    rw [invoke, hread]
    exact .refl m.tree
  | ok i =>
    rw [invoke, hread] at h ⊢
    dsimp only at h ⊢
    cases hresult : (m.perform i).2 with
    | ok shown =>
      rw [hresult] at h
      exact absurd rfl h
    | error e =>
      rcases m.perform_failed hresult with hdirs | ⟨config, hload, hleft⟩
      · exact Or.inl hdirs
      · exact Or.inr ⟨i, config, rfl, hload, hleft⟩

/-- A machine whose configuration belongs below a file. -/
def configBlocked : Machine where
  tree := .dir [("conf", .file [])]
  cwd := []
  env := [("IRRIGO_CONFIG", "/conf/config.toml"), ("IRRIGO_LOG_ROOT", "/log")]
  home := "/"
  clock := ⟨0⟩

/-- Ten minutes of zone 1. -/
def tenMinutes : List String := ["watering", "--zone", "1", "--duration", "10"]

/-- A machine with a full disk: it takes the header of a partition and four bytes more, four bytes
of a configuration, and one byte of an answer. -/
def fullDisk : Machine :=
  let full (room : Nat) : Option WriteFault := some ⟨room, "No space left on device (os error 28)"⟩
  { configBlocked with
    tree := .dir [("days.json", .file (Utf8.encode "[]\n".toList))]
    faults := { log := full 69, config := full 4, answer := full 1 } }

/-- What is left is more than directories: a line where the counters could not be saved, and the
beginnings of both where the disk took no more. -/
theorem Machine.invoke_failed_of_tenMinutes :
    let leaves (m : Machine) := ∃ i config, Invocation.read m.env tenMinutes = .ok i ∧
      Config.load m.tree (m.configPath i.globals) = .ok config ∧
      (m.surroundings i.globals config).FailureLeaves m.tree i.command (m.invoke tenMinutes).1
    ((configBlocked.invoke tenMinutes).2.code ≠ 0 ∧ leaves configBlocked) ∧
      (fullDisk.invoke tenMinutes).2.code ≠ 0 ∧ leaves fullDisk := by
  have hblocked : (configBlocked.invoke tenMinutes).2.code ≠ 0 := by decide +kernel
  have hfull : (fullDisk.invoke tenMinutes).2.code ≠ 0 := by decide +kernel
  -- In both cases there is a partition afterwards, and it is no directory.
  refine ⟨⟨hblocked, (Machine.invoke_failed hblocked).resolve_left fun hdirs => ?_⟩, hfull,
    (Machine.invoke_failed hfull).resolve_left fun hdirs => ?_⟩
  · exact absurd (hdirs ["log", "watering.log", "wat-1970-01.log"]) (by decide +kernel)
  · exact absurd (hdirs ["log", "watering.log", "wat-1970-01.log"]) (by decide +kernel)

/-- A program ends with a failure, and there is another text in a file than before, or in a new
one. -/
def Machine.LeavesText (m : Machine) (words file : List String)
    (before after : Option (List Char)) : Prop :=
  (m.invoke words).2.code = 1 ∧
    m.tree.node? file = before.map (fun text => .file (Utf8.encode text)) ∧
    (m.invoke words).1.node? file = after.map fun text => .file (Utf8.encode text)

/-- **Commands that are reported as failed have changed files**: a watering run whose counters could
not be saved has made its partition; and on a full disk a partition is begun, a configuration is
begun, and the beginning of an answer takes the place of the file that was there. -/
theorem Machine.files_left_by_failures :
    configBlocked.LeavesText tenMinutes ["log", "watering.log", "wat-1970-01.log"] none
        (some (Partition.wateringHeader ++ "1,1,0:0,10,0,100,100\r\n".toList)) ∧
      fullDisk.LeavesText tenMinutes ["log", "watering.log", "wat-1970-01.log"] none
        (some (Partition.wateringHeader ++ "1,1,".toList)) ∧
      fullDisk.LeavesText ["config", "zones", "3"] ["conf", "config.toml"] none
        (some "even".toList) ∧
      fullDisk.LeavesText ["--output", "/days.json", "table", "--from", "1970-01-01"] ["days.json"]
        (some "[]\n".toList) (some ['[']) := by
  refine ⟨⟨?_, ?_, ?_⟩, ⟨?_, ?_, ?_⟩, ⟨?_, ?_, ?_⟩, ?_, ?_, ?_⟩ <;> decide +kernel

end IrrigationLog
