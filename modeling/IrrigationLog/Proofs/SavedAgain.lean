/-
# Saving and loading are inverse

A program that starts loads what the one before it saved, and saves it again.  So nothing may
get lost or drift on the way round: the configuration that is loaded is the one that was saved,
and when it is saved in turn, the file and everything else in the tree stays as it is
(`Config.save_load`).

* **Which configurations.**  All that have a text: a size of 2^63 or more is a number that the
  format does not have, and is the only thing that cannot be saved.  The place of the log tree
  may be any text, the flow rates any list, and the date of the counters any date there is.
* **Where.**  A file can be written where one stands, or in a directory where nothing does, once
  the directories above it are made (`Tree.TakesFile`).
* **Again.**  The directory above the file is there the second time (`Config.makeParent_again`).
* **Disks that may fail.**  A saving that succeeds on one of them is the same as on one that does
  not fail (`Config.save_of_saveOn`).
-/
import IrrigationLog.Proofs.SavedSettings
import IrrigationLog.Proofs.SettingUp

namespace IrrigationLog

/-! ## 1. Where a configuration can be saved -/

/-- With the directory above it made, a path has a file, or has nothing and is in a directory. -/
def Tree.TakesFile (t : Tree) (cwd : List String) (path : Path) : Prop :=
  ∃ u, Config.makeParent t cwd path = .ok u ∧
    ((∃ bytes, u.node? path.names = some (.file bytes)) ∨
      u.node? path.names = none ∧ u.node? path.names.dropLast = some .dir)

namespace Config

variable {c : Config} {t u v : Tree} {cwd : List String} {path : Path} {text : List Char}

/-- The sizes are below 2^63: a number in a settings file has 64 bits, one of them for the sign. -/
def SizesFit (c : Config) : Prop :=
  c.chunkSize.toNat < 9223372036854775808 ∧ c.maxPayload.toNat < 9223372036854775808

/-- **A configuration has a text** exactly if its sizes fit. -/
theorem exists_text_iff : (∃ text, c.text? = some text) ↔ c.SizesFit := by
  have hbound : UInt64.size / 2 = 9223372036854775808 := rfl
  unfold text? SizesFit
  rw [hbound]
  split <;> simp_all

/-- What a saving that succeeds has done. -/
theorem save_ok_iff :
    c.save t cwd path = (v, .ok ()) ↔
      ∃ u text, makeParent t cwd path = .ok u ∧ c.text? = some text ∧
        u.write path.names (Utf8.encode text) = .ok v := by
  unfold save saveOn
  cases hmade : makeParent t cwd path with
  | error e => simp
  | ok u =>
    cases htext : c.text? with
    | none => simp
    | some text =>
      cases hwrite : u.write path.names (Utf8.encode text) with
      | error cause => simp [hwrite]
      | ok w => simp [hwrite]

/-- **What a disk that may fail has saved**, one that does not fail would have saved as well. -/
theorem save_of_saveOn {fault : Option WriteFault} (h : c.saveOn fault t cwd path = (u, .ok ())) :
    c.save t cwd path = (u, .ok ()) := by
  unfold saveOn at h
  cases hmade : makeParent t cwd path with
  | error e => simp [hmade] at h
  | ok v =>
    cases htext : c.text? with
    | none => simp [hmade, htext] at h
    | some text =>
      simp only [hmade, htext] at h
      rcases WriteFault.taken_cases fault (Utf8.encode text) with heq | ⟨part, cause, heq, -⟩ <;>
        rw [heq] at h <;> dsimp only at h <;> split at h
      · cases h
      · rename_i hwrite
        cases h
        exact save_ok_iff.mpr ⟨v, text, hmade, htext, hwrite⟩
      · cases h
      · cases h

/-- **A configuration can be saved** exactly if its sizes fit and the path takes a file. -/
theorem exists_save_iff :
    (∃ v, c.save t cwd path = (v, .ok ())) ↔ c.SizesFit ∧ t.TakesFile cwd path := by
  rw [← exists_text_iff]
  constructor
  · rintro ⟨v, hsaved⟩
    obtain ⟨u, text, hmade, htext, hwrite⟩ := save_ok_iff.mp hsaved
    exact ⟨⟨text, htext⟩, u, hmade, Tree.write_ok_iff.mp ⟨v, hwrite⟩⟩
  · rintro ⟨⟨text, htext⟩, u, hmade, htakes⟩
    obtain ⟨v, hwrite⟩ := Tree.write_ok_iff.mpr htakes
    exact ⟨v, save_ok_iff.mpr ⟨u, text, hmade, htext, hwrite⟩⟩

/-! ## 2. Saving again -/

/-- **The directory above a file that was written is there**: it was made, and the file, which is
no directory, is not in its place. -/
theorem makeParent_again {bytes : List UInt8} (hmade : makeParent t cwd path = .ok u)
    (hwrite : u.write path.names bytes = .ok v) :
    ∃ w, makeParent v cwd path = .ok w ∧ ∀ names, w.node? names = v.node? names := by
  unfold makeParent at hmade ⊢
  cases hparent : path.parent? cwd with
  | none => exact ⟨v, rfl, fun names => rfl⟩
  | some parent =>
    rw [hparent] at hmade
    cases hdirs : t.makeDirs parent.names with
    | error cause => simp [hdirs] at hmade
    | ok made =>
      obtain rfl : made = u := by simpa [hdirs] using hmade
      have habove : made.node? parent.names = some .dir := Tree.node?_makeDirs_self hdirs
      obtain ⟨hfile, hother⟩ := Tree.sets_write hwrite
      have hne : parent.names ≠ path.names := by
        intro heq
        rcases Tree.write_ok_iff.mp ⟨v, hwrite⟩ with ⟨old, hold⟩ | ⟨hnone, -⟩
        · rw [← heq, habove] at hold
          cases hold
        · rw [← heq, habove] at hnone
          cases hnone
      obtain ⟨w, hw, hsame⟩ := Tree.makeDirs_of_dir ((hother _ hne).trans habove)
      exact ⟨w, by dsimp only; rw [hw], hsame⟩

/-- **To save a configuration again changes nothing.** -/
theorem save_again (h : c.save t cwd path = (u, .ok ())) :
    ∃ v, c.save u cwd path = (v, .ok ()) ∧ ∀ names, v.node? names = u.node? names := by
  obtain ⟨made, text, hmade, htext, hwrite⟩ := save_ok_iff.mp h
  obtain ⟨w, hmade', hsame⟩ := makeParent_again hmade hwrite
  have hfile := (Tree.sets_write hwrite).self
  have hfile' : w.node? path.names = some (.file (Utf8.encode text)) := (hsame _).trans hfile
  obtain ⟨v, hwrite'⟩ := Tree.write_ok_iff.mpr (Or.inl ⟨Utf8.encode text, hfile'⟩)
  refine ⟨v, save_ok_iff.mpr ⟨w, text, hmade', htext, hwrite'⟩, fun names => ?_⟩
  obtain ⟨hself, hother⟩ := Tree.sets_write hwrite'
  by_cases hnames : names = path.names
  · rw [hnames, hself, hfile]
  · rw [hother names hnames, hsame]

/-! ## 3. The way round -/

/-- **Saving and loading are inverse.**  A configuration whose sizes fit can be saved wherever a
file can be written, and no other one can.  What is loaded from there is the same configuration,
with the same text; to save it again succeeds, and leaves that text in the file and the whole
tree as it is. -/
theorem save_load (c : Config) (t : Tree) (cwd : List String) (path : Path) :
    ((∃ u, c.save t cwd path = (u, .ok ())) ↔ c.SizesFit ∧ t.TakesFile cwd path) ∧
    ∀ u, c.save t cwd path = (u, .ok ()) →
      load u path = .ok c ∧
      ∃ text, c.text? = some text ∧ u.node? path.names = some (.file (Utf8.encode text)) ∧
        ∀ loaded, load u path = .ok loaded →
          loaded.text? = some text ∧
          ∃ v, loaded.save u cwd path = (v, .ok ()) ∧ ∀ names, v.node? names = u.node? names := by
  refine ⟨exists_save_iff, fun u hsaved => ?_⟩
  have hload : load u path = .ok c := load_of_saveOn hsaved rfl
  obtain ⟨made, text, -, htext, hwrite⟩ := save_ok_iff.mp hsaved
  refine ⟨hload, text, htext, (Tree.sets_write hwrite).self, fun loaded hloaded => ?_⟩
  obtain rfl : c = loaded := Except.ok.inj (hload.symm.trans hloaded)
  exact ⟨htext, save_again hsaved⟩

/-- A station whose counters were folded at the end of a leap day, with settings at the ends of
their ranges and a log tree whose place takes some quoting. -/
def leapDay : Config where
  root := some "sd card\\\"log\"\n水"
  chunkSize := 9223372036854775807
  maxPayload := 0
  station :=
    { zones := 255
      flowRates := [65535, 0, 1]
      weekdayCounters := #v[4294967295, 0, 1, 2, 3, 4, 5]
      lifetime := 4294967295
      counterDate := DateTime.ofParts? 2024 2 29 23 59 59 999999999 }

/-- The leap day is written as day 60 of its year, in a directory that had to be made, and is
loaded as the leap day. -/
theorem save_load_of_leapDay :
    leapDay.station.counterDate.map DateTime.parts = some [2024, 60, 23, 59, 59, 999999999] ∧
    ∃ u, leapDay.save (.dir []) [] ⟨"/etc/irrigo.toml", ["etc", "irrigo.toml"]⟩ = (u, .ok ()) ∧
      load u ⟨"/etc/irrigo.toml", ["etc", "irrigo.toml"]⟩ = .ok leapDay ∧
      ∃ v, leapDay.save u [] ⟨"/etc/irrigo.toml", ["etc", "irrigo.toml"]⟩ = (v, .ok ()) ∧
        v.node? ["etc", "irrigo.toml"] = u.node? ["etc", "irrigo.toml"] := by
  have hparent : Path.parent? [] ⟨"/etc/irrigo.toml", ["etc", "irrigo.toml"]⟩ =
      some ⟨"/etc", ["etc"]⟩ := by decide +kernel
  have htakes : (Tree.dir []).TakesFile [] ⟨"/etc/irrigo.toml", ["etc", "irrigo.toml"]⟩ := by
    refine ⟨.dir [("etc", .dir [])], ?_, Or.inr ⟨rfl, rfl⟩⟩
    rw [makeParent, hparent]
    rfl
  obtain ⟨hsaves, hround⟩ :=
    save_load leapDay (.dir []) [] ⟨"/etc/irrigo.toml", ["etc", "irrigo.toml"]⟩
  obtain ⟨u, hsaved⟩ := hsaves.mpr ⟨⟨by decide, by decide⟩, htakes⟩
  obtain ⟨hload, text, -, -, hagain⟩ := hround u hsaved
  obtain ⟨-, v, hsaved', hsame⟩ := hagain leapDay hload
  exact ⟨by decide +kernel, u, hsaved, hload, v, hsaved', hsame _⟩

end Config

end IrrigationLog
