/-
# The time given on a command line

A time on the command line is typed to the second, so the settings of an invocation that says
when it is made say it to the second (`Invocation.read_onSecond`).  The settings are put together
from the words before and after the name of a command, by switches that each read one word, so
the module first says what a walk through words leaves alone.

* **A walk keeps** every property of what is read that the switches and the places of its grammar
  keep (`Grammar.yields_walk`), whatever the words are and in whatever order they come.
* **A command** is built from what such a walk has read, and the one below another command has the
  settings of both (`CommandLine.yields_readLeaf`, `CommandLine.yields_readBranch`).
* **Every grammar** of the program keeps that the time is on the second: `--now` is the one switch
  that sets it (`Level.keeps_commonSwitches`).
-/
import IrrigationLog.Command.Line
import IrrigationLog.Proofs.TypedTimes

namespace IrrigationLog

/-! ## 1. Results -/

/-- What is said of the result, if there is one. -/
def Yields {ε α : Type} (P : α → Prop) (x : Except ε α) : Prop := ∀ a, x = .ok a → P a

namespace Yields

variable {ε α β : Type} {P : α → Prop} {Q : β → Prop}

theorem ok {a : α} (h : P a) : Yields P (.ok a : Except ε α) := by
  intro b hb
  cases hb
  exact h

theorem error (e : ε) : Yields P (.error e : Except ε α) := by
  intro a ha
  cases ha

theorem bind {x : Except ε α} {f : α → Except ε β} (hx : Yields P x)
    (hf : ∀ a, P a → Yields Q (f a)) : Yields Q (x >>= f) := by
  cases x with
  | error e => exact error e
  | ok a => exact hf a (hx a rfl)

theorem map {x : Except ε α} {f : α → β} (hx : Yields P x) (hf : ∀ a, P a → Q (f a)) :
    Yields Q (x.map f) := by
  cases x with
  | error e => exact error e
  | ok a => exact ok (hf a (hx a rfl))

end Yields

/-! ## 2. Walks -/

variable {σ : Type} {P : σ → Prop}

/-- What a switch or a place stores keeps a property of what is read. -/
def Stores (P : σ → Prop) (store : String → σ → Except ValueError σ) : Prop :=
  ∀ word read, P read → Yields P (store word read)

/-- A switch keeps a property of what is read. -/
def SwitchAction.Keeps (P : σ → Prop) : SwitchAction σ → Prop
  | .flag set => ∀ read, P read → P (set read)
  | .valued _ _ store => Stores P store
  | .help => True
  | .version => True

/-- A grammar keeps a property of what is read. -/
structure Grammar.Keeps (P : σ → Prop) (g : Grammar σ) : Prop where
  switches : ∀ s ∈ g.switches, s.action.Keeps P
  places : ∀ p ∈ g.places, Stores P p.store

/-- What is held keeps a property of what is read. -/
def Held.Keeps (P : σ → Prop) : Held σ → Prop
  | .nothing => True
  | .awaiting s => Stores P s.store
  | .value s _ => Stores P s.store
  | .words p _ => Stores P p.store

/-- A walk has a property, and keeps it with what it holds. -/
structure Walk.Keeps (P : σ → Prop) (w : Walk σ) : Prop where
  read : P w.read
  held : w.held.Keeps P

namespace Walk

variable {w : Walk σ}

theorem yields_storeValue {s : ValuedSwitch σ} (hw : w.Keeps P) (hs : Stores P s.store)
    (word : String) : Yields (Walk.Keeps P) (w.storeValue s word) := by
  unfold storeValue
  split
  · exact .error _
  · split
    · rename_i hread
      exact .ok ⟨hs word w.read hw.read _ hread, hw.held⟩
    · exact .error _

theorem yields_storeWords {p : Place σ} (hw : w.Keeps P) (hp : Stores P p.store)
    (words : List String) : Yields (Walk.Keeps P) (w.storeWords p words) := by
  induction words generalizing w with
  | nil => exact .ok hw
  | cons word words ih =>
    unfold storeWords
    split
    · rename_i hread
      exact ih ⟨hp word w.read hw.read _ hread, hw.held⟩
    · exact .error _

/-- Reading what is held keeps the property. -/
theorem yields_settle (hw : w.Keeps P) : Yields (Walk.Keeps P) w.settle := by
  have hfree : Walk.Keeps P { w with held := .nothing } := ⟨hw.read, trivial⟩
  have hheld := hw.held
  unfold settle
  dsimp only
  split
  · exact .ok hfree
  · exact .error _
  · rename_i heq
    rw [heq] at hheld
    exact yields_storeValue hfree hheld _
  · rename_i heq
    rw [heq] at hheld
    exact yields_storeWords hfree hheld _

theorem yields_giveFlag {set : σ → σ} (hw : w.Keeps P) (hset : ∀ read, P read → P (set read))
    (name : String) : Yields (Walk.Keeps P) (w.giveFlag name set) := by
  refine (yields_settle hw).bind fun v hv => ?_
  split
  · exact .error _
  · exact .ok ⟨hset v.read hv.read, hv.held⟩

theorem yields_giveValued {s : ValuedSwitch σ} (hw : w.Keeps P) (hs : Stores P s.store)
    (attached : Option String) : Yields (Walk.Keeps P) (w.giveValued s attached) := by
  refine (yields_settle hw).bind fun v hv => ?_
  cases attached with
  | none => exact .ok ⟨hv.read, hs⟩
  | some word => exact yields_storeValue hv hs word

end Walk

namespace Grammar

variable {g : Grammar σ} {w : Walk σ}

theorem yields_takeWord (hg : g.Keeps P) (hw : w.Keeps P) (trailing : Bool) (word : String) :
    Yields (Walk.Keeps P) (g.takeWord w trailing word) := by
  unfold takeWord
  split
  · split
    · exact .error _
    · exact .error _
  · rename_i p hplace
    have hp := hg.places p (List.mem_of_getElem? hplace)
    split
    · exact .ok ⟨hw.read, hp⟩
    · exact (Walk.yields_settle hw).map fun v hv => ⟨hv.read, hp⟩
    · exact (Walk.yields_settle hw).map fun v hv => ⟨hv.read, hp⟩

theorem yields_takeValueOrWord (hg : g.Keeps P) (hw : w.Keeps P) (word : String) :
    Yields (Walk.Keeps P) (g.takeValueOrWord w word) := by
  have hheld := hw.held
  unfold takeValueOrWord
  split
  · rename_i heq
    rw [heq] at hheld
    exact .ok ⟨hw.read, hheld⟩
  · exact yields_takeWord hg hw false word

theorem yields_takeNamed (hg : g.Keeps P) (hw : w.Keeps P) (name : String)
    (attached : Option String) : Yields (Walk.Keeps P) (g.takeNamed w name attached) := by
  unfold takeNamed
  split
  · exact .error _
  · rename_i s hfind
    have hs := hg.switches s (List.mem_of_find?_eq_some hfind)
    split
    · rename_i haction
      rw [haction] at hs
      refine Walk.yields_giveValued hw ?_ _
      exact hs
    · exact .error _
    · rename_i haction
      rw [haction] at hs
      exact Walk.yields_giveFlag hw hs name
    · exact (Walk.yields_settle hw).bind fun _ _ => .error _
    · exact (Walk.yields_settle hw).bind fun _ _ => .error _

theorem yields_takeLetters (hg : g.Keeps P) (hw : w.Keeps P) (letters : List Char) :
    Yields (Walk.Keeps P) (g.takeLetters w letters) := by
  induction letters generalizing w with
  | nil => exact .ok hw
  | cons c cs ih =>
    unfold takeLetters
    split
    · exact .error _
    · rename_i s hfind
      have hs := hg.switches s (List.mem_of_find?_eq_some hfind)
      split
      · rename_i haction
        rw [haction] at hs
        split
        · rename_i hgiven
          exact ih (Walk.yields_giveFlag hw hs s.name _ hgiven)
        · exact .error _
      · rename_i haction
        rw [haction] at hs
        refine Walk.yields_giveValued hw ?_ _
        exact hs
      · exact (Walk.yields_settle hw).bind fun _ _ => .error _
      · exact (Walk.yields_settle hw).bind fun _ _ => .error _

theorem yields_take (hg : g.Keeps P) (hw : w.Keeps P) (word : String) :
    Yields (Walk.Keeps P) (g.take w word) := by
  unfold take
  split
  · split
    · exact yields_takeNamed hg hw _ _
    · exact yields_takeNamed hg hw _ _
  · split
    · exact yields_takeValueOrWord hg hw word
    · exact yields_takeLetters hg hw _
  · exact yields_takeValueOrWord hg hw word

/-- **A walk keeps what its grammar keeps.** -/
theorem yields_walk (hg : g.Keeps P) (hw : w.Keeps P) (trailing : Bool) (words : List String) :
    Yields (fun r => r.1.Keeps P) (g.walk w trailing words) := by
  induction words generalizing w trailing with
  | nil => exact .ok hw
  | cons word words ih =>
    unfold walk
    split
    · split
      · rename_i htaken
        exact ih (yields_takeWord hg hw true word _ htaken) true
      · exact .error _
    · split
      · exact .ok hw
      · split
        · exact ih hw true
        · split
          · rename_i htaken
            exact ih (yields_take hg hw word _ htaken) false
          · exact .error _

end Grammar

/-! ## 3. Times on the second -/

/-- **A typed time has no fraction of a second.** -/
theorem DateTime.nanosecond_of_parse? {text : List Char} {t : DateTime}
    (h : parse? text = some t) : t.time.nanosecond = 0 := by
  obtain ⟨_, _, _, -, -, htyped, -⟩ := parse?_eq_some_iff.mp h
  exact htyped.1

theorem Value.yields_time (word : String) :
    Yields (fun t => t.time.nanosecond = 0) (Value.time word) := by
  unfold Value.time
  split
  · rename_i hparsed
    exact .ok (DateTime.nanosecond_of_parse? hparsed)
  · exact .error _

/-- The settings say to the second when the invocation is made, if they say it. -/
def Globals.OnSecond (g : Globals) : Prop := ∀ t, g.now = some t → t.time.nanosecond = 0

theorem Globals.OnSecond.under {inner outer : Globals} (hinner : inner.OnSecond)
    (houter : outer.OnSecond) : (inner.under outer).OnSecond := by
  intro t ht
  rcases Option.or_eq_some_iff.mp ht with hin | ⟨-, hout⟩
  · exact hinner t hin
  · exact houter t hout

/-! ## 4. The grammars -/

namespace Level

variable {α δ : Type}

/-- The settings of a level are on the second. -/
def OnSecond (l : Level δ) : Prop := l.globals.OnSecond

theorem stores_onDraft (set : α → δ → δ) (read : String → Except ValueError α) :
    Stores OnSecond (onDraft set read) := by
  intro word l hl
  have hany : Yields (fun _ => True) (read word) := fun _ _ => trivial
  exact hany.map fun a _ => hl

theorem stores_onGlobals {set : α → Globals → Globals} {read : String → Except ValueError α}
    {Q : α → Prop} (hread : ∀ word, Yields Q (read word))
    (hset : ∀ a g, Q a → g.OnSecond → (set a g).OnSecond) :
    Stores (OnSecond : Level δ → Prop) (onGlobals set read) := by
  intro word l hl
  exact (hread word).map fun a ha => hset a l.globals ha hl

@[simp]
theorem keeps_switch (name : String) (letter : Option Char) (placeholder : String)
    (negative : Bool) (set : α → δ → δ) (read : String → Except ValueError α) :
    (switch name letter placeholder negative set read).action.Keeps OnSecond :=
  stores_onDraft set read

@[simp]
theorem stores_place (placeholder : String) (negative : Bool) (set : α → δ → δ)
    (read : String → Except ValueError α) :
    Stores OnSecond (place placeholder negative set read).store :=
  stores_onDraft set read

/-- A setting other than the time. -/
theorem stores_path {set : String → Globals → Globals} (h : ∀ p g, (set p g).now = g.now) :
    Stores (OnSecond : Level δ → Prop) (onGlobals set Value.path) := by
  refine stores_onGlobals (Q := fun _ => True) (fun _ _ _ => trivial) fun p g _ hg => ?_
  intro t ht
  rw [h] at ht
  exact hg t ht

/-- **The switches that every command has keep the time on the second.** -/
theorem keeps_commonSwitches :
    ∀ s ∈ (commonSwitches : List (Switch (Level δ))), s.action.Keeps OnSecond := by
  simp only [commonSwitches, List.forall_mem_cons]
  refine ⟨fun l hl => hl, fun l hl => hl, stores_path fun p g => rfl, stores_path fun p g => rfl,
    stores_path fun p g => rfl, ?_, trivial, fun s hs => absurd hs List.not_mem_nil⟩
  refine stores_onGlobals Value.yields_time fun time g htime hg => ?_
  intro t ht
  cases ht
  exact htime

end Level

namespace CommandLine

/-- A reader of commands whose settings are on the second. -/
def Timely (read : CommandReader) : Prop :=
  ∀ env words, Yields (fun r => r.1.OnSecond) (read env words)

section Readers

variable {δ : Type} {P : Level δ → Prop} {Q : Globals × Command → Prop}

theorem yields_close {w : Walk (Level δ)} (env : Environment) (hw : w.Keeps P) :
    Yields (fun r => P r.1) (w.close env) := by
  refine (Walk.yields_settle hw).bind fun v hv => ?_
  have hany : Yields (fun _ => True) (anyStandIn env v.given standIns) := fun _ _ => trivial
  exact hany.bind fun _ _ => .ok hv.read

/-- **A command without subcommands** is built from a level with what its grammar keeps. -/
theorem yields_readLeaf {g : Grammar (Level δ)} (hg : g.Keeps P) {draft : δ}
    (hstart : P { draft }) {build : δ → Option Command}
    (hbuild : ∀ l command, P l → build l.draft = some command → Q (l.globals, command))
    (env : Environment) (words : List String) : Yields Q (readLeaf g draft build env words) := by
  have hwalk : (Walk.start draft).Keeps P := ⟨hstart, trivial⟩
  refine (Grammar.yields_walk hg hwalk false words).bind fun ⟨w, rest⟩ hw => ?_
  refine (yields_close env hw).bind fun ⟨level, given⟩ hlevel => ?_
  dsimp only
  split
  · rename_i command hcommand
    exact .ok (hbuild level command hlevel hcommand)
  · exact .error _

/-- Help is no command. -/
theorem yields_readHelp {α : Type} {R : α → Prop} (entries : List Entry) (words : List String) :
    Yields R (readHelp entries words) := by
  unfold readHelp
  repeat' split
  all_goals exact .error _

/-- **A command with subcommands** gives what a subcommand gives, under its own settings. -/
theorem yields_readBranch {P : Level Unit → Prop} {name about : String} {entries : List Entry}
    {extra : List (Switch (Level Unit))}
    (hswitches : ∀ s ∈ Level.commonSwitches ++ extra, s.action.Keeps P)
    (hstart : P { draft := () })
    (hentries : ∀ e ∈ entries, ∀ env words, Yields Q (e.read env words))
    (hunder : ∀ inner command l, Q (inner, command) → P l → Q (inner.under l.globals, command))
    (env : Environment) (words : List String) :
    Yields Q (readBranch name about entries extra env words) := by
  have hg : Grammar.Keeps P
      { switches := Level.commonSwitches ++ extra
        subcommands := entries.map Entry.name ++ ["help"] } :=
    ⟨hswitches, fun _ hp => absurd hp List.not_mem_nil⟩
  have hwalk : (Walk.start ()).Keeps P := ⟨hstart, trivial⟩
  refine (Grammar.yields_walk hg hwalk false words).bind fun ⟨w, sub⟩ hw => ?_
  dsimp only
  split
  · exact (yields_close env hw).bind fun _ _ => .error _
  · split
    · exact yields_readHelp entries _
    · rename_i e hfind
      have hentry := hentries e (List.mem_of_find?_eq_some hfind) env
      refine (hentry _).bind fun ⟨inner, command⟩ hin => ?_
      exact (yields_close env hw).bind fun ⟨outer, given⟩ hout =>
        .ok (hunder inner command outer hin hout)

end Readers

/-- Before anything is read there is no time. -/
theorem onSecond_start {δ : Type} (draft : δ) : Level.OnSecond { draft } := by
  intro t ht
  cases ht

theorem timely_readLeaf {δ : Type} {g : Grammar (Level δ)} (hg : g.Keeps Level.OnSecond)
    (draft : δ) (build : δ → Option Command) : Timely (readLeaf g draft build) :=
  yields_readLeaf hg (onSecond_start draft) fun _ _ hl _ => hl

theorem timely_readPlain (command : Command) : Timely (readPlain command) :=
  timely_readLeaf ⟨Level.keeps_commonSwitches, fun _ hp => absurd hp List.not_mem_nil⟩ _ _

theorem timely_readBranch {name about : String} {entries : List Entry}
    {extra : List (Switch (Level Unit))} (hentries : ∀ e ∈ entries, Timely e.read)
    (hextra : ∀ s ∈ extra, s.action.Keeps Level.OnSecond) :
    Timely (readBranch name about entries extra) := by
  refine yields_readBranch ?_ (onSecond_start ()) hentries fun _ _ _ hin hout => hin.under hout
  intro s hs
  rcases List.mem_append.mp hs with hs | hs
  · exact Level.keeps_commonSwitches s hs
  · exact hextra s hs

theorem keeps_wateringGrammar : wateringGrammar.Keeps Level.OnSecond where
  switches := by simpa [wateringGrammar] using Level.keeps_commonSwitches
  places := by simp [wateringGrammar]

theorem keeps_sensorGrammar : sensorGrammar.Keeps Level.OnSecond where
  switches := Level.keeps_commonSwitches
  places := by simp [sensorGrammar]

theorem keeps_eventGrammar : eventGrammar.Keeps Level.OnSecond where
  switches := by simpa [eventGrammar] using Level.keeps_commonSwitches
  places := by simp [eventGrammar, Level.stores_onDraft]

theorem keeps_daySwitches {α : Type} :
    ∀ s ∈ (daySwitches : List (Switch (Level (QuestionDraft α)))),
      s.action.Keeps Level.OnSecond := by
  simp [daySwitches]

theorem keeps_graphGrammar : graphGrammar.Keeps Level.OnSecond where
  switches := by
    simpa [graphGrammar, or_imp, forall_and] using
      ⟨keeps_daySwitches, Level.keeps_commonSwitches⟩
  places := by simp [graphGrammar]

theorem keeps_tableGrammar : tableGrammar.Keeps Level.OnSecond where
  switches := by
    simpa [tableGrammar, or_imp, forall_and] using
      ⟨keeps_daySwitches, Level.keeps_commonSwitches⟩
  places := by simp [tableGrammar]

theorem keeps_seriesGrammar : seriesGrammar.Keeps Level.OnSecond where
  switches := by
    simpa [seriesGrammar, or_imp, forall_and] using
      ⟨keeps_daySwitches, Level.keeps_commonSwitches⟩
  places := by simp [seriesGrammar]

theorem keeps_completionsGrammar : completionsGrammar.Keeps Level.OnSecond where
  switches := Level.keeps_commonSwitches
  places := by simp [completionsGrammar]

theorem keeps_zonesGrammar : zonesGrammar.Keeps Level.OnSecond where
  switches := Level.keeps_commonSwitches
  places := by simp [zonesGrammar]

theorem keeps_flowGrammar : flowGrammar.Keeps Level.OnSecond where
  switches := Level.keeps_commonSwitches
  places := by simp [flowGrammar]

theorem timely_configEntries : ∀ e ∈ configEntries, Timely e.read := by
  simp only [configEntries, List.forall_mem_cons]
  exact ⟨timely_readPlain _, timely_readPlain _, timely_readLeaf keeps_zonesGrammar _ _,
    timely_readLeaf keeps_flowGrammar _ _, fun _ h => absurd h List.not_mem_nil⟩

theorem timely_entries : ∀ e ∈ entries, Timely e.read := by
  simp only [entries, List.forall_mem_cons]
  exact ⟨timely_readPlain _, timely_readLeaf keeps_wateringGrammar _ _,
    timely_readLeaf keeps_sensorGrammar _ _, timely_readLeaf keeps_eventGrammar _ _,
    timely_readLeaf keeps_graphGrammar _ _, timely_readLeaf keeps_tableGrammar _ _,
    timely_readLeaf keeps_seriesGrammar _ _, timely_readPlain _,
    timely_readBranch timely_configEntries fun _ h => absurd h List.not_mem_nil,
    timely_readLeaf keeps_completionsGrammar _ _, fun _ h => absurd h List.not_mem_nil⟩

end CommandLine

/-- **A command line says to the second when its command is given**, if it says it. -/
theorem Invocation.read_onSecond {env : Environment} {words : List String} {i : Invocation}
    (h : Invocation.read env words = .ok i) : i.globals.OnSecond := by
  have hversion : ∀ s ∈ [(⟨"version", some 'V', .version⟩ : Switch (Level Unit))],
      s.action.Keeps Level.OnSecond := by
    simp [SwitchAction.Keeps]
  have hread : CommandLine.Timely (CommandLine.readBranch "irrigo"
      "Irrigation controller log engine" CommandLine.entries [⟨"version", some 'V', .version⟩]) :=
    CommandLine.timely_readBranch CommandLine.timely_entries hversion
  have hall : Yields (fun i => i.globals.OnSecond) (Invocation.read env words) :=
    (hread env words).bind fun _ hg => .ok hg
  exact hall i h

end IrrigationLog
