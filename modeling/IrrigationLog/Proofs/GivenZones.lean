/-
# The zones given on a command line

Zones are numbered from 1, and a station has at most eight.  A command line that sets their number,
or the flow rate of one of them, is read only if the number is one that can be configured; so the
settings are never changed for zone 0 or for a zone beyond the last (`Invocation.read_inRange`).

* **The number** is checked where it is read, against the bounds of its argument
  (`Value.yields_zoneNumber`).
* **The command** is built from what was read in its places; the switches, which may stand between
  them, leave that alone (`Level.keeps_drafts_commonSwitches`).
* **All other commands** set neither (`CommandLine.ranged_entries`).
-/
import IrrigationLog.Proofs.GivenTime
import IrrigationLog.Station

namespace IrrigationLog

/-! ## 1. Numbers of zones -/

/-- The number of a zone that can be configured, or of such zones. -/
def Station.Configurable (n : UInt8) : Prop := 1 ≤ n ∧ n ≤ maxZones

/-- The zone, or the number of zones, is one that can be configured. -/
def ConfigAction.InRange : ConfigAction → Prop
  | zones count => Station.Configurable count
  | flow zone _ => Station.Configurable zone
  | show_ | path => True

/-- If a command is about the configuration, its numbers can be configured. -/
def Command.InRange (command : Command) : Prop :=
  ∀ action, command = .config action → action.InRange

/-- A number that is read is within its bounds. -/
theorem Value.yields_number (low high : Int) (word : String) :
    Yields (fun n => low ≤ n ∧ n ≤ high) (number low high word) := by
  unfold number
  split
  · exact .error _
  · split
    · rename_i hbounds
      exact .ok hbounds
    · exact .error _

theorem Value.yields_zoneNumber (word : String) :
    Yields Station.Configurable (zoneNumber word) := by
  refine (yields_number 1 8 word).map fun n hn => ?_
  have htoNat : (UInt8.ofNat n.toNat).toNat = n.toNat :=
    UInt8.toNat_ofNat_of_lt' (Nat.lt_of_le_of_lt (by omega : n.toNat ≤ 8) (by decide))
  have hone : (1 : UInt8).toNat = 1 := rfl
  have height : Station.maxZones.toNat = 8 := rfl
  rw [Station.Configurable, UInt8.le_iff_toNat_le, UInt8.le_iff_toNat_le, htoNat, hone, height]
  omega

/-! ## 2. Switches and places -/

namespace Level

variable {α δ : Type} {P : δ → Prop}

/-- What is read besides the settings has a property. -/
def Drafts (P : δ → Prop) (l : Level δ) : Prop := P l.draft

/-- A place for a word keeps what its values keep. -/
theorem stores_place_of {R : α → Prop} {set : α → δ → δ} {read : String → Except ValueError α}
    (hread : ∀ word, Yields R (read word)) (hset : ∀ a d, R a → P d → P (set a d))
    (placeholder : String) (negative : Bool) :
    Stores (Drafts P) (place placeholder negative set read).store := by
  intro word l hl
  exact (hread word).map fun a ha => hset a l.draft ha hl

/-- The switches that every command has change settings only. -/
theorem keeps_drafts_commonSwitches :
    ∀ s ∈ (commonSwitches : List (Switch (Level δ))), s.action.Keeps (Drafts P) := by
  have hglobals {β : Type} (set : β → Globals → Globals) (read : String → Except ValueError β) :
      Stores (Drafts P) (onGlobals set read) := by
    intro word l hl
    have hany : Yields (fun _ => True) (read word) := fun _ _ => trivial
    exact hany.map fun _ _ => hl
  simp only [commonSwitches, List.forall_mem_cons]
  exact ⟨fun l hl => hl, fun l hl => hl, hglobals _ _, hglobals _ _, hglobals _ _, hglobals _ _,
    trivial, fun s hs => absurd hs List.not_mem_nil⟩

end Level

/-! ## 3. The commands -/

namespace CommandLine

/-- A reader of commands with numbers that can be configured. -/
def Ranged (read : CommandReader) : Prop :=
  ∀ env words, Yields (fun r => r.2.InRange) (read env words)

/-- Every grammar keeps what is true of all. -/
theorem keeps_true {σ : Type} (g : Grammar σ) : g.Keeps fun _ => True where
  switches := by
    intro s _
    cases s.action with
    | flag set => exact fun _ _ => trivial
    | valued placeholder negative store => exact fun _ _ _ _ _ => trivial
    | help => trivial
    | version => trivial
  places := fun _ _ _ _ _ _ _ => trivial

/-- The commands of a reader that builds no other ones have numbers that can be configured. -/
theorem ranged_readLeaf {δ : Type} {g : Grammar (Level δ)} {draft : δ} {build : δ → Option Command}
    (hbuild : ∀ d command, build d = some command → command.InRange) :
    Ranged (readLeaf g draft build) :=
  yields_readLeaf (keeps_true g) trivial fun l command _ => hbuild l.draft command

theorem ranged_readPlain {command : Command} (h : command.InRange) : Ranged (readPlain command) :=
  ranged_readLeaf fun _ _ heq => Option.some.inj heq ▸ h

theorem ranged_readBranch {name about : String} {entries : List Entry}
    {extra : List (Switch (Level Unit))} (hentries : ∀ e ∈ entries, Ranged e.read) :
    Ranged (readBranch name about entries extra) :=
  yields_readBranch (P := fun _ => True) (keeps_true ⟨_, [], []⟩).switches trivial hentries
    fun _ _ _ hin _ => hin

/-- A number of a zone that was read, if one was, can be configured. -/
def ReadInRange (n? : Option UInt8) : Prop := ∀ n ∈ n?, Station.Configurable n

theorem ranged_zones :
    Ranged (readLeaf zonesGrammar none fun d => d.map fun n => .config (.zones n)) := by
  have hkeeps : zonesGrammar.Keeps (Level.Drafts ReadInRange) := by
    refine ⟨Level.keeps_drafts_commonSwitches, ?_⟩
    simp only [zonesGrammar, List.forall_mem_singleton]
    refine Level.stores_place_of Value.yields_zoneNumber ?_ _ _
    rintro n d hn - m ⟨⟩
    exact hn
  refine yields_readLeaf hkeeps (fun n hn => absurd hn (Option.not_mem_none n)) ?_
  intro l command hl hcommand action haction
  obtain ⟨n, hn, rfl⟩ := Option.map_eq_some_iff.mp hcommand
  cases haction
  exact hl n hn

theorem ranged_flow : Ranged (readLeaf flowGrammar (none, none) flowCommand?) := by
  have hkeeps : flowGrammar.Keeps (Level.Drafts fun d => ReadInRange d.1) := by
    refine ⟨Level.keeps_drafts_commonSwitches, ?_⟩
    have hany : ∀ word, Yields (fun _ => True) (Value.uint16 word) := fun _ _ _ => trivial
    simp only [flowGrammar, List.forall_mem_cons]
    refine ⟨Level.stores_place_of Value.yields_zoneNumber ?zone _ _,
      Level.stores_place_of hany ?rate _ _, fun _ hp => absurd hp List.not_mem_nil⟩
    case zone =>
      rintro n d hn - m ⟨⟩
      exact hn
    case rate => exact fun _ _ _ hd => hd
  refine yields_readLeaf hkeeps (fun n hn => absurd hn (Option.not_mem_none n)) ?_
  intro l command hl hcommand action haction
  unfold flowCommand? at hcommand
  split at hcommand
  · rename_i zone rate hdraft
    cases hcommand
    cases haction
    exact hl zone (by rw [hdraft]; rfl)
  · cases hcommand

theorem ranged_configEntries : ∀ e ∈ configEntries, Ranged e.read := by
  simp only [configEntries, List.forall_mem_cons]
  refine ⟨ranged_readPlain ?_, ranged_readPlain ?_, ranged_zones, ranged_flow,
    fun _ h => absurd h List.not_mem_nil⟩
  · rintro action ⟨⟩
    trivial
  · rintro action ⟨⟩
    trivial

/-- No other command is about the configuration. -/
theorem ranged_entries : ∀ e ∈ entries, Ranged e.read := by
  have hother {δ : Type} {g : Grammar (Level δ)} {draft : δ} {build : δ → Option Command}
      (hbuild : ∀ d action, build d ≠ some (.config action)) : Ranged (readLeaf g draft build) :=
    ranged_readLeaf fun d _ hcommand action haction => absurd (haction ▸ hcommand) (hbuild d action)
  simp only [entries, List.forall_mem_cons]
  exact ⟨hother (by simp), hother (by simp),
    hother (by simp [ReadingDraft.command?, Option.bind_eq_some_iff]),
    hother (by simp [EventDraft.command?]), hother (by simp), hother (by simp),
    hother (by simp [seriesCommand?, Option.bind_eq_some_iff]), hother (by simp),
    ranged_readBranch ranged_configEntries, hother (by simp), fun _ h => absurd h List.not_mem_nil⟩

end CommandLine

/-- **A command line that changes the configuration** names only zones that can be configured. -/
theorem Invocation.read_inRange {env : Environment} {words : List String} {i : Invocation}
    (h : Invocation.read env words = .ok i) : i.command.InRange := by
  have hread : CommandLine.Ranged (CommandLine.readBranch "irrigo"
      "Irrigation controller log engine" CommandLine.entries [⟨"version", some 'V', .version⟩]) :=
    CommandLine.ranged_readBranch CommandLine.ranged_entries
  have hall : Yields (fun i => i.command.InRange) (Invocation.read env words) :=
    (hread env words).bind fun _ hg => .ok hg
  exact hall i h

end IrrigationLog
