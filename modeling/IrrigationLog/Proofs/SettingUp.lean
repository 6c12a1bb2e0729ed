/-
# Setting up

Setting up goes through the categories one by one and makes the directory of each, unless it is
there.  It does not stop at a failure, but remembers the first one.  This module says what it
leaves behind on any tree, and why there is nothing left to do for a second time.

* **What is in the way.**  The directories of a path can be made unless a file stands at it or
  above it (`Tree.makeDirs_error_iff`).  A tree that only gained directories has the same files in
  the way (`Tree.AddsDirs.blocked_iff`), so that no category spoils another one.
* **One category** fails exactly if its directory is blocked (`LogBook.makeCategory_error_iff`).
* **All categories.**  Each that is not blocked has its directory in the end
  (`LogBook.node?_makeCategories_of_free`), and the failure that is told is that of the first one
  that is blocked (`LogBook.makeCategories_snd_iff`); both by induction on the categories, for any
  tree to start from.

`LogBook.setUp_settles` is the whole of it.
-/
import IrrigationLog.Proofs.Calls

namespace IrrigationLog

namespace Tree

variable {t u : Tree} {names : List String} {cause : Cause}

/-! ## 1. What is in the way of a directory -/

/-- A file stands at a path, or above it, and is why no directory can be made there. -/
def Blocked (t : Tree) (names : List String) (cause : Cause) : Prop :=
  ∃ above rest bytes, names = above ++ rest ∧ t.node? above = some (.file bytes) ∧
    cause = if rest = [] then .exists_ else .notDirectory

/-- A file blocks all that is below it, and itself. -/
theorem blocked_file_iff {bytes : List UInt8} :
    (file bytes).Blocked names cause ↔ cause = if names = [] then .exists_ else .notDirectory := by
  constructor
  · rintro ⟨above, rest, content, rfl, hfile, rfl⟩
    cases above with
    | nil => rfl
    | cons name above => cases hfile
  · intro h
    exact ⟨[], names, bytes, rfl, rfl, h⟩

/-- The top of a directory is not blocked. -/
theorem not_blocked_dir_nil {es : List (String × Tree)} : ¬ (dir es).Blocked [] cause := by
  rintro ⟨above, rest, bytes, hnames, hfile, -⟩
  obtain ⟨rfl, -⟩ := List.append_eq_nil_iff.mp hnames.symm
  cases hfile

/-- What is in the way below a name stands in the entry of that name. -/
theorem blocked_dir_cons_iff {es : List (String × Tree)} {name : String} :
    (dir es).Blocked (name :: names) cause ↔
      ∃ s, es.lookup name = some s ∧ s.Blocked names cause := by
  constructor
  · rintro ⟨above, rest, bytes, hnames, hfile, hcause⟩
    cases above with
    | nil => cases hfile
    | cons n above =>
      obtain ⟨rfl, rfl⟩ := List.cons.inj hnames
      rw [node?_dir_cons] at hfile
      obtain ⟨s, hs, hfile⟩ := Option.bind_eq_some_iff.mp hfile
      exact ⟨s, hs, above, rest, bytes, rfl, hfile, hcause⟩
  · rintro ⟨s, hs, above, rest, bytes, rfl, hfile, hcause⟩
    refine ⟨name :: above, rest, bytes, rfl, ?_, hcause⟩
    rw [node?_dir_cons, hs]
    exact hfile

/-- **Directories cannot be made** exactly where they are blocked. -/
theorem makeDirs_error_iff : t.makeDirs names = .error cause ↔ t.Blocked names cause := by
  induction names generalizing t with
  | nil =>
    cases t with
    | file bytes => simp [makeDirs, blocked_file_iff, eq_comm]
    | dir es => simp [makeDirs, not_blocked_dir_nil]
  | cons name names ih =>
    cases t with
    | file bytes => simp [makeDirs, blocked_file_iff, eq_comm]
    | dir es =>
      rw [blocked_dir_cons_iff, makeDirs]
      cases hl : es.lookup name with
      | none => simp
      | some s =>
        have hs := @ih s
        cases hmade : s.makeDirs names with
        | ok v => simpa [hmade, Except.map] using hs
        | error e => simpa [hmade, Except.map] using hs

/-- Directories that were made are there. -/
theorem node?_makeDirs_self (h : t.makeDirs names = .ok u) : u.node? names = some .dir := by
  induction names generalizing t u with
  | nil =>
    cases t with
    | file bytes => cases h
    | dir es =>
      cases h
      rfl
  | cons name names ih =>
    obtain ⟨es, v, rfl, rfl, ⟨s, -, hs⟩ | ⟨-, rfl⟩⟩ := makeDirs_cons_ok h
    · rw [node?_setEntry_self]
      exact ih hs
    · rw [node?_setEntry_self, node?_nest, if_pos List.prefix_rfl]

/-- Above a directory there are directories. -/
theorem node?_dir_above {path : List String} (hpath : path <+: names)
    (h : t.node? names = some .dir) : t.node? path = some .dir := by
  obtain ⟨rest, rfl⟩ := hpath
  cases rest with
  | nil => rwa [List.append_nil] at h
  | cons name rest =>
    refine Decidable.byContradiction fun hother => ?_
    rw [node?_append_of_not_dir hother] at h
    cases h

/-- Nothing is in the way of a directory that is there. -/
theorem not_blocked_of_dir (h : t.node? names = some .dir) : ¬ t.Blocked names cause := by
  rintro ⟨above, rest, bytes, rfl, hfile, -⟩
  rw [node?_dir_above (List.prefix_append above rest) h] at hfile
  cases hfile

/-- To make directories that are there changes nothing. -/
theorem makeDirs_of_dir (h : t.node? names = some .dir) :
    ∃ u, t.makeDirs names = .ok u ∧ ∀ path, u.node? path = t.node? path := by
  cases hmade : t.makeDirs names with
  | error cause => exact absurd (makeDirs_error_iff.mp hmade) (not_blocked_of_dir h)
  | ok u =>
    refine ⟨u, rfl, fun path => ?_⟩
    rcases node?_makeDirs hmade path with hsame | ⟨hpath, hnone, -⟩
    · exact hsame
    · rw [node?_dir_above hpath h] at hnone
      cases hnone

/-- What blocks a path below another one stands at the path itself, or blocks the other one. -/
theorem Blocked.above {name : String} (h : t.Blocked (names ++ [name]) cause) :
    (∃ bytes, t.node? (names ++ [name]) = some (.file bytes)) ∨
      ∃ cause', t.Blocked names cause' := by
  obtain ⟨above, rest, bytes, hnames, hfile, -⟩ := h
  rcases List.eq_nil_or_concat rest with rfl | ⟨rest, last, rfl⟩
  · rw [List.append_nil] at hnames
    exact Or.inl ⟨bytes, hnames ▸ hfile⟩
  · rw [List.concat_eq_append, ← List.append_assoc] at hnames
    obtain ⟨rfl, -⟩ := List.append_inj' hnames rfl
    exact Or.inr ⟨_, above, rest, bytes, rfl, hfile, rfl⟩

theorem isDir_iff : t.isDir names = true ↔ t.node? names = some .dir := by
  unfold isDir node?
  cases t.find? names with
  | none => simp
  | some s => cases s <;> simp [node]

/-! ## 2. Trees that gained directories -/

/-- Directories that were added take the place of no file. -/
theorem AddsDirs.node?_file_iff (h : t.AddsDirs u) {path : List String} {bytes : List UInt8} :
    u.node? path = some (.file bytes) ↔ t.node? path = some (.file bytes) := by
  rcases h path with hsame | ⟨hnone, hdir⟩
  · rw [hsame]
  · rw [hnone, hdir]
    simp

/-- **The files in the way stay the same.** -/
theorem AddsDirs.blocked_iff (h : t.AddsDirs u) :
    u.Blocked names cause ↔ t.Blocked names cause := by
  unfold Blocked
  simp only [h.node?_file_iff]

/-- Directories stay. -/
theorem AddsDirs.node?_dir (h : t.AddsDirs u) {path : List String}
    (hdir : t.node? path = some .dir) : u.node? path = some .dir := by
  rcases h path with hsame | ⟨-, hnew⟩
  · exact hsame.trans hdir
  · exact hnew

end Tree

namespace LogBook

variable {root : Path} {t u : Tree} {c : Category} {cs : List Category} {e : StoreError}

/-! ## 3. One category -/

/-- The directory of a category is blocked. -/
def Blocks (root : Path) (t : Tree) (c : Category) : Prop :=
  ∃ cause, t.Blocked (Partition.directory root c).names cause

/-- **A category fails** exactly if its directory is blocked, and the failure says where and why. -/
theorem makeCategory_error_iff :
    makeCategory root t c = .error e ↔
      ∃ cause, t.Blocked (Partition.directory root c).names cause ∧
        e = .createDirectory (Partition.directory root c) cause := by
  simp only [← Tree.makeDirs_error_iff]
  rcases makeCategory_cases root t c with ⟨hdir, heq⟩ | ⟨u, hmade, heq⟩ | ⟨cause, hmade, heq⟩
  · have hfree (cause : Cause) : t.makeDirs (Partition.directory root c).names ≠ .error cause :=
      fun h => Tree.not_blocked_of_dir (Tree.isDir_iff.mp hdir) (Tree.makeDirs_error_iff.mp h)
    simp [heq, hfree]
  · simp [heq, hmade]
  · simp [heq, hmade, eq_comm]

/-- A category that does not fail has its directory, and leaves all else as it was. -/
theorem of_makeCategory (h : makeCategory root t c = .ok u) :
    t.AddsDirs u ∧ u.node? (Partition.directory root c).names = some .dir := by
  refine ⟨.of_along (node?_makeCategory h), ?_⟩
  rcases makeCategory_cases root t c with ⟨hdir, heq⟩ | ⟨v, hmade, heq⟩ | ⟨cause, -, heq⟩
  · obtain rfl := Except.ok.inj (heq.symm.trans h)
    exact Tree.isDir_iff.mp hdir
  · obtain rfl := Except.ok.inj (heq.symm.trans h)
    exact Tree.node?_makeDirs_self hmade
  · cases heq.symm.trans h

/-- A directory that is there is not made again. -/
theorem makeCategory_of_dir (h : t.node? (Partition.directory root c).names = some .dir) :
    makeCategory root t c = .ok t := by
  unfold makeCategory
  dsimp only
  rw [if_pos (Tree.isDir_iff.mpr h)]

/-! ## 4. All categories -/

/-- Categories add directories, each on what the ones before it left. -/
theorem addsDirs_makeCategories (root : Path) (t : Tree) (cs : List Category) :
    t.AddsDirs (makeCategories root t cs).1 :=
  .of_along (node?_makeCategories root t cs)

/-- **A category that is not blocked has its directory in the end**, whatever became of the
others. -/
theorem node?_makeCategories_of_free (hc : c ∈ cs) (hfree : ¬ Blocks root t c) :
    (makeCategories root t cs).1.node? (Partition.directory root c).names = some .dir := by
  induction cs generalizing t with
  | nil => cases hc
  | cons d cs ih =>
    cases hmade : makeCategory root t d with
    | ok u =>
      obtain ⟨hadds, hdir⟩ := of_makeCategory hmade
      rw [makeCategories, hmade]
      rcases List.mem_cons.mp hc with rfl | hc
      · exact (addsDirs_makeCategories root u cs).node?_dir hdir
      · refine ih hc fun ⟨cause, hblocked⟩ => ?_
        exact hfree ⟨cause, hadds.blocked_iff.mp hblocked⟩
    | error e =>
      obtain ⟨cause, hblocked, -⟩ := makeCategory_error_iff.mp hmade
      rw [makeCategories, hmade]
      rcases List.mem_cons.mp hc with rfl | hc
      · exact absurd ⟨cause, hblocked⟩ hfree
      · exact ih hc hfree

/-- A blocked category never has its directory. -/
theorem node?_makeCategories_of_blocked (cs : List Category) (h : Blocks root t c) :
    (makeCategories root t cs).1.node? (Partition.directory root c).names ≠ some .dir := by
  intro hdir
  obtain ⟨cause, hblocked⟩ := h
  exact Tree.not_blocked_of_dir hdir ((addsDirs_makeCategories root t cs).blocked_iff.mpr hblocked)

/-- The failure of the first category that is blocked. -/
def FirstFailure (root : Path) (t : Tree) (cs : List Category) (e : StoreError) : Prop :=
  ∃ before c after cause, cs = before ++ c :: after ∧ (∀ d ∈ before, ¬ Blocks root t d) ∧
    t.Blocked (Partition.directory root c).names cause ∧
    e = .createDirectory (Partition.directory root c) cause

theorem firstFailure_congr (h : t.AddsDirs u) :
    FirstFailure root u cs e ↔ FirstFailure root t cs e := by
  unfold FirstFailure Blocks
  simp only [h.blocked_iff]

/-- The first failure is that of the first category, or of the others if it is not blocked. -/
theorem firstFailure_cons_iff :
    FirstFailure root t (c :: cs) e ↔
      (∃ cause, t.Blocked (Partition.directory root c).names cause ∧
        e = .createDirectory (Partition.directory root c) cause) ∨
      ¬ Blocks root t c ∧ FirstFailure root t cs e := by
  constructor
  · rintro ⟨before, d, after, cause, hcs, hbefore, hblocked, he⟩
    cases before with
    | nil =>
      obtain ⟨rfl, -⟩ := List.cons.inj hcs
      exact Or.inl ⟨cause, hblocked, he⟩
    | cons b before =>
      obtain ⟨rfl, rfl⟩ := List.cons.inj hcs
      refine Or.inr ⟨hbefore _ List.mem_cons_self, before, d, after, cause, rfl, ?_, hblocked, he⟩
      intro d hd
      exact hbefore d (List.mem_cons_of_mem _ hd)
  · rintro (⟨cause, hblocked, he⟩ | ⟨hfree, before, d, after, cause, rfl, hbefore, hblocked, he⟩)
    · exact ⟨[], c, cs, cause, rfl, by simp, hblocked, he⟩
    · refine ⟨c :: before, d, after, cause, rfl, ?_, hblocked, he⟩
      intro b hb
      rcases List.mem_cons.mp hb with rfl | hb
      · exact hfree
      · exact hbefore b hb

/-- **The failure that is told** is the first one, judged by the tree as it was at the start. -/
theorem makeCategories_snd_iff :
    (makeCategories root t cs).2 = some e ↔ FirstFailure root t cs e := by
  induction cs generalizing t with
  | nil =>
    constructor
    · intro h
      cases h
    · rintro ⟨before, c, after, cause, hcs, -⟩
      cases before <;> cases hcs
  | cons c cs ih =>
    rw [firstFailure_cons_iff, ← makeCategory_error_iff]
    cases hmade : makeCategory root t c with
    | ok u =>
      have hfree : ¬ Blocks root t c := by
        rintro ⟨cause, hblocked⟩
        rw [makeCategory_error_iff.mpr ⟨cause, hblocked, rfl⟩] at hmade
        cases hmade
      rw [makeCategories, hmade]
      simp [hfree, ih, firstFailure_congr (of_makeCategory hmade).1]
    | error e' =>
      obtain ⟨cause, hblocked, -⟩ := makeCategory_error_iff.mp hmade
      have hblocks : Blocks root t c := ⟨cause, hblocked⟩
      rw [makeCategories, hmade]
      simp [hblocks]

/-- There is a first failure where there is a blocked category. -/
theorem exists_firstFailure_iff :
    (∃ e, FirstFailure root t cs e) ↔ ∃ c ∈ cs, Blocks root t c := by
  constructor
  · rintro ⟨e, before, c, after, cause, rfl, -, hblocked, -⟩
    exact ⟨c, by simp, cause, hblocked⟩
  · intro hex
    induction cs with
    | nil => simp at hex
    | cons c cs ih =>
      by_cases hc : Blocks root t c
      · obtain ⟨cause, hblocked⟩ := hc
        exact ⟨_, firstFailure_cons_iff.mpr (Or.inl ⟨cause, hblocked, rfl⟩)⟩
      · obtain ⟨d, hd, hblocks⟩ := hex
        have hd : d ∈ cs := (List.mem_cons.mp hd).resolve_left fun h => hc (h ▸ hblocks)
        obtain ⟨e, he⟩ := ih ⟨d, hd, hblocks⟩
        exact ⟨e, firstFailure_cons_iff.mpr (Or.inr ⟨hc, he⟩)⟩

/-- Nothing fails exactly if no category is blocked. -/
theorem makeCategories_snd_eq_none_iff :
    (makeCategories root t cs).2 = none ↔ ∀ c ∈ cs, ¬ Blocks root t c := by
  rw [Option.eq_none_iff_forall_ne_some]
  simp only [ne_eq, makeCategories_snd_iff]
  rw [← not_exists, exists_firstFailure_iff]
  simp only [not_exists, not_and]

/-- **Nothing is left to do** where every category has its directory or is blocked. -/
theorem makeCategories_of_settled
    (h : ∀ c ∈ cs, t.node? (Partition.directory root c).names = some .dir ∨ Blocks root t c) :
    (makeCategories root t cs).1 = t := by
  induction cs with
  | nil => rfl
  | cons c cs ih =>
    have hrest := ih fun d hd => h d (List.mem_cons_of_mem _ hd)
    rw [makeCategories]
    rcases h c List.mem_cons_self with hdir | ⟨cause, hblocked⟩
    · rw [makeCategory_of_dir hdir]
      exact hrest
    · rw [makeCategory_error_iff.mpr ⟨cause, hblocked, rfl⟩]
      exact hrest

/-- **A second time** makes nothing more and fails in the same way. -/
theorem makeCategories_again (root : Path) (t : Tree) (cs : List Category) :
    makeCategories root (makeCategories root t cs).1 cs = makeCategories root t cs := by
  have hadds := addsDirs_makeCategories root t cs
  apply Prod.ext
  · refine makeCategories_of_settled fun c hc => ?_
    by_cases hblocks : Blocks root t c
    · obtain ⟨cause, hblocked⟩ := hblocks
      exact Or.inr ⟨cause, hadds.blocked_iff.mpr hblocked⟩
    · exact Or.inl (node?_makeCategories_of_free hc hblocks)
  · apply Option.ext
    intro e
    rw [makeCategories_snd_iff, makeCategories_snd_iff, firstFailure_congr hadds]

/-! ## 5. Setting up -/

/-- The directory of a category is there after setting up, unless it is blocked. -/
theorem node?_directory_setUp_iff (b : LogBook) (c : Category) :
    b.setUp.1.tree.node? (Partition.directory b.root c).names = some .dir ↔
      ¬ Blocks b.root b.tree c := by
  rw [setUp_eq]
  constructor
  · intro hdir hblocks
    exact node?_makeCategories_of_blocked Category.all hblocks hdir
  · exact node?_makeCategories_of_free (Category.mem_all c)

/-- Setting up succeeds exactly if no category is blocked. -/
theorem setUp_ok_iff (b : LogBook) :
    b.setUp.2 = .ok () ↔ ∀ c, ¬ Blocks b.root b.tree c := by
  have hnone : (makeCategories b.root b.tree Category.all).2 = none ↔
      ∀ c ∈ Category.all, ¬ Blocks b.root b.tree c := makeCategories_snd_eq_none_iff
  rw [setUp_eq]
  cases hfailed : (makeCategories b.root b.tree Category.all).2 with
  | none => simpa [Category.mem_all] using hnone.mp hfailed
  | some e => simpa [Category.mem_all, hfailed] using hnone

/-- Setting up fails with the first failure. -/
theorem setUp_error_iff (b : LogBook) :
    b.setUp.2 = .error e ↔ FirstFailure b.root b.tree Category.all e := by
  rw [← makeCategories_snd_iff, setUp_eq]
  cases (makeCategories b.root b.tree Category.all).2 <;> simp

/-- **Setting up settles the directories.**  It succeeds exactly if all categories have their
directories after it, and then the book is ready.  Where the root is a directory or can be made
one, each category has its directory, unless a file has the name, and whether or not another
category failed.  The failure is that of the first category without a directory, and says what
is in the way.  Nothing that was there is changed or goes away: at any path stands what stood
there, or nothing stood there and a directory on the way to a category does now.  To set up
again does nothing, and has the same result. -/
theorem setUp_settles (b : LogBook) :
    (b.setUp.2 = .ok () ↔
      ∀ c, b.setUp.1.tree.node? (Partition.directory b.root c).names = some .dir) ∧
    (b.setUp.1.ready = true ↔ b.setUp.2 = .ok ()) ∧
    ((∃ t, b.tree.makeDirs b.root.names = .ok t) →
      ∀ c, (∀ bytes, b.tree.node? (Partition.directory b.root c).names ≠ some (.file bytes)) →
        b.setUp.1.tree.node? (Partition.directory b.root c).names = some .dir) ∧
    (∀ e, b.setUp.2 = .error e →
      ∃ before c after cause, Category.all = before ++ c :: after ∧
        e = .createDirectory (Partition.directory b.root c) cause ∧
        (∀ d ∈ before,
          b.setUp.1.tree.node? (Partition.directory b.root d).names = some .dir) ∧
        b.setUp.1.tree.node? (Partition.directory b.root c).names ≠ some .dir ∧
        b.tree.Blocked (Partition.directory b.root c).names cause) ∧
    (∀ path, b.setUp.1.tree.node? path = b.tree.node? path ∨
      (∃ c, path <+: (Partition.directory b.root c).names) ∧ b.tree.node? path = none ∧
        b.setUp.1.tree.node? path = some .dir) ∧
    b.setUp.1 = { b with tree := b.setUp.1.tree, ready := b.setUp.1.ready } ∧
    b.setUp.1.setUp = b.setUp := by
  refine ⟨?ok, ?ready, ?complete, ?first, b.node?_setUp, by rw [setUp_eq], ?again⟩
  case ok =>
    simp only [setUp_ok_iff, node?_directory_setUp_iff]
  case ready =>
    rw [setUp_eq]
    cases (makeCategories b.root b.tree Category.all).2 <;> simp
  case complete =>
    rintro ⟨t, hroot⟩ c hfile
    rw [node?_directory_setUp_iff]
    rintro ⟨cause, hblocked⟩
    rw [Partition.directory, Path.names_join] at hblocked hfile
    rcases hblocked.above with ⟨bytes, htaken⟩ | ⟨cause', habove⟩
    · exact hfile bytes htaken
    · rw [Tree.makeDirs_error_iff.mpr habove] at hroot
      cases hroot
  case first =>
    intro e he
    obtain ⟨before, c, after, cause, hall, hbefore, hblocked, rfl⟩ := b.setUp_error_iff.mp he
    refine ⟨before, c, after, cause, hall, rfl, ?_, ?_, hblocked⟩
    · intro d hd
      exact (b.node?_directory_setUp_iff d).mpr (hbefore d hd)
    · rw [ne_eq, node?_directory_setUp_iff]
      exact not_not_intro ⟨cause, hblocked⟩
  case again =>
    have hagain := makeCategories_again b.root b.tree Category.all
    rw [setUp_eq, setUp_eq]
    simp only [hagain]

/-- A book on a card where files have the names of two categories. -/
def crowded : LogBook :=
  { blank with
    tree := .dir [("sd", .dir [("tempr.log", .file [1]), ("logs", .file [])])]
    root := ⟨"/sd", ["sd"]⟩ }

/-- On such a card the failure is about the system log, the first of the two; the watering, which
comes after it, has its directory; and the file in the way of the temperatures is still there. -/
theorem setUp_settles_of_crowded :
    crowded.setUp.2 = .error (.createDirectory ⟨"/sd/logs", ["sd", "logs"]⟩ .exists_) ∧
      crowded.tree.Blocked ["sd", "logs"] .exists_ ∧
      crowded.setUp.1.tree.node? ["sd", "watering.log"] = some .dir ∧
      crowded.setUp.1.tree.node? ["sd", "tempr.log"] = some (.file [1]) ∧
      crowded.setUp.1.setUp = crowded.setUp := by
  obtain ⟨-, -, hcomplete, hfirst, -, -, hagain⟩ := setUp_settles crowded
  have herror :
      crowded.setUp.2 = .error (.createDirectory ⟨"/sd/logs", ["sd", "logs"]⟩ .exists_) := rfl
  refine ⟨herror, ?blocked, ?made, rfl, hagain⟩
  case blocked =>
    obtain ⟨before, c, after, cause, -, hpath, -, -, hblocked⟩ := hfirst _ herror
    obtain ⟨hdirectory, rfl⟩ := StoreError.createDirectory.inj hpath
    rwa [← hdirectory] at hblocked
  case made =>
    refine hcomplete ⟨crowded.tree, rfl⟩ .watering fun bytes htaken => ?_
    have habsent : crowded.tree.node? ["sd", "watering.log"] = none := rfl
    cases habsent.symm.trans htaken

end LogBook

end IrrigationLog
