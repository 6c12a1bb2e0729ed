/-
# What a change of a tree leaves alone

A change of a tree touches the path it is made at and nothing else.  What stands at a path is
a `Node`, a file with its bytes or a directory; what a directory holds shows at the longer
paths.  Two trees with the same node at every path are the same to everyone who reads them.

* `Tree.alter` **changes one node** when it puts a file where a file or nothing was
  (`Tree.find?_alter_self`, `Tree.node?_alter_other`).
* `Tree.log` **extends one file** (`Tree.log_grows`): `Tree.Grows` says that a file is new with
  some bytes or has them at its end, and that no other node is different.
* `Tree.write` **sets one file** (`Tree.sets_write`).
* `Tree.makeDirs` **adds directories** and only along its own path
  (`Tree.node?_makeDirs`).
-/
import IrrigationLog.Tree.Basic

namespace IrrigationLog

/-- What stands at a path, the contents of a directory left out. -/
inductive Node where
  | file (bytes : List UInt8)
  | dir
  deriving DecidableEq

namespace Tree

/-! ## 1. Nodes -/

/-- The top of a tree. -/
def node : Tree → Node
  | file bytes => .file bytes
  | dir _ => .dir

/-- What stands at a path of a tree. -/
def node? (t : Tree) (names : List String) : Option Node := (t.find? names).map node

@[simp]
theorem find?_nil (t : Tree) : t.find? [] = some t := by
  cases t <;> rfl

@[simp]
theorem find?_file_cons (bytes : List UInt8) (name : String) (names : List String) :
    (file bytes).find? (name :: names) = none := rfl

theorem find?_dir_cons (es : List (String × Tree)) (name : String) (names : List String) :
    (dir es).find? (name :: names) = (es.lookup name).bind fun t => t.find? names := by
  unfold find?
  rw [lookup]
  cases es.lookup name <;> rfl

@[simp]
theorem node?_nil (t : Tree) : t.node? [] = some t.node := by simp [node?]

@[simp]
theorem node?_file_cons (bytes : List UInt8) (name : String) (names : List String) :
    (file bytes).node? (name :: names) = none := rfl

theorem node?_dir_cons (es : List (String × Tree)) (name : String) (names : List String) :
    (dir es).node? (name :: names) = (es.lookup name).bind fun t => t.node? names := by
  unfold node?
  rw [find?_dir_cons]
  cases es.lookup name <;> rfl

/-- Nothing stands below a path at which nothing stands, or a file. -/
theorem node?_append_of_not_dir {t : Tree} {names : List String} (h : t.node? names ≠ some .dir)
    (name : String) (rest : List String) : t.node? (names ++ name :: rest) = none := by
  induction names generalizing t with
  | nil =>
    cases t with
    | file bytes => rfl
    | dir es => exact absurd rfl h
  | cons n names ih =>
    cases t with
    | file bytes => rfl
    | dir es =>
      rw [List.cons_append, node?_dir_cons]
      rw [node?_dir_cons] at h
      cases hl : es.lookup n with
      | none => rfl
      | some s =>
        rw [hl] at h
        exact ih h

/-- A path is absent exactly when it has no node. -/
theorem node?_eq_none_iff {t : Tree} {names : List String} :
    t.node? names = none ↔ t.find? names = none := by
  simp [node?]

/-- A path with a file on it, read as a node. -/
theorem node?_eq_file_iff {t : Tree} {names : List String} {bytes : List UInt8} :
    t.node? names = some (.file bytes) ↔ t.find? names = some (file bytes) := by
  unfold node?
  rw [Option.map_eq_some_iff]
  constructor
  · rintro ⟨s, hs, hn⟩
    cases s with
    | file b => rw [hs]; simpa [node] using hn
    | dir es => exact absurd hn (by simp [node])
  · intro h
    exact ⟨_, h, rfl⟩

/-! ## 2. Entries -/

theorem lookup_cons_other {name other : String} (h : other ≠ name) (t : Tree)
    (es : List (String × Tree)) : List.lookup other ((name, t) :: es) = List.lookup other es := by
  rw [List.lookup_cons, beq_eq_false_iff_ne.mpr h]

/-- A set entry is found under its name. -/
@[simp]
theorem lookup_setEntry_self (name : String) (t : Tree) (es : List (String × Tree)) :
    (setEntry name t es).lookup name = some t := by
  induction es with
  | nil => simp [setEntry]
  | cons e es ih =>
    obtain ⟨n, s⟩ := e
    unfold setEntry
    by_cases h : name = n
    · simp [h]
    · rw [if_neg (by simpa using h), lookup_cons_other h, ih]

/-- The other entries stay. -/
theorem lookup_setEntry_other {name other : String} (h : other ≠ name) (t : Tree)
    (es : List (String × Tree)) : (setEntry name t es).lookup other = es.lookup other := by
  induction es with
  | nil =>
    unfold setEntry
    rw [lookup_cons_other h]
  | cons e es ih =>
    obtain ⟨n, s⟩ := e
    unfold setEntry
    by_cases hn : name = n
    · subst hn
      rw [if_pos (by simp), lookup_cons_other h, lookup_cons_other h]
    · rw [if_neg (by simpa using hn), List.lookup_cons, List.lookup_cons, ih]

/-- A directory with one entry set has the new node at and below the entry. -/
theorem node?_setEntry_self (name : String) (v : Tree) (es : List (String × Tree))
    (names : List String) : (dir (setEntry name v es)).node? (name :: names) = v.node? names := by
  rw [node?_dir_cons, lookup_setEntry_self]
  rfl

/-- ...and elsewhere the old ones. -/
theorem node?_setEntry_other {name other : String} (h : other ≠ name) (v : Tree)
    (es : List (String × Tree)) (names : List String) :
    (dir (setEntry name v es)).node? (other :: names) = (dir es).node? (other :: names) := by
  rw [node?_dir_cons, node?_dir_cons, lookup_setEntry_other h]

/-! ## 3. Altering -/

variable {change : Option Tree → Except Cause Tree}

/-- An entry that is there is altered in turn. -/
theorem alter_cons_of_some {es : List (String × Tree)} {name : String} {s : Tree}
    (hl : es.lookup name = some s) (names : List String) :
    (dir es).alter change (name :: names)
      = (s.alter change names).map fun t => dir (setEntry name t es) := by
  cases names with
  | nil =>
    have hend : s.alter change [] = change (some s) := by cases s <;> rfl
    rw [hend, alter, hl]
  | cons next names => rw [alter, hl]; simp

/-- **What altering can do below a name.**  The tree is a directory in which one entry is set:
an entry that is there is altered in turn, and one that is missing is made only at the end of
the path. -/
theorem alter_cons_ok {t u : Tree} {name : String} {names : List String}
    (h : t.alter change (name :: names) = .ok u) :
    ∃ es v, t = dir es ∧ u = dir (setEntry name v es) ∧
      ((∃ s, es.lookup name = some s ∧ s.alter change names = .ok v) ∨
        (es.lookup name = none ∧ names = [] ∧ change none = .ok v)) := by
  cases t with
  | file bytes => simp [alter] at h
  | dir es =>
    cases hl : es.lookup name with
    | none =>
      cases names with
      | nil =>
        rw [alter, hl] at h
        cases hc : change none with
        | error cause => rw [hc] at h; cases h
        | ok v => rw [hc] at h; cases h; exact ⟨es, v, rfl, rfl, Or.inr ⟨hl, rfl, rfl⟩⟩
      | cons next names =>
        rw [alter, hl] at h
        · cases h
        · simp
    | some s =>
      rw [alter_cons_of_some hl] at h
      cases hc : s.alter change names with
      | error cause => rw [hc] at h; cases h
      | ok v => rw [hc] at h; cases h; exact ⟨es, v, rfl, rfl, Or.inl ⟨s, hl, hc⟩⟩

/-- What `alter` puts at its path is what the change makes of what stood there. -/
theorem find?_alter_self {t u : Tree} {names : List String} (h : t.alter change names = .ok u) :
    ∃ v, change (t.find? names) = .ok v ∧ u.find? names = some v := by
  induction names generalizing t u with
  | nil => exact ⟨u, by cases t <;> simpa [alter] using h, find?_nil u⟩
  | cons name names ih =>
    obtain ⟨es, v, rfl, rfl, ⟨s, hl, hs⟩ | ⟨hl, rfl, hc⟩⟩ := alter_cons_ok h
    · obtain ⟨w, hw, hv⟩ := ih hs
      refine ⟨w, ?_, ?_⟩
      · rw [find?_dir_cons, hl]
        exact hw
      · rw [find?_dir_cons, lookup_setEntry_self]
        exact hv
    · refine ⟨v, ?_, ?_⟩
      · rw [find?_dir_cons, hl]
        exact hc
      · rw [find?_dir_cons, lookup_setEntry_self]
        exact find?_nil v

/-- **No node changes at a path that does not start with the altered one.** -/
theorem node?_alter_other {t u : Tree} {names other : List String}
    (h : t.alter change names = .ok u) (hne : ¬ names <+: other) :
    u.node? other = t.node? other := by
  induction names generalizing t u other with
  | nil => exact absurd List.nil_prefix hne
  | cons name names ih =>
    obtain ⟨es, v, rfl, rfl, hv⟩ := alter_cons_ok h
    cases other with
    | nil => rfl
    | cons n rest =>
      by_cases hn : n = name
      · subst hn
        have hrest : ¬ names <+: rest := fun hp => hne (List.cons_prefix_cons.mpr ⟨rfl, hp⟩)
        rcases hv with ⟨s, hl, hs⟩ | ⟨-, rfl, -⟩
        · rw [node?_setEntry_self, node?_dir_cons, hl]
          exact ih hs hrest
        · exact absurd List.nil_prefix hrest
      · exact node?_setEntry_other hn v es rest

/-- **A path can be altered** exactly where something stands there or its directory does, and the
change can be made. -/
theorem alter_ok_iff {t : Tree} {names : List String} :
    (∃ u, t.alter change names = .ok u) ↔
      (t.node? names ≠ none ∨ t.node? names.dropLast = some .dir) ∧
        ∃ v, change (t.find? names) = .ok v := by
  induction names generalizing t with
  | nil =>
    have hend : t.alter change [] = change (some t) := by cases t <;> rfl
    simp [hend]
  | cons name names ih =>
    cases t with
    | file bytes => cases names <;> simp [alter, node]
    | dir es =>
      rw [find?_dir_cons, node?_dir_cons]
      cases hl : es.lookup name with
      | none =>
        cases names with
        | nil => cases hc : change none <;> simp [alter, hl, hc, Except.map, node]
        | cons next names => simp [alter, hl, node?_dir_cons]
      | some s =>
        have hs : (∃ u, (dir es).alter change (name :: names) = .ok u) ↔
            ∃ u, s.alter change names = .ok u := by
          rw [alter_cons_of_some hl]
          cases s.alter change names <;> simp [Except.map]
        rw [hs, ih]
        cases names with
        | nil => simp [node]
        | cons next names => simp [node?_dir_cons, hl]

/-! ## 4. Extending a file -/

/-- `t.Grows u names heading more`: in `u` the file at a path is new and holds a heading and
something more, or it is older and has that at its end; no other node is different. -/
structure Grows (t u : Tree) (names : List String) (heading more : List UInt8) : Prop where
  self : t.node? names = none ∧ u.node? names = some (.file (heading ++ more)) ∨
    ∃ bytes, t.node? names = some (.file bytes) ∧ u.node? names = some (.file (bytes ++ more))
  other : ∀ path, path ≠ names → u.node? path = t.node? path

/-- A change that leaves a file where a file or nothing was shows only at its own path. -/
theorem node?_alter_of_file {t u : Tree} {names : List String} {bytes : List UInt8}
    (h : t.alter change names = .ok u) (ht : t.node? names ≠ some .dir)
    (hu : u.node? names = some (.file bytes)) {path : List String} (hne : path ≠ names) :
    u.node? path = t.node? path := by
  by_cases hp : names <+: path
  · obtain ⟨rest, rfl⟩ := hp
    cases rest with
    | nil => exact absurd (List.append_nil names) hne
    | cons name rest =>
      rw [node?_append_of_not_dir ht, node?_append_of_not_dir (by rw [hu]; simp)]
  · exact node?_alter_other h hp

/-- What extending puts in place of a node. -/
theorem extended_ok {more : List UInt8} {o : Option Tree} {v : Tree}
    (h : extended more o = .ok v) :
    o = none ∧ v = file more ∨ ∃ bytes, o = some (file bytes) ∧ v = file (bytes ++ more) := by
  unfold extended at h
  split at h
  · cases h; exact Or.inl ⟨rfl, rfl⟩
  · rename_i bytes
    cases h; exact Or.inr ⟨bytes, rfl, rfl⟩
  · cases h

/-- **Logging extends one file.**  The caller puts the heading in front of what it logs exactly
when nothing stands at the path. -/
theorem log_grows {t u : Tree} {names : List String} {heading more : List UInt8}
    (h : t.log names ((if t.occupied names then [] else heading) ++ more) = .ok u) :
    t.Grows u names heading more := by
  obtain ⟨v, hv, hu⟩ := find?_alter_self h
  rcases extended_ok hv with ⟨ht, rfl⟩ | ⟨bytes, ht, rfl⟩
  · have hfree : t.occupied names = false := by simp [occupied, ht]
    rw [hfree] at hu h
    have hu' := node?_eq_file_iff.mpr hu
    refine ⟨Or.inl ⟨node?_eq_none_iff.mpr ht, by simpa using hu'⟩, fun path hne => ?_⟩
    exact node?_alter_of_file h (by rw [node?_eq_none_iff.mpr ht]; simp) hu' hne
  · have htaken : t.occupied names = true := by simp [occupied, ht]
    rw [htaken] at hu h
    have hu' := node?_eq_file_iff.mpr hu
    have ht' := node?_eq_file_iff.mpr ht
    refine ⟨Or.inr ⟨bytes, ht', by simpa using hu'⟩, fun path hne => ?_⟩
    exact node?_alter_of_file h (by rw [ht']; simp) hu' hne

/-- **A file can be extended** where its directory is there and no directory stands in its
place. -/
theorem exists_log {t : Tree} {above : List String} {name : String}
    (hdir : t.node? above = some .dir) (hfree : t.node? (above ++ [name]) ≠ some .dir)
    (more : List UInt8) : ∃ u, t.log (above ++ [name]) more = .ok u := by
  refine alter_ok_iff.mpr ⟨Or.inr (by rwa [List.dropLast_concat]), ?_⟩
  cases hs : t.find? (above ++ [name]) with
  | none => exact ⟨_, rfl⟩
  | some s =>
    cases s with
    | file bytes => exact ⟨_, rfl⟩
    | dir es => exact absurd (by rw [node?, hs]; rfl) hfree

/-! ## 5. Writing a file -/

/-- `t.Sets u names bytes`: in `u` a file with some bytes stands at a path; no other node is
different. -/
structure Sets (t u : Tree) (names : List String) (bytes : List UInt8) : Prop where
  self : u.node? names = some (.file bytes)
  other : ∀ path, path ≠ names → u.node? path = t.node? path

/-- What was set twice has been set once. -/
theorem Sets.trans {t u v : Tree} {names : List String} {bytes more : List UInt8}
    (h : t.Sets u names bytes) (h' : u.Sets v names more) : t.Sets v names more where
  self := h'.self
  other path hne := (h'.other path hne).trans (h.other path hne)

/-- **Writing a file anew changes one node.** -/
theorem sets_write {t u : Tree} {names : List String} {bytes : List UInt8}
    (h : t.write names bytes = .ok u) : t.Sets u names bytes := by
  obtain ⟨v, hv, hu⟩ := find?_alter_self h
  have hold : t.node? names ≠ some .dir ∧ v = file bytes := by
    unfold node?
    unfold replaced at hv
    split at hv
    · cases hv
    · rename_i hnot
      cases hv
      refine ⟨fun hdir => ?_, rfl⟩
      obtain ⟨s, hs, hnode⟩ := Option.map_eq_some_iff.mp hdir
      cases s with
      | file _ => cases hnode
      | dir es => exact hnot es hs
  obtain ⟨hdir, rfl⟩ := hold
  have hu' := node?_eq_file_iff.mpr hu
  exact ⟨hu', fun path hne => node?_alter_of_file h hdir hu' hne⟩

/-- **A file can be written** exactly where one stands, or nothing does in a directory. -/
theorem write_ok_iff {t : Tree} {names : List String} {bytes : List UInt8} :
    (∃ u, t.write names bytes = .ok u) ↔
      (∃ old, t.node? names = some (.file old)) ∨
        t.node? names = none ∧ t.node? names.dropLast = some .dir := by
  unfold write
  rw [alter_ok_iff]
  cases hs : t.find? names with
  | none => simp [node?, hs, replaced]
  | some s => cases s <;> simp [node?, hs, replaced, node]

/-- What was written once can be written again. -/
theorem write_again {t u : Tree} {names : List String} {bytes : List UInt8}
    (h : t.write names bytes = .ok u) (more : List UInt8) : ∃ v, u.write names more = .ok v :=
  write_ok_iff.mpr (Or.inl ⟨bytes, (sets_write h).self⟩)

/-! ## 6. Making directories -/

/-- `t.AddsDirs u`: every node of `t` is one of `u`, and what `u` has besides are directories. -/
def AddsDirs (t u : Tree) : Prop :=
  ∀ path, u.node? path = t.node? path ∨ t.node? path = none ∧ u.node? path = some .dir

theorem AddsDirs.refl (t : Tree) : t.AddsDirs t := fun _ => Or.inl rfl

theorem AddsDirs.trans {t u v : Tree} (h : t.AddsDirs u) (h' : u.AddsDirs v) : t.AddsDirs v := by
  intro path
  rcases h path with hsame | ⟨hnone, hdir⟩
  · rw [← hsame]
    exact h' path
  · refine Or.inr ⟨hnone, ?_⟩
    rcases h' path with hsame | ⟨hfree, -⟩
    · exact hsame.trans hdir
    · rw [hdir] at hfree
      cases hfree

/-- What only adds directories to some paths, only adds directories. -/
theorem AddsDirs.of_along {t u : Tree} {along : List String → Prop}
    (h : ∀ path, u.node? path = t.node? path ∨
      along path ∧ t.node? path = none ∧ u.node? path = some .dir) : t.AddsDirs u := by
  intro path
  rcases h path with hsame | ⟨-, hnew⟩
  · exact Or.inl hsame
  · exact Or.inr hnew

/-- A path of new directories has nothing but its own beginnings. -/
theorem node?_nest (names path : List String) :
    (nest names).node? path = if path <+: names then some .dir else none := by
  induction names generalizing path with
  | nil => cases path <;> simp [nest, node, node?_dir_cons]
  | cons name names ih =>
    cases path with
    | nil => simp [nest, node]
    | cons n path =>
      rw [nest, node?_dir_cons]
      by_cases hn : n = name
      · subst hn
        simp [ih, List.cons_prefix_cons]
      · rw [lookup_cons_other hn, if_neg (fun hp => hn (List.cons_prefix_cons.mp hp).1)]
        rfl

/-- What making directories can do below a name. -/
theorem makeDirs_cons_ok {t u : Tree} {name : String} {names : List String}
    (h : t.makeDirs (name :: names) = .ok u) :
    ∃ es v, t = dir es ∧ u = dir (setEntry name v es) ∧
      ((∃ s, es.lookup name = some s ∧ s.makeDirs names = .ok v) ∨
        (es.lookup name = none ∧ v = nest names)) := by
  cases t with
  | file bytes => simp [makeDirs] at h
  | dir es =>
    cases hl : es.lookup name with
    | none =>
      rw [makeDirs, hl] at h
      cases h
      exact ⟨es, nest names, rfl, rfl, Or.inr ⟨hl, rfl⟩⟩
    | some s =>
      rw [makeDirs, hl] at h
      cases hs : s.makeDirs names with
      | error cause => simp [hs, Except.map] at h
      | ok v =>
        simp only [hs, Except.map, Except.ok.injEq] at h
        exact ⟨es, v, rfl, h.symm, Or.inl ⟨s, hl, hs⟩⟩

/-- **Making the directories of a path adds directories along that path** and nothing else. -/
theorem node?_makeDirs {t u : Tree} {names : List String} (h : t.makeDirs names = .ok u)
    (path : List String) :
    u.node? path = t.node? path ∨
      path <+: names ∧ t.node? path = none ∧ u.node? path = some .dir := by
  induction names generalizing t u path with
  | nil =>
    cases t with
    | file bytes => simp [makeDirs] at h
    | dir es => cases h; exact Or.inl rfl
  | cons name names ih =>
    obtain ⟨es, v, rfl, rfl, hv⟩ := makeDirs_cons_ok h
    cases path with
    | nil => exact Or.inl rfl
    | cons n path =>
      by_cases hn : n = name
      · subst hn
        rw [node?_setEntry_self, node?_dir_cons, List.cons_prefix_cons]
        rcases hv with ⟨s, hl, hs⟩ | ⟨hl, rfl⟩
        · simpa [hl] using ih hs path
        · rw [hl, node?_nest]
          by_cases hp : path <+: names
          · exact Or.inr ⟨⟨rfl, hp⟩, rfl, if_pos hp⟩
          · exact Or.inl (if_neg hp)
      · exact Or.inl (node?_setEntry_other hn v es path)

/-- Making directories only adds directories. -/
theorem addsDirs_makeDirs {t u : Tree} {names : List String} (h : t.makeDirs names = .ok u) :
    t.AddsDirs u :=
  .of_along (node?_makeDirs h)

end Tree

end IrrigationLog
