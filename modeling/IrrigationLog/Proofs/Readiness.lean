/-
# When a log book is ready

Three operations decide whether a book is ready: setting it up, closing it, and an event whose
partition could not be opened.  All others leave that as it is, and so does everything that is
done to the tree from outside.

* **The last decision counts.**  What one call makes of the book is what it decides, or what was
  before (`LogBook.ready_step`); after a run it is the last decision (`LogBook.ready_after`).
* **A book that is not ready** writes nothing, and says so to whoever has something to record
  (`LogBook.result_of_not_ready`).
* **Lost events.**  An event is lost only by a book that is ready, and closes it.  So each loss
  uses up one setting up that came to its end: what holds for one call
  (`LogBook.loses_add_ready_le`) adds up over a run (`LogBook.countP_loses_le`).

`LogBook.readiness` is the whole of it, for all that can happen to a new book.
-/
import IrrigationLog.Proofs.WaterTotals

namespace IrrigationLog

/-! ## 1. What a call decides -/

namespace Call

/-- A call that sets the book up. -/
def opens (c : Call) : Bool :=
  match c.operation, c.outcome.result with
  | .setUp, .ok () => true
  | _, _ => false

/-- A call that decides whether the book is ready. -/
def decides (c : Call) : Bool :=
  match c.operation, c.outcome.result with
  | .setUp, _ => true
  | .close, _ => true
  | .event .., .error (.openFile ..) => true
  | _, _ => false

/-- A call that fails to record an event on a book that is ready. -/
def loses (c : Call) : Bool :=
  match c.operation, c.outcome.result with
  | .event .., .error .notReady => false
  | .event .., .error _ => true
  | _, _ => false

/-- **An event is lost** exactly if it is not made known. -/
theorem loses_iff {c : Call} (hc : c.Made) {severity : Severity} {message : String}
    (hop : c.operation = .event severity message) :
    c.loses = true ↔ c.outcome.announcement = none := by
  rw [announcement_eq hc, Option.map_eq_none_iff]
  unfold loses announced?
  rw [hop]
  cases c.outcome.result with
  | ok => simp
  | error e => cases e <;> simp

end Call

namespace LogBook

variable {b : LogBook}

/-! ## 2. Adding a line -/

/-- Adding a line does not change whether the book is ready. -/
theorem ready_append (b : LogBook) (p : Partition) (line : List Char) :
    (b.append p line).1.ready = b.ready := by
  rw [append_fst]

/-- A book that is not ready takes no line. -/
theorem append_of_not_ready (h : b.ready = false) (p : Partition) (line : List Char) :
    b.append p line = (b, .error .notReady) := by
  unfold append
  rw [h]
  rfl

/-! ## 3. One call -/

/-- **What an event does to a book**: it leaves it as it was and is made known; or it is lost and
closes it; or it is lost on a disk with a fault. -/
theorem event_ends (b : LogBook) (severity : Severity) (message : String) :
    let op := Operation.event severity message
    let c := Call.mk b op (b.step op).2
    c.decides = false ∧ c.loses = false ∧ (b.step op).1.ready = b.ready ∨
      c.decides = true ∧ c.loses = true ∧ b.ready = true ∧ (b.step op).1.ready = false ∨
      c.decides = false ∧ b.fault ≠ none ∧ (b.step op).1.ready = b.ready := by
  have hstep : b.step (.event severity message) =
      ((b.recordEvent severity message).1,
        ⟨(b.recordEvent severity message).2.1, (b.recordEvent severity message).2.2, []⟩) := rfl
  dsimp only
  rw [hstep]
  unfold recordEvent
  dsimp only
  rcases b.append_cases (.system b.now.date.month b.now.date.year)
      (systemLine b.now severity (trimMessage message.toList)) with
    ⟨-, heq⟩ | ⟨cause, hready, heq⟩ | ⟨tree, heq, -⟩ | ⟨tree, part, cause, heq, hcuts, -⟩
  · rw [heq]
    exact Or.inl ⟨rfl, rfl, rfl⟩
  · rw [heq]
    exact Or.inr (Or.inl ⟨rfl, rfl, hready, rfl⟩)
  · rw [heq]
    exact Or.inl ⟨rfl, rfl, rfl⟩
  · have hfault : b.fault ≠ none := fun hsound =>
      WriteFault.not_cuts_none _ _ (hsound ▸ hcuts)
    rw [heq]
    exact Or.inr (Or.inr ⟨rfl, hfault, rfl⟩)

/-- **Whether the book is ready after a call** is what the call decides, or as it was. -/
theorem ready_step (b : LogBook) (op : Operation) :
    let c := Call.mk b op (b.step op).2
    (b.step op).1.ready = if c.decides then c.opens else b.ready := by
  cases op with
  | setUp =>
    change b.setUp.1.ready = (Call.mk b .setUp { result := b.setUp.2 }).opens
    unfold setUp
    split <;> rfl
  | event severity message =>
    dsimp only
    rcases b.event_ends severity message with ⟨hdecides, -, hsame⟩ | ⟨hdecides, -, -, hclosed⟩ |
      ⟨hdecides, -, hsame⟩
    · rw [hdecides, hsame]
      rfl
    · rw [hdecides, hclosed]
      rfl
    · rw [hdecides, hsame]
      rfl
  | watering r => exact ready_append (b.countWater r) _ _
  | reading kind id value => exact ready_append b _ _
  | sensor code id value =>
    change (b.step (.sensor code id value)).1.ready = b.ready
    cases hcode : Sensor.ofCode code with
    | ok kind =>
      rw [step_sensor_of_ok hcode]
      exact ready_append b _ _
    | error e => rw [step_sensor_of_error hcode]
  | close | setClock | advanceClock | setLimits | replaceStation | query => rfl

/-- **A book that is not ready** takes nothing that is to be recorded. -/
theorem result_of_not_ready (h : b.ready = false) {op : Operation} {e : Entry}
    (he : op.entryOf? b = some e) : (b.step op).2.result = .error .notReady := by
  rw [(step_of_entry he).2, append_of_not_ready h]

/-- A book that is not ready leaves the tree alone, unless it is set up. -/
theorem tree_of_not_ready (h : b.ready = false) {op : Operation} (hop : op ≠ .setUp) :
    (b.step op).1.tree = b.tree := by
  cases he : op.entryOf? b with
  | none => exact step_of_no_entry he hop
  | some e => rw [(step_of_entry he).1, append_of_not_ready h]

/-- **A loss closes a book**, and only setting it up opens it again. -/
theorem loses_add_ready_le (h : b.fault = none) (op : Operation) :
    let c := Call.mk b op (b.step op).2
    c.loses.toNat + (b.step op).1.ready.toNat ≤ c.opens.toNat + b.ready.toNat := by
  have hready := b.ready_step op
  dsimp only at hready ⊢
  cases op with
  | event severity message =>
    -- A loss is paid for by the book, which was ready before and is not any more.
    rcases b.event_ends severity message with ⟨-, hkept, hsame⟩ | ⟨-, hlost, hopen, hclosed⟩ |
      ⟨-, hfault, -⟩
    · rw [hkept, hsame]
      exact Nat.add_le_add_right (Nat.zero_le _) _
    · rw [hlost, hopen, hclosed]
      exact Nat.le_add_left _ _
    · exact absurd h hfault
  | setUp =>
    rw [hready]
    exact Nat.le_trans (Nat.le_of_eq (Nat.zero_add _)) (Nat.le_add_right _ _)
  | close =>
    rw [hready]
    exact Nat.zero_le _
  | watering | sensor | reading | setClock | advanceClock | setLimits | replaceStation | query =>
    rw [hready]
    exact Nat.add_le_add_right (Nat.zero_le _) _

/-! ## 4. A run -/

/-- **After a run the last decision counts.** -/
theorem ready_after (b : LogBook) (hs : List Happening) :
    (b.after hs).ready =
      (((b.callsAmid hs).filter Call.decides).getLast?.map Call.opens).getD b.ready := by
  induction hs generalizing b with
  | nil => rfl
  | cons h hs ih =>
    cases h with
    | disturbance tree fault => exact ih { b with tree, fault }
    | operation op =>
      have hstep := b.ready_step op
      rw [after, callsAmid, ih, hstep]
      cases hdecides : Call.decides ⟨b, op, (b.step op).2⟩ with
      | false =>
        rw [List.filter_cons_of_neg (by rw [hdecides]; simp)]
        rfl
      | true =>
        rw [List.filter_cons_of_pos hdecides, if_pos rfl, List.getLast?_cons, Option.map_some,
          Option.getD_some]
        cases (((b.step op).1.callsAmid hs).filter Call.decides).getLast? <;> rfl

/-- **Losses are no more than settings up**, one more if the book was ready at the start. -/
theorem countP_loses_le {hs : List Happening} (h : ∀ c ∈ b.callsAmid hs, c.book.fault = none) :
    (b.callsAmid hs).countP Call.loses + (b.after hs).ready.toNat ≤
      (b.callsAmid hs).countP Call.opens + b.ready.toNat := by
  induction hs generalizing b with
  | nil => simp [callsAmid, after]
  | cons happening hs ih =>
    cases happening with
    | disturbance tree fault => exact @ih { b with tree, fault } h
    | operation op =>
      have hfault : b.fault = none := h ⟨b, op, (b.step op).2⟩ List.mem_cons_self
      have hstep := loses_add_ready_le hfault op
      have hrest := @ih (b.step op).1 fun c hc => h c (List.mem_cons_of_mem _ hc)
      have hnumber (x : Bool) : (if x = true then 1 else 0) = x.toNat := by cases x <;> rfl
      rw [after, callsAmid, List.countP_cons, List.countP_cons, hnumber, hnumber]
      omega

/-- **The readiness of a book**, from a new book on, through any operations and anything that is
done to the tree and the disk between them.  It is ready exactly if the last call that decided
about it set it up; while it is not, it writes nothing and refuses whatever could be recorded;
and on disks without a fault no more events are lost than there were settings up. -/
theorem readiness (h : b.ready = false) (hs : List Happening) :
    ((b.after hs).ready = true ↔
      ∃ c, ((b.callsAmid hs).filter Call.decides).getLast? = some c ∧ c.opens = true) ∧
    (∀ c ∈ b.callsAmid hs, c.book.ready = false →
      (c.operation ≠ .setUp → (c.book.step c.operation).1.tree = c.book.tree) ∧
      (c.operation.records = true →
        (∀ code id value, c.operation = .sensor code id value →
          ∃ kind, Sensor.ofCode code = .ok kind) →
        c.outcome.result = .error .notReady)) ∧
    (∀ c ∈ b.callsAmid hs, ∀ severity message, c.operation = .event severity message →
      (c.loses = true ↔ c.outcome.announcement = none)) ∧
    ((∀ c ∈ b.callsAmid hs, c.book.fault = none) →
      (b.callsAmid hs).countP Call.loses ≤ (b.callsAmid hs).countP Call.opens) := by
  refine ⟨?_, fun c hc hready => ⟨fun hop => tree_of_not_ready hready hop, fun hop hcode => ?_⟩,
    fun c hc severity message hop => Call.loses_iff (made_of_mem_callsAmid hc) hop,
    fun hfault => ?_⟩
  · rw [ready_after, h]
    cases ((b.callsAmid hs).filter Call.decides).getLast? with
    | none => simp
    | some c => simp
  · obtain ⟨e, he⟩ := exists_entry_of_records hop hcode
    rw [show c.outcome = _ from made_of_mem_callsAmid hc]
    exact result_of_not_ready hready he
  · have hbound := countP_loses_le hfault
    rw [h] at hbound
    exact Nat.le_trans (Nat.le_add_right _ _) hbound

/-- An event on a new book, one on a tree that is gone, which is lost, one more, and a run on the
tree as it was set up again. -/
def treeGone : List Happening :=
  [.operation (.event .info "up"),
    .operation .setUp,
    .disturbance (.file []) none,
    .operation (.event .error "pump"),
    .operation (.event .error "valve"),
    .disturbance (.dir []) none,
    .operation .setUp,
    .operation (.watering firstRun)]

/-- Two settings up, one loss, and a book that is ready in the end. -/
theorem readiness_of_treeGone :
    blank.ready = false ∧
    (∀ c ∈ blank.callsAmid treeGone, c.book.fault = none) ∧
    (∃ c ∈ blank.callsAmid treeGone, c.book.ready = false ∧ c.operation.records = true ∧
      c.outcome.result = .error .notReady) ∧
    (∃ c, ((blank.callsAmid treeGone).filter Call.decides).getLast? = some c ∧
      c.opens = true) ∧
    (blank.callsAmid treeGone).countP Call.opens = 2 ∧
    (blank.callsAmid treeGone).countP Call.loses = 1 ∧
    (blank.callsAmid treeGone).countP Call.loses ≤
      (blank.callsAmid treeGone).countP Call.opens := by
  have hnew : blank.ready = false := rfl
  have hfault : ∀ c ∈ blank.callsAmid treeGone, c.book.fault = none := by decide +kernel
  have hready : (blank.after treeGone).ready = true := by decide +kernel
  obtain ⟨hlast, hclosed, -, hlosses⟩ := readiness hnew treeGone
  refine ⟨hnew, hfault, ⟨_, List.mem_cons_self, rfl, rfl, ?_⟩, hlast.mp hready, by decide +kernel,
    by decide +kernel, hlosses hfault⟩
  exact (hclosed _ List.mem_cons_self rfl).2 rfl fun _ _ _ hop => by cases hop

end LogBook

end IrrigationLog
