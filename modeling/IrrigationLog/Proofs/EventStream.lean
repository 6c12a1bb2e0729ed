/-
# The stream of announced events

Announced events reach their listener as one stream of chunks.  Nothing in it says where a
message starts; a chunk only says whether more of the same message follows.  A `Receiver` that
goes by these marks alone gets back the messages, whole and in order.

* **One message.**  The chunks of a text are the text cut up, and of them exactly the last one
  says that nothing follows (`Receiver.listen_chunksOf`).  A message without text has no chunk
  and cannot be told from silence.
* **One call.**  An event that was written, or that found the book not ready, makes its message
  known without the line ends at its end (`Call.Announces`), and that is what is announced; any
  other failure announces nothing (`Call.announcement_eq`).
* **A run.**  Each announcement finds the receiver between two messages and leaves it so
  (`Receiver.listen_calls`), whatever is done to the book, its tree and its disk in between.
-/
import IrrigationLog.Proofs.CalendarCount
import IrrigationLog.Proofs.Calls
import Mathlib.Data.List.Forall2

namespace IrrigationLog

/-! ## 1. A receiver -/

/-- A receiver of chunks: the messages it has in full, each by its chunks, and the chunks of a
message that goes on. -/
structure Receiver where
  finished : List (List EventChunk) := []
  pending : List EventChunk := []

namespace Receiver

/-- Takes a chunk; one that says that nothing follows ends a message. -/
def take (r : Receiver) (c : EventChunk) : Receiver :=
  if c.continuation then { r with pending := r.pending ++ [c] }
  else { finished := r.finished ++ [r.pending ++ [c]], pending := [] }

/-- Takes some chunks, in order. -/
def listen (r : Receiver) (cs : List EventChunk) : Receiver := cs.foldl take r

theorem listen_append (r : Receiver) (cs ds : List EventChunk) :
    r.listen (cs ++ ds) = (r.listen cs).listen ds := List.foldl_append

end Receiver

/-! ## 2. The chunks of a text -/

namespace EventLimits

/-- What fits and what does not are the text. -/
theorem fit_append (size : Nat) (cs : List Char) : (fit size cs).1 ++ (fit size cs).2 = cs := by
  induction cs generalizing size with
  | nil => rfl
  | cons c cs ih =>
    rw [fit]
    split
    · exact congrArg (c :: ·) (ih (size - c.utf8Size))
    · rfl

/-- The chunks of a text are the text. -/
theorem flatMap_chunksOf (size : Nat) (cs : List Char) :
    (chunksOf size cs).flatMap Prod.fst = cs := by
  fun_induction chunksOf size cs with
  | case1 => rfl
  | case2 c cs taken rest ih =>
    rw [List.flatMap_cons, ih, List.cons_append]
    exact congrArg (c :: ·) (fit_append (size - c.utf8Size) cs)

/-- A text has chunks unless it is empty. -/
theorem chunksOf_eq_nil_iff {size : Nat} {cs : List Char} : chunksOf size cs = [] ↔ cs = [] := by
  constructor
  · intro h
    rw [← flatMap_chunksOf size cs, h]
    rfl
  · rintro rfl
    rw [chunksOf]

end EventLimits

/-- **The chunks of a text are one message**, begun where the receiver stands and ended. -/
theorem Receiver.listen_chunksOf {size : Nat} {cs : List Char} (hcs : cs ≠ [])
    {chunk : List Char × Bool → EventChunk} (hchunk : ∀ p, (chunk p).continuation = p.2)
    (r : Receiver) :
    r.listen ((EventLimits.chunksOf size cs).map chunk) =
      { finished := r.finished ++ [r.pending ++ (EventLimits.chunksOf size cs).map chunk]
        pending := [] } := by
  fun_induction EventLimits.chunksOf size cs generalizing r with
  | case1 => exact absurd rfl hcs
  | case2 c cs taken rest ih =>
    rw [List.map_cons]
    change (r.take (chunk (c :: taken, !rest.isEmpty))).listen _ = _
    unfold take
    rw [hchunk]
    cases hrest : rest with
    | nil =>
      rw [EventLimits.chunksOf]
      rfl
    | cons d ds =>
      have hmore : rest ≠ [] := by
        rw [hrest]
        simp
      rw [← hrest, if_pos (by simpa using hmore), ih hmore, List.append_assoc]
      rfl

/-! ## 3. Messages -/

/-- An event as it is made known. -/
structure Message where
  severity : Severity
  /-- In seconds since 1970-01-01 00:00:00. -/
  time : Int
  text : List Char

namespace Message

/-- How a message is traced. -/
def trace (m : Message) : TraceLevel × String :=
  (m.severity.traceLevel, s!"SYSEVT-{m.severity.routed.label}: {String.ofList m.text}")

/-- Some chunks make up the text of a message, and each bears its severity and time. -/
def CarriedBy (m : Message) (cs : List EventChunk) : Prop :=
  (cs.flatMap fun c => c.payload.toList) = m.text ∧
    ∀ c ∈ cs, c.severity = m.severity ∧ c.timestamp.toInt = m.time

end Message

namespace Announcement

variable (limits : EventLimits) (time : DateTime) (severity : Severity) (text : List Char)

/-- The chunks of an announcement carry its message. -/
theorem carriedBy_of :
    Message.CarriedBy ⟨severity, time.epochSeconds, text⟩
      (of limits time severity text).chunks := by
  constructor
  · have hpayload : ((limits.chunks text).flatMap fun p => (String.ofList p.1).toList) = text := by
      simp only [String.toList_ofList]
      exact EventLimits.flatMap_chunksOf limits.chunkSize text
    simpa [of, List.flatMap_map] using hpayload
  · intro c hc
    obtain ⟨p, -, rfl⟩ := List.mem_map.mp hc
    exact ⟨rfl, time.toInt_ofInt_epochSeconds⟩

/-- A receiver between two messages takes an announcement as one more, if it has a text. -/
theorem listen_of {r : Receiver} (hr : r.pending = []) :
    r.listen (of limits time severity text).chunks =
      if text = [] then r
      else { r with finished := r.finished ++ [(of limits time severity text).chunks] } := by
  by_cases htext : text = []
  · subst htext
    have hnone : (of limits time severity []).chunks = [] := by
      rw [of, EventLimits.chunks, EventLimits.chunksOf_eq_nil_iff.mpr rfl]
      rfl
    rw [if_pos rfl, hnone]
    rfl
  · rw [if_neg htext]
    change r.listen ((EventLimits.chunksOf limits.chunkSize text).map _) = _
    rw [Receiver.listen_chunksOf htext (fun _ => rfl), hr]
    rfl

end Announcement

/-! ## 4. Calls -/

namespace Call

/-- A call makes a message known: it gave an event, which was written or found the book not ready,
and the message has the severity of the event, the time of the call, and the text of the event
without the line ends at its end. -/
structure Announces (c : Call) (m : Message) : Prop where
  told : c.outcome.result = .ok () ∨ c.outcome.result = .error .notReady
  given : ∃ message, c.operation = .event m.severity message ∧ TrimsTo message.toList m.text
  time : m.time = c.book.now.epochSeconds

/-- The message that a call makes known. -/
def announced? (c : Call) : Option Message :=
  match c.operation, c.outcome.result with
  | .event severity message, .ok () =>
    some ⟨severity, c.book.now.epochSeconds, trimMessage message.toList⟩
  | .event severity message, .error .notReady =>
    some ⟨severity, c.book.now.epochSeconds, trimMessage message.toList⟩
  | _, _ => none

/-- The chunks that a call delivers. -/
def delivered (c : Call) : List EventChunk :=
  match c.outcome.announcement with
  | some a => a.chunks
  | none => []

/-- What a call traces as its event: one line with the whole message, or nothing.  That a file was
created, or could not be opened, is traced besides, but as what happened to the file. -/
def traced (c : Call) : Option (TraceLevel × String) :=
  c.outcome.announcement.map fun a => (a.level, a.trace)

/-- A call that was really made: its outcome is that of its operation on its book. -/
def Made (c : Call) : Prop := c.outcome = (c.book.step c.operation).2

/-- **What a call makes known** is the announcement of its message. -/
theorem announcement_eq {c : Call} (hc : c.Made) :
    c.outcome.announcement = c.announced?.map fun m =>
      Announcement.of c.book.limits c.book.now m.severity m.text := by
  obtain ⟨b, op, outcome⟩ := c
  cases (show outcome = (b.step op).2 from hc)
  cases op with
  | event severity message =>
    change (b.recordEvent severity message).2.2 = _
    have hresult : (b.step (.event severity message)).2.result
        = (b.recordEvent severity message).2.1 := rfl
    simp only [announced?, hresult]
    unfold LogBook.recordEvent
    dsimp only
    split
    · rfl
    · rfl
    · rfl
    · rename_i e hnotReady _ _
      cases e with
      | notReady => exact absurd rfl hnotReady
      | _ => rfl
  | _ => rfl

/-- **The message that a call makes known is the only one.** -/
theorem announced?_eq_some_iff {c : Call} {m : Message} :
    c.announced? = some m ↔ c.Announces m := by
  constructor
  · intro h
    unfold announced? at h
    split at h
    · rename_i severity message hoperation hresult
      cases h
      exact ⟨Or.inl hresult, ⟨message, hoperation, trimsTo_iff.mpr rfl⟩, rfl⟩
    · rename_i severity message hoperation hresult
      cases h
      exact ⟨Or.inr hresult, ⟨message, hoperation, trimsTo_iff.mpr rfl⟩, rfl⟩
    · cases h
  · rintro ⟨hresult, ⟨message, hoperation, htext⟩, htime⟩
    obtain ⟨severity, time, text⟩ := m
    obtain rfl : time = c.book.now.epochSeconds := htime
    obtain rfl : text = trimMessage message.toList := trimsTo_iff.mp htext
    rcases hresult with hresult | hresult
    · simp only [announced?, hoperation, hresult]
    · simp only [announced?, hoperation, hresult]

end Call

/-! ## 5. Runs -/

/-- What happens to a book: an operation, or something that is done to its tree and its disk
from outside. -/
inductive Happening where
  | operation (op : Operation)
  | disturbance (tree : Tree) (fault : Option WriteFault)

namespace LogBook

/-- The calls among the happenings. -/
def callsAmid (b : LogBook) : List Happening → List Call
  | [] => []
  | .operation op :: hs => ⟨b, op, (b.step op).2⟩ :: (b.step op).1.callsAmid hs
  | .disturbance tree fault :: hs => { b with tree, fault }.callsAmid hs

theorem made_of_mem_callsAmid {b : LogBook} {hs : List Happening} {c : Call}
    (hc : c ∈ b.callsAmid hs) : c.Made := by
  induction hs generalizing b with
  | nil => cases hc
  | cons h hs ih =>
    cases h with
    | operation op =>
      rcases List.mem_cons.mp hc with rfl | hc
      · rfl
      · exact ih hc
    | disturbance tree fault => exact ih hc

end LogBook

/-- A receiver between two messages takes the messages of some calls, in order, and is then
between two messages again. -/
theorem Receiver.listen_calls {cs : List Call} (hcs : ∀ c ∈ cs, c.Made) {r : Receiver}
    (hr : r.pending = []) :
    ∃ finished, r.listen (cs.flatMap Call.delivered) = ⟨r.finished ++ finished, []⟩ ∧
      List.Forall₂ Message.CarriedBy
        ((cs.filterMap Call.announced?).filter fun m => m.text ≠ []) finished := by
  induction cs generalizing r with
  | nil =>
    refine ⟨[], ?_, List.Forall₂.nil⟩
    obtain ⟨finished, pending⟩ := r
    cases hr
    rw [List.append_nil]
    rfl
  | cons c cs ih =>
    have hmade := hcs c List.mem_cons_self
    have ih := fun {r} hr => @ih (fun d hd => hcs d (List.mem_cons_of_mem _ hd)) r hr
    rw [List.flatMap_cons, listen_append, List.filterMap_cons, Call.delivered,
      Call.announcement_eq hmade]
    cases hm : c.announced? with
    | none => exact ih hr
    | some m =>
      have hcarried := Announcement.carriedBy_of c.book.limits c.book.now m.severity m.text
      rw [← (Call.announced?_eq_some_iff.mp hm).time] at hcarried
      rw [Option.map_some]
      dsimp only
      rw [Announcement.listen_of _ _ _ _ hr]
      by_cases htext : m.text = []
      · rw [if_pos htext, List.filter_cons_of_neg (by simpa using htext)]
        exact ih hr
      · rw [if_neg htext, List.filter_cons_of_pos (by simpa using htext)]
        obtain ⟨finished, hlisten, hrest⟩ := @ih { r with finished := r.finished ++
          [(Announcement.of c.book.limits c.book.now m.severity m.text).chunks] } hr
        refine ⟨_ :: finished, ?_, List.Forall₂.cons hcarried hrest⟩
        rw [hlisten, List.append_assoc]
        rfl

namespace LogBook

/-- **The stream of announced events.**  Every call has its message, if it makes one known.  A
receiver that hears all that is delivered gets these messages, whole and in order, but for those
without a text; each comes with its severity and its time.  Every announced event is traced once,
as a whole, and no other call delivers or traces anything. -/
theorem stream_callsAmid (b : LogBook) (hs : List Happening) :
    (∀ c ∈ b.callsAmid hs, ∀ m, c.announced? = some m ↔ c.Announces m) ∧
    (Receiver.listen {} ((b.callsAmid hs).flatMap Call.delivered)).pending = [] ∧
    List.Forall₂ Message.CarriedBy
      (((b.callsAmid hs).filterMap Call.announced?).filter fun m => m.text ≠ [])
      (Receiver.listen {} ((b.callsAmid hs).flatMap Call.delivered)).finished ∧
    ∀ c ∈ b.callsAmid hs,
      c.traced = c.announced?.map Message.trace ∧ (c.announced? = none → c.delivered = []) := by
  obtain ⟨finished, hlisten, hcarried⟩ := Receiver.listen_calls
    (fun c (hc : c ∈ b.callsAmid hs) => made_of_mem_callsAmid hc)
    (show Receiver.pending {} = [] from rfl)
  rw [hlisten]
  refine ⟨fun c _ m => Call.announced?_eq_some_iff, rfl, hcarried, fun c hc =>
    ⟨?_, fun hnone => ?_⟩⟩
  · rw [Call.traced, Call.announcement_eq (made_of_mem_callsAmid hc), Option.map_map]
    rfl
  · rw [Call.delivered, Call.announcement_eq (made_of_mem_callsAmid hc), hnone]
    rfl

end LogBook

end IrrigationLog
