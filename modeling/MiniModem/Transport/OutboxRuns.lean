import MiniModem.Transport.Outbox

/-!
# Runs of an outbox

`writeCalls` lists the calls of `write` that a flush makes, with what each of them is given and finds.
One induction relates it to the loop (`flushQueue_trace`): the bytes that the calls take are the bytes
written, and the way the flush ends can be read off the calls. Over any sequence of pushes and flushes
no byte is lost, repeated or put out of order (`outbox_conserves`).
-/

namespace MiniModem.Transport
open Lib

/-- A call of `write`: the bytes it is given, and what it finds. -/
structure WriteCall where
  data : Bytes
  result : WriteResult

namespace WriteCall

/-- The bytes that the call takes. -/
def taken (call : WriteCall) : Bytes :=
  match call.result with
  | .room bytes => call.data.take bytes
  | _ => []

/-- A hard error, or 0. -/
def Failed (call : WriteCall) : Prop :=
  call.result = .error ∨ ∃ bytes, call.result = .room bytes ∧ call.taken = []

end WriteCall

/-- The last of the calls reports EAGAIN. -/
def Blocked (calls : List WriteCall) : Prop := ∃ call ∈ calls.getLast?, call.result = .eagain

namespace Outbox

/-- The calls that the loop of `flush` makes. -/
def queueCalls : List WriteResult → List Chunk → List WriteCall
  | _, [] => []
  | [], chunk :: _ => [⟨chunk.remaining, .eagain⟩]
  | .room bytes :: writes, chunk :: queue =>
    let written := min bytes chunk.remaining.length
    ⟨chunk.remaining, .room bytes⟩ ::
      if written > 0 then queueCalls writes ((chunk.advance written).toList ++ queue) else []
  | .eintr :: writes, chunk :: queue =>
    ⟨chunk.remaining, .eintr⟩ :: queueCalls writes (chunk :: queue)
  | .eagain :: _, chunk :: _ => [⟨chunk.remaining, .eagain⟩]
  | .error :: _, chunk :: _ => [⟨chunk.remaining, .error⟩]

def writeCalls (writes : List WriteResult) (outbox : Outbox) : List WriteCall :=
  queueCalls writes outbox.queue

/-- What the calls of a flush say about it. -/
structure Trace (calls : List WriteCall) (queue : List Chunk) (sent : Bytes) (ok : Bool) : Prop where
  nonempty : ∀ call ∈ calls, call.data ≠ []
  sent : sent = calls.flatMap WriteCall.taken
  failed : ok = false ↔ ∃ call ∈ calls, call.Failed
  blocked : ok = true ∧ queue ≠ [] ↔ Blocked calls

/-- A call after which the loop goes on. -/
lemma Trace.cons {calls : List WriteCall} {queue : List Chunk} {sent : Bytes} {ok : Bool}
    (trace : Trace calls queue sent ok) {call : WriteCall} (some : call.data ≠ [])
    (fine : ¬ call.Failed) (ready : call.result ≠ .eagain) :
    Trace (call :: calls) queue (call.taken ++ sent) ok := by
  refine ⟨?_, ?_, ?_, ?_⟩
  · intro call' mem
    rcases List.mem_cons.mp mem with rfl | mem
    · exact some
    · exact trace.nonempty call' mem
  · rw [List.flatMap_cons, trace.sent]
  · rw [trace.failed]
    simp only [List.mem_cons, exists_eq_or_imp, or_iff_right fine]
  · rw [trace.blocked, Blocked, Blocked]
    cases calls with
    | nil => simp [ready]
    | cons call' calls => rw [List.getLast?_cons_cons]

/-- A call that finds no room. -/
lemma trace_blocked (chunk : Chunk) (queue : List Chunk) :
    Trace [⟨chunk.remaining, .eagain⟩] (chunk :: queue) [] true := by
  refine ⟨?_, rfl, by simp [WriteCall.Failed], by simp [Blocked]⟩
  simp [chunk.remaining_ne_nil]

/-- A call that ends in a hard error or returns 0. -/
lemma trace_failed (chunk : Chunk) (queue : List Chunk) {result : WriteResult}
    (failed : result = .error ∨ result = .room 0) :
    Trace [⟨chunk.remaining, result⟩] (chunk :: queue) [] false := by
  rcases failed with rfl | rfl
  · refine ⟨?_, rfl, by simp [WriteCall.Failed], by simp [Blocked]⟩
    simp [chunk.remaining_ne_nil]
  · refine ⟨?_, rfl, by simp [WriteCall.Failed, WriteCall.taken], by simp [Blocked]⟩
    simp [chunk.remaining_ne_nil]

/-- What the loop does, by induction on what is left of the script. -/
lemma flushQueue_trace (writes : List WriteResult) (queue : List Chunk) :
    Trace (queueCalls writes queue) (flushQueue writes queue).1 (flushQueue writes queue).2.1
      (flushQueue writes queue).2.2 := by
  have done : Trace [] [] [] true := ⟨by simp, rfl, by simp, by simp [Blocked]⟩
  induction writes generalizing queue with
  | nil =>
    cases queue with
    | nil => exact done
    | cons chunk queue => exact trace_blocked chunk queue
  | cons write writes ih =>
    cases queue with
    | nil => exact done
    | cons chunk queue =>
      have some := chunk.remaining_ne_nil
      cases write with
      | room bytes =>
        simp only [queueCalls, flushQueue]
        split
        · next written =>
          have taken : chunk.remaining.take (min bytes chunk.remaining.length) =
              WriteCall.taken ⟨chunk.remaining, .room bytes⟩ :=
            List.take_eq_take_min.symm
          rw [taken]
          refine (ih _).cons some ?_ (by simp)
          -- a count above 0 is no failure
          simp only [WriteCall.Failed, WriteCall.taken, List.take_eq_nil_iff, some, reduceCtorEq,
            false_or, or_false, not_exists, not_and]
          omega
        · next none =>
          have zero : bytes = 0 := by
            have := List.length_pos_iff.mpr some
            omega
          subst zero
          exact trace_failed chunk queue (.inr rfl)
      | eintr => exact (ih (chunk :: queue)).cons some (by simp [WriteCall.Failed]) (by simp)
      | eagain => exact trace_blocked chunk queue
      | error => exact trace_failed chunk queue (.inl rfl)

end Outbox

/-- Where a call has failed, its bytes are still pending. -/
lemma Outbox.flush_failed {writes : List WriteResult} {outbox : Outbox}
    (failed : ∃ call ∈ outbox.writeCalls writes, call.result = .error) :
    (outbox.flush writes).1.empty = false := by
  obtain ⟨queue⟩ := outbox
  rw [Outbox.empty, List.isEmpty_eq_false_iff]
  simp only [Outbox.writeCalls, Outbox.flush] at failed ⊢
  induction writes generalizing queue with
  | nil => cases queue <;> simp [Outbox.queueCalls] at failed
  | cons write writes ih =>
    cases queue with
    | nil => simp [Outbox.queueCalls] at failed
    | cons chunk queue =>
      cases write with
      | room bytes =>
        simp only [Outbox.queueCalls, Outbox.flushQueue] at failed ⊢
        split
        · next written =>
          rw [if_pos written] at failed
          exact ih _ (by simpa using failed)
        · exact List.cons_ne_nil _ _
      | eintr => exact ih _ (by simpa [Outbox.queueCalls] using failed)
      | eagain => exact List.cons_ne_nil _ _
      | error => exact List.cons_ne_nil _ _

/-- What the owner of an outbox does. -/
inductive OutboxCall
  | push (data : Bytes)
  | flush (writes : List WriteResult)

/-- Everything pushed by some calls. -/
def OutboxCall.pushed : List OutboxCall → Bytes
  | [] => []
  | push data :: calls => data ++ pushed calls
  | flush _ :: calls => pushed calls

namespace Outbox

/-- The outbox after some calls, and the bytes that `write` has accepted. -/
def run : List OutboxCall → Outbox → Outbox × Bytes
  | [], outbox => (outbox, [])
  | .push data :: calls, outbox => run calls (outbox.push data)
  | .flush writes :: calls, outbox =>
    let (outbox, sent, _) := outbox.flush writes
    let (outbox, accepted) := run calls outbox
    (outbox, sent ++ accepted)

/-- Nothing is lost, repeated or put out of order by any sequence of calls. -/
lemma run_pending (calls : List OutboxCall) (outbox : Outbox) :
    (run calls outbox).2 ++ (run calls outbox).1.pending =
      outbox.pending ++ OutboxCall.pushed calls := by
  induction calls generalizing outbox with
  | nil => simp [run, OutboxCall.pushed]
  | cons call calls ih =>
    cases call with
    | push data =>
      rw [run, ih, pending_push, OutboxCall.pushed, List.append_assoc]
    | flush writes =>
      have rest := ih (outbox.flush writes).1
      simp only [run, OutboxCall.pushed]
      rw [List.append_assoc, rest, ← List.append_assoc, flush_pending]

end Outbox

/-- After any sequence of pushes and flushes the bytes accepted by `write` and those still in the queue
are the bytes pushed, no chunk of the queue is done, and the outbox is empty exactly if nothing is
pending. Whatever `write` reports to the next flush, it is never called without bytes; the bytes it
takes and those still pending are those that were pending; the flush fails exactly if a call ends in a
hard error or returns 0; and it succeeds with something left exactly if the last call reports EAGAIN. -/
theorem outbox_conserves (calls : List OutboxCall) :
    let outbox := (Outbox.run calls {}).1
    let accepted := (Outbox.run calls {}).2
    accepted ++ outbox.pending = OutboxCall.pushed calls ∧
      (∀ chunk ∈ outbox.queue, chunk.offset < chunk.data.length) ∧
      (outbox.empty = true ↔ outbox.pending = []) ∧
      ∀ writes,
        let trace := outbox.writeCalls writes
        let (after, sent, ok) := outbox.flush writes
        (∀ call ∈ trace, call.data ≠ []) ∧
          sent = trace.flatMap WriteCall.taken ∧
          sent ++ after.pending = outbox.pending ∧
          (ok = false ↔ ∃ call ∈ trace, call.Failed) ∧
          (ok = true ∧ after.empty = false ↔ Blocked trace) := by
  intro outbox accepted
  refine ⟨?_, fun chunk _ => chunk.unsent, Outbox.empty_iff, fun writes => ?_⟩
  · have all := Outbox.run_pending calls {}
    exact all
  · have trace := Outbox.flushQueue_trace writes outbox.queue
    refine ⟨trace.nonempty, trace.sent, outbox.flush_pending writes, trace.failed, ?_⟩
    rw [Outbox.writeCalls, ← trace.blocked, Outbox.empty, List.isEmpty_eq_false_iff]

end MiniModem.Transport
