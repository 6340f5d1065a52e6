import MiniModem.Transport.Tty

/-!
# The outbox

`src/transport/outbox.cpp`: a queue of chunks waiting to be written, the first of them perhaps in part
written already. `flush` writes until the queue is empty or the descriptor takes no more. Whatever
`write` reports, the bytes written and the bytes still pending are those that were pending before
(`flush_pending`).
-/

namespace MiniModem.Transport
open Lib

/-- Bytes to be sent, of which the first `offset` have been; a chunk in the queue is never done. -/
structure Chunk where
  data : Bytes
  offset : ℕ := 0
  unsent : offset < data.length
  deriving DecidableEq

namespace Chunk

/-- The bytes that `write` is given. -/
def remaining (chunk : Chunk) : Bytes := chunk.data.drop chunk.offset

/-- The chunk after `written` more bytes, unless it is done. -/
def advance (chunk : Chunk) (written : ℕ) : Option Chunk :=
  if more : chunk.offset + written < chunk.data.length then
    some { chunk with offset := chunk.offset + written, unsent := more }
  else none

/-- A chunk in the queue has something left. -/
lemma remaining_ne_nil (chunk : Chunk) : chunk.remaining ≠ [] := by
  rw [remaining, ← List.length_pos_iff, List.length_drop]
  have := chunk.unsent
  omega

/-- What is left after a write, whether the chunk is done or not. -/
lemma advance_remaining (chunk : Chunk) (written : ℕ) :
    (chunk.advance written).toList.flatMap remaining = chunk.remaining.drop written := by
  rw [advance]
  split
  · simp [remaining, List.drop_drop]
  · next done =>
    have all : chunk.remaining.length ≤ written := by
      rw [remaining, List.length_drop]
      omega
    rw [List.drop_eq_nil_of_le all]
    rfl

end Chunk

/-- The chunks, the oldest first. -/
structure Outbox where
  queue : List Chunk := []
  deriving DecidableEq

namespace Outbox

/-- Append a chunk; no bytes make no chunk. -/
def push (outbox : Outbox) (data : Bytes) : Outbox :=
  if some : 0 < data.length then ⟨outbox.queue ++ [{ data, unsent := some }]⟩ else outbox

/-- Whether there is nothing left to send. -/
def empty (outbox : Outbox) : Bool := outbox.queue.isEmpty

/-- The loop of `flush` over the outcomes of `write`: the queue afterwards, the bytes written, and the
result, which is `false` after an error. -/
def flushQueue : List WriteResult → List Chunk → List Chunk × Bytes × Bool
  | _, [] => ([], [], true)
  | [], queue => (queue, [], true)
  | .room bytes :: writes, chunk :: queue =>
    let written := min bytes chunk.remaining.length
    if written > 0 then
      let (rest, sent, ok) := flushQueue writes ((chunk.advance written).toList ++ queue)
      (rest, chunk.remaining.take written ++ sent, ok)
    else (chunk :: queue, [], false)
  | .eintr :: writes, queue => flushQueue writes queue
  | .eagain :: _, queue => (queue, [], true)
  | .error :: _, queue => (queue, [], false)

/-- Write as much as the descriptor takes. -/
def flush (writes : List WriteResult) (outbox : Outbox) : Outbox × Bytes × Bool :=
  let (queue, sent, ok) := flushQueue writes outbox.queue
  (⟨queue⟩, sent, ok)

/-- The bytes that have not been written, in order. -/
def pending (outbox : Outbox) : Bytes := outbox.queue.flatMap Chunk.remaining

/-- What is pushed is pending last. -/
@[simp] lemma pending_push (outbox : Outbox) (data : Bytes) :
    (outbox.push data).pending = outbox.pending ++ data := by
  rw [push]
  split
  · simp [pending, Chunk.remaining]
  · next none =>
    have e : data = [] := List.length_eq_zero_iff.mp (by omega)
    rw [e, List.append_nil]

/-- Push one after the other. -/
def pushAll (outbox : Outbox) (chunks : List Bytes) : Outbox := chunks.foldl push outbox

/-- No chunks change nothing. -/
@[simp] lemma pushAll_nil (outbox : Outbox) : outbox.pushAll [] = outbox := rfl

/-- The first chunk is pushed first. -/
@[simp] lemma pushAll_cons (outbox : Outbox) (data : Bytes) (chunks : List Bytes) :
    outbox.pushAll (data :: chunks) = (outbox.push data).pushAll chunks := rfl

/-- Chunks can be pushed in two portions. -/
lemma pushAll_append (outbox : Outbox) (chunks more : List Bytes) :
    outbox.pushAll (chunks ++ more) = (outbox.pushAll chunks).pushAll more :=
  List.foldl_append

/-- All chunks are pending, in their order. -/
@[simp] lemma pending_pushAll (outbox : Outbox) (chunks : List Bytes) :
    (outbox.pushAll chunks).pending = outbox.pending ++ chunks.flatten := by
  induction chunks generalizing outbox with
  | nil => simp
  | cons data chunks ih => simp [ih]

/-- The queue is empty exactly if no byte is pending. -/
lemma empty_iff {outbox : Outbox} : outbox.empty = true ↔ outbox.pending = [] := by
  obtain ⟨queue⟩ := outbox
  cases queue with
  | nil => simp [empty, pending]
  | cons chunk queue => simp [empty, pending, chunk.remaining_ne_nil]

/-- After a push it is empty only if it was so and the push had no bytes. -/
@[simp] lemma empty_push (outbox : Outbox) (data : Bytes) :
    (outbox.push data).empty = (outbox.empty && data.isEmpty) := by
  rw [Bool.eq_iff_iff, empty_iff, Bool.and_eq_true, empty_iff, pending_push]
  simp

/-- Nothing is lost, repeated or put out of order by a partial write. -/
lemma flushQueue_pending (writes : List WriteResult) (queue : List Chunk) :
    (flushQueue writes queue).2.1 ++ (flushQueue writes queue).1.flatMap Chunk.remaining =
      queue.flatMap Chunk.remaining := by
  induction writes generalizing queue with
  | nil => cases queue <;> rfl
  | cons write writes ih =>
    cases queue with
    | nil => rfl
    | cons chunk queue =>
      cases write with
      | room bytes =>
        simp only [flushQueue]
        split
        · have rest := ih ((chunk.advance (min bytes chunk.remaining.length)).toList ++ queue)
          rw [List.flatMap_append, chunk.advance_remaining] at rest
          rw [List.append_assoc, rest, ← List.append_assoc, List.take_append_drop]
          rfl
        · rfl
      | eintr => exact ih (chunk :: queue)
      | eagain => rfl
      | error => rfl

/-- A flush moves bytes, and changes nothing in what has been sent and what is pending together. -/
theorem flush_pending (writes : List WriteResult) (outbox : Outbox) :
    (outbox.flush writes).2.1 ++ (outbox.flush writes).1.pending = outbox.pending :=
  flushQueue_pending writes outbox.queue

end Outbox

end MiniModem.Transport
