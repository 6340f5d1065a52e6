import MiniModem.Qmi.SessionOutput

/-!
# Transaction ids

An indication has the transaction id 0, by which a client is to know it. A response has the id of its
request, whatever that is, so the id 0 marks the indications of a run exactly if no request of the run
has it (`transactionZero_iff`). For this the history of a run is told with the messages it places in
the output (`placed`).
-/

namespace MiniModem.Qmi
open Lib Lib.Reader Transport Modem

section
variable {σ : Type*} (M : MiniModem.Modem σ)

/-- The messages that a step places in the output, each with what it answers to. -/
def Connection.placedBy (c : Connection) : SessionStep σ → List (Entry × Message)
  | .readable modem events reads =>
    (c.session.requestsRead events reads).map fun request =>
      (.answer request, dispatch M modem request)
  | .writable _ _ => []
  | .publish _ event =>
    if event.type = .NetworkRegistered then [(.indication, Session.indication)] else []

/-- All messages of a run, in order. -/
def Connection.placed (c : Connection) : List (SessionStep σ) → List (Entry × Message)
  | [] => []
  | step :: steps => c.placedBy M step ++ (c.step M step).placed steps

variable {M}

/-- The history is placed entry by entry. -/
lemma placed_history (steps : List (SessionStep σ)) (c : Connection) :
    (c.placed M steps).map Prod.fst = c.history M steps := by
  induction steps generalizing c with
  | nil => rfl
  | cons step steps ih =>
    have here : (c.placedBy M step).map Prod.fst = c.entries step := by
      cases step with
      | readable modem events reads =>
        rw [Connection.placedBy, List.map_map]
        rfl
      | writable events writes => rfl
      | publish order event =>
        simp only [Connection.placedBy, Connection.entries]
        split
        · rfl
        · rfl
    rw [Connection.placed, List.map_append, here, ih]
    rfl

/-- The frames of the messages are the output, written or not. -/
lemma placed_stream (steps : List (SessionStep σ)) {c : Connection} (sub : c.Subscribed) :
    (c.run M steps).stream =
      c.stream ++ ((c.placed M steps).map fun item => encodeMessage item.2).flatten := by
  induction steps generalizing c with
  | nil => simp [Connection.run, Connection.placed]
  | cons step steps ih =>
    have here : (c.step M step).stream =
        c.stream ++ ((c.placedBy M step).map fun item => encodeMessage item.2).flatten := by
      cases step with
      | readable modem events reads =>
        simp only [Connection.stream, Connection.step, Session.onReadable_session,
          Outbox.pending_pushAll, Session.answers, Connection.placedBy, List.map_map,
          Function.comp_def, List.append_assoc]
      | writable events writes =>
        have moved := c.session.onWritable_pending events writes
        simp only [Connection.stream, Connection.step, Connection.placedBy]
        rw [List.append_assoc, moved]
        simp
      | publish order event =>
        rw [sub.publish order event]
        by_cases registered : event.type = .NetworkRegistered
        · simp [Connection.placedBy, Connection.stream, Session.onEvent, registered,
            Session.queueMessage, Session.queue]
        · simp [Connection.placedBy, Connection.stream, Session.onEvent, registered]
    have rest := ih (sub.step (M := M) step)
    rw [here, List.append_assoc, ← List.flatten_append, ← List.map_append] at rest
    exact rest

/-- A message is the indication, or the response to the request it answers to. -/
lemma placed_cases (steps : List (SessionStep σ)) {c : Connection} {item : Entry × Message}
    (mem : item ∈ c.placed M steps) :
    item = (.indication, Session.indication) ∨
      ∃ modem request, item = (.answer request, dispatch M modem request) := by
  induction steps generalizing c with
  | nil => cases mem
  | cons step steps ih =>
    rw [Connection.placed, List.mem_append] at mem
    rcases mem with mem | mem
    · cases step with
      | readable modem events reads =>
        obtain ⟨request, -, rfl⟩ := List.mem_map.mp mem
        exact .inr ⟨modem, request, rfl⟩
      | writable events writes => cases mem
      | publish order event =>
        simp only [Connection.placedBy] at mem
        split at mem
        · exact .inl (List.mem_singleton.mp mem)
        · cases mem
    · exact ih mem

/-- The requests that are answered are those that the parser delivers. -/
lemma mem_placed_iff (fd : Fd) (steps : List (SessionStep σ)) (request : Message) :
    (∃ message, (.answer request, message) ∈ (connect fd).placed M steps) ↔
      request ∈ delivered (steps.flatMap SessionStep.chunks) := by
  have requests : ((connect fd).history M steps).filterMap Entry.request? =
      delivered (steps.flatMap SessionStep.chunks) :=
    history_requests steps (connect_subscribed fd)
  rw [← requests, ← placed_history, List.mem_filterMap]
  refine ⟨?_, ?_⟩
  · intro placed
    obtain ⟨message, mem⟩ := placed
    exact ⟨.answer request, List.mem_map.mpr ⟨_, mem, rfl⟩, rfl⟩
  · intro entry
    obtain ⟨entry, mem, e⟩ := entry
    cases entry with
    | answer request' =>
      cases e
      obtain ⟨item, mem', e⟩ := List.mem_map.mp mem
      exact ⟨item.2, e ▸ mem'⟩
    | indication => cases e

end

/-- The output of a run is made of the messages placed in it, and among these the ones with the
transaction id 0 are the indications exactly if no request that the parser delivers in the run has the
id 0. -/
theorem transactionZero_iff {σ : Type*} (M : MiniModem.Modem σ) (fd : Fd)
    (steps : List (SessionStep σ)) :
    let placed := (connect fd).placed M steps
    ((connect fd).run M steps).stream = (placed.map fun item => encodeMessage item.2).flatten ∧
      ((∀ entry message, (entry, message) ∈ placed →
          (message.header.transactionId = 0 ↔ entry = .indication)) ↔
        ∀ request ∈ delivered (steps.flatMap SessionStep.chunks),
          request.header.transactionId ≠ 0) := by
  intro placed
  refine ⟨placed_stream steps (connect_subscribed fd), ?_⟩
  refine ⟨?_, ?_⟩
  · intro zero request mem
    obtain ⟨message, mem'⟩ := (mem_placed_iff fd steps request).mpr mem
    have transaction := (zero _ _ mem').not.mpr (by simp)
    rcases placed_cases steps mem' with e | ⟨modem, request', e⟩
    · cases e
    · cases e
      rwa [dispatch_header] at transaction
  · intro nonzero entry message mem
    rcases placed_cases steps mem with e | ⟨modem, request, e⟩
    · cases e
      exact ⟨fun _ => rfl, fun _ => rfl⟩
    · cases e
      have given := nonzero request ((mem_placed_iff fd steps request).mp ⟨_, mem⟩)
      rw [dispatch_header]
      exact ⟨fun e => absurd e given, fun e => by cases e⟩

/-- A `GetSignal` request with the transaction id 0. -/
def zeroRequest : Bytes := [1, 1, 0, 0, 1, 0, 1, 0, 0, 0]

/-- It is answered with the transaction id of an indication. -/
theorem response_zero :
    ¬ ∀ entry message,
      (entry, message) ∈
          (connect 5).placed sampleModem [.readable false EPOLLIN [.bytes zeroRequest]] →
        (message.header.transactionId = 0 ↔ entry = .indication) := by
  intro zero
  have response := zero (.answer (decoded zeroRequest)) _ (.head _)
  exact absurd (response.mp (by decide)) (by decide)

end MiniModem.Qmi
