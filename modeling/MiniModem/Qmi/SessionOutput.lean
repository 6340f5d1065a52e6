import MiniModem.Qmi.Fragmentation
import MiniModem.Qmi.Session

/-!
# The output of a QMI session

A run of one session: readable callbacks with whatever `read` returns, writable callbacks with whatever
`write` takes, and events published on the bus, in any order. The bytes written and the bytes in the
outbox are together the frames queued so far, one for each entry of the history of the run
(`run_grows`). The frames decode to a response for each request and an indication for each
registration, in the order in which these came (`output_correct`).
-/

namespace MiniModem.Qmi
open Lib Lib.Reader Transport Modem

/-- A session, the bus it is subscribed to, and the bytes written to its socket. -/
structure Connection where
  session : Session
  bus : EventBus Unit
  written : Bytes := []

/-- A new session on its own bus. -/
def connect (fd : Fd) : Connection :=
  let (session, bus) := Session.create ⟨fd⟩ ({} : FrameParser) 0 () ({} : EventBus Unit)
  { session, bus }

/-- What happens to a session; `modem` is the state of the modem at the time of the callback. -/
inductive SessionStep (σ : Type*)
  | readable (modem : σ) (events : Events) (reads : List ReadResult)
  | writable (events : Events) (writes : List WriteResult)
  | publish (order : IterationOrder) (event : ModemEvent)

/-- What the output answers to: a request, or a registration. -/
inductive Entry
  | answer (request : Message)
  | indication
  deriving DecidableEq

/-- The request that an entry answers. -/
def Entry.request? : Entry → Option Message
  | answer request => some request
  | indication => none

/-- The handler of the session. -/
def Connection.call (_ : Unit) (event : ModemEvent) (c : Connection) : Connection :=
  { c with session := c.session.onEvent event }

section
variable {σ : Type*} (M : MiniModem.Modem σ)

/-- What a step makes of a connection. -/
def Connection.step (c : Connection) : SessionStep σ → Connection
  | .readable modem events reads =>
    { c with session := (c.session.onReadable M modem events reads).2 }
  | .writable events writes =>
    let (_, session, sent) := c.session.onWritable events writes
    { c with session, written := c.written ++ sent }
  | .publish order event => EventBus.publish Connection.bus Connection.call order event c

/-- What some steps make of it. -/
def Connection.run (c : Connection) (steps : List (SessionStep σ)) : Connection :=
  steps.foldl (fun c step => c.step M step) c

/-- The requests that the parser delivers in a step, or the registration that a step reports. -/
def Connection.entries (c : Connection) : SessionStep σ → List Entry
  | .readable _ events reads => (c.session.requestsRead events reads).map .answer
  | .writable _ _ => []
  | .publish _ event => if event.type = .NetworkRegistered then [.indication] else []

/-- All entries of a run, in order. -/
def Connection.history (c : Connection) : List (SessionStep σ) → List Entry
  | [] => []
  | step :: steps => c.entries step ++ (c.step M step).history steps

/-- The chunks that reach the parser in a step. -/
def SessionStep.chunks : SessionStep σ → List Bytes
  | readable _ events reads =>
    if has events (EPOLLHUP ||| EPOLLERR) then []
    else if !has events EPOLLIN then []
    else received reads
  | writable _ _ => []
  | publish _ _ => []

/-- The step publishes a registration. -/
def SessionStep.registers : SessionStep σ → Bool
  | publish _ event => event.type = .NetworkRegistered
  | _ => false

end

/-- The message is the response to the request, or the indication. -/
def Answers : Entry → Message → Prop
  | .answer request, message =>
    message.header.flags = Flags.Response.code ∧
      message.header.transactionId = request.header.transactionId ∧
      message.header.serviceId = request.header.serviceId ∧
      message.header.messageId = request.header.messageId
  | .indication, message => message = Session.indication.filled

section
variable {σ : Type*} {M : MiniModem.Modem σ}

/-- Everything queued so far, written or not. -/
def Connection.stream (c : Connection) : Bytes := c.written ++ c.session.outbox.pending

/-- The session is the only subscriber of its bus. -/
def Connection.Subscribed (c : Connection) : Prop := ∀ order, c.bus.subscribers order = [()]

/-- A new connection is subscribed. -/
lemma connect_subscribed (fd : Fd) : (connect fd).Subscribed := by
  intro order
  have one : order.order [1] = [1] := List.perm_singleton.mp (order.perm [1])
  show (order.order [1]).filterMap _ = _
  rw [one]
  rfl

/-- An event reaches the session once. -/
lemma Connection.Subscribed.publish {c : Connection} (sub : c.Subscribed) (order : IterationOrder)
    (event : ModemEvent) :
    c.step M (.publish order event) = { c with session := c.session.onEvent event } := by
  have keep : ∀ handler event c, (Connection.call handler event c).bus = c.bus := fun _ _ _ => rfl
  rw [step, EventBus.publish_eq keep, sub order]
  rfl

/-- No step unsubscribes it. -/
lemma Connection.Subscribed.step {c : Connection} (sub : c.Subscribed) (step : SessionStep σ) :
    (c.step M step).Subscribed := by
  cases step with
  | readable modem events reads => exact sub
  | writable events writes => exact sub
  | publish order event =>
    rw [sub.publish order event]
    exact sub

/-- The messages of a history. -/
structure Sent (entries : List Entry) (messages : List Message) : Prop where
  answers : List.Forall₂ Answers entries messages
  sized : ∀ m ∈ messages, m.WellSized

/-- What is sent one after the other. -/
lemma Sent.append {entries entries' : List Entry} {messages messages' : List Message}
    (sent : Sent entries messages) (sent' : Sent entries' messages') :
    Sent (entries ++ entries') (messages ++ messages') := by
  refine ⟨List.rel_append sent.answers sent'.answers, ?_⟩
  intro m mem
  rcases List.mem_append.mp mem with mem | mem
  · exact sent.sized m mem
  · exact sent'.sized m mem

/-- The responses to some requests. -/
lemma sent_answers (short : ∀ modem, (M.operatorCode modem).length ≤ 65531) (modem : σ)
    (requests : List Message) :
    Sent (requests.map .answer) (requests.map fun request => (dispatch M modem request).filled) := by
  refine ⟨?_, ?_⟩
  · rw [List.forall₂_map_left_iff, List.forall₂_map_right_iff, List.forall₂_same]
    intro request _
    have header := dispatch_header M modem request
    simp only [Answers, Message.filled, header, responseHeader, and_self]
  · intro m mem
    obtain ⟨request, -, rfl⟩ := List.mem_map.mp mem
    exact Message.filled_wellSized (dispatch_fits M modem request (short modem))

/-- An indication is sent as one frame. -/
lemma sent_indication : Sent [.indication] [Session.indication.filled] := by
  refine ⟨?_, ?_⟩
  · exact .cons rfl .nil
  · intro m mem
    rw [List.mem_singleton] at mem
    subst mem
    exact Message.filled_wellSized (by decide)

/-- What a step appends to the stream are the frames of its entries. -/
lemma step_stream (short : ∀ modem, (M.operatorCode modem).length ≤ 65531) {c : Connection}
    (sub : c.Subscribed) (step : SessionStep σ) :
    ∃ messages, Sent (c.entries step) messages ∧
      (c.step M step).stream = c.stream ++ (messages.map encodeMessage).flatten := by
  cases step with
  | readable modem events reads =>
    refine ⟨_, sent_answers short modem _, ?_⟩
    simp only [Connection.stream, Connection.step, Session.onReadable_session,
      Outbox.pending_pushAll, Session.answers, List.map_map, Function.comp_def, encodeMessage_filled,
      List.append_assoc]
  | writable events writes =>
    refine ⟨[], ⟨.nil, by simp⟩, ?_⟩
    have moved := c.session.onWritable_pending events writes
    simp only [Connection.stream, Connection.step]
    rw [List.append_assoc, moved]
    simp
  | publish order event =>
    rw [sub.publish order event]
    simp only [Connection.entries, Connection.stream, Session.onEvent]
    split
    · next registered =>
      refine ⟨_, sent_indication, ?_⟩
      simp [registered, Session.queueMessage, Session.queue]
    · next other => exact ⟨[], ⟨.nil, by simp⟩, by simp⟩

/-- What a run appends to the stream are the frames of its history. -/
lemma run_grows (short : ∀ modem, (M.operatorCode modem).length ≤ 65531) (steps : List (SessionStep σ))
    {c : Connection} (sub : c.Subscribed) :
    ∃ messages, Sent (c.history M steps) messages ∧
      (c.run M steps).stream = c.stream ++ (messages.map encodeMessage).flatten := by
  induction steps generalizing c with
  | nil => exact ⟨[], ⟨.nil, by simp⟩, by simp [Connection.run]⟩
  | cons step steps ih =>
    obtain ⟨first, sent, grown⟩ := step_stream short sub step
    obtain ⟨rest, sent', grown'⟩ := ih (sub.step step)
    refine ⟨first ++ rest, sent.append sent', ?_⟩
    rw [Connection.run, List.foldl_cons, ← Connection.run, grown', grown]
    simp

/-- The requests of a step are those that its chunks complete in the parser. -/
lemma step_requests {c : Connection} (sub : c.Subscribed) (step : SessionStep σ) :
    (c.entries step).filterMap Entry.request? =
        (frameReader.feed c.session.input.buffer step.chunks).1 ∧
      (c.step M step).session.input.buffer =
        (frameReader.feed c.session.input.buffer step.chunks).2 := by
  cases step with
  | readable modem events reads =>
    have all : ∀ requests : List Message,
        (requests.map Entry.answer).filterMap Entry.request? = requests := by
      intro requests
      rw [List.filterMap_map]
      exact List.filterMap_some
    simp only [Connection.entries, Connection.step, all, SessionStep.chunks,
      Session.onReadable_session, Session.requestsRead, Session.parserAfter]
    split
    · exact ⟨rfl, rfl⟩
    · split
      · exact ⟨rfl, rfl⟩
      · exact ⟨rfl, rfl⟩
  | writable events writes =>
    refine ⟨rfl, ?_⟩
    simp only [Connection.step, Session.onWritable, SessionStep.chunks]
    split
    · rfl
    · split
      · rfl
      · rfl
  | publish order event =>
    rw [sub.publish order event]
    by_cases registered : event.type = .NetworkRegistered
    · simp [Connection.entries, Session.onEvent, SessionStep.chunks, registered, Entry.request?,
        Session.queueMessage, Session.queue]
    · simp [Connection.entries, Session.onEvent, SessionStep.chunks, registered]

/-- The requests of a run are those of the whole input. -/
lemma history_requests (steps : List (SessionStep σ)) {c : Connection} (sub : c.Subscribed) :
    (c.history M steps).filterMap Entry.request? =
      (frameReader.feed c.session.input.buffer (steps.flatMap SessionStep.chunks)).1 := by
  induction steps generalizing c with
  | nil => rfl
  | cons step steps ih =>
    obtain ⟨requests, parser⟩ := step_requests (M := M) sub step
    rw [Connection.history, List.filterMap_append, requests, ih (sub.step step), parser, List.flatMap_cons,
      feed_append]

/-- There is one indication for each registration published. -/
lemma history_indications (steps : List (SessionStep σ)) (c : Connection) :
    (c.history M steps).count .indication = steps.countP SessionStep.registers := by
  induction steps generalizing c with
  | nil => rfl
  | cons step steps ih =>
    have one : (c.entries step).count .indication = if step.registers then 1 else 0 := by
      cases step with
      | readable modem events reads =>
        simp [Connection.entries, SessionStep.registers, List.count_eq_zero]
      | writable events writes => rfl
      | publish order event =>
        simp only [Connection.entries, SessionStep.registers, decide_eq_true_eq]
        split
        · rfl
        · rfl
    rw [Connection.history, List.count_append, ih, one, List.countP_cons]
    omega

/-- The output of a session, written or still in the outbox, is a sequence of whole frames which decode,
however they are cut, to one response for each request that the parser delivered and one indication for
each registration published, in the order in which these came. -/
theorem output_correct (M : MiniModem.Modem σ)
    (short : ∀ modem, (M.operatorCode modem).length ≤ 65531) (fd : Fd) (steps : List (SessionStep σ)) :
    let c := (connect fd).run M steps
    let history := (connect fd).history M steps
    let stream := c.written ++ c.session.outbox.pending
    history.filterMap Entry.request? = delivered (steps.flatMap SessionStep.chunks) ∧
      history.count .indication = steps.countP SessionStep.registers ∧
      ∃ messages, List.Forall₂ Answers history messages ∧
        stream = (messages.map encodeMessage).flatten ∧
        ∀ chunks, Chunking stream chunks → delivered chunks = messages := by
  intro c history stream
  refine ⟨history_requests steps (connect_subscribed fd), history_indications steps _, ?_⟩
  obtain ⟨messages, sent, grown⟩ := run_grows short steps (connect_subscribed fd)
  have frames : stream = (messages.map encodeMessage).flatten := grown
  have frame : ∀ m ∈ messages, ValidFrame (encodeMessage m) m :=
    fun m mem => validFrame_iff.mpr ⟨sent.sized m mem, rfl⟩
  refine ⟨messages, sent.answers, frames, ?_⟩
  intro chunks cut
  have valid : AllValid (messages.map encodeMessage) := by
    intro f mem
    obtain ⟨m, mem', rfl⟩ := List.mem_map.mp mem
    rw [(frame m mem').decoded_eq]
    exact frame m mem'
  rw [valid.delivered_eq (cut.1.trans frames), List.map_map]
  exact (List.map_congr_left fun m mem => (frame m mem).decoded_eq).trans (List.map_id messages)

/-- A request in two pieces, with a registration before it is complete. -/
def splitRequest : List (SessionStep Bool) :=
  [.readable false EPOLLIN [.bytes (signalRequest.take 4)],
    .publish .entries { type := .NetworkRegistered },
    .readable true EPOLLIN [.bytes (signalRequest.drop 4)],
    .writable EPOLLOUT [.room 7]]

/-- The indication comes first, and the response is whole although the indication is written in part. -/
theorem output_correct_split :
    ∃ messages, List.Forall₂ Answers [.indication, .answer (decoded signalRequest)] messages ∧
      ((connect 5).run sampleModem splitRequest).written ++
          ((connect 5).run sampleModem splitRequest).session.outbox.pending =
        (messages.map encodeMessage).flatten := by
  obtain ⟨-, -, messages, answers, stream, -⟩ :=
    output_correct sampleModem (by decide) 5 splitRequest
  have history : (connect 5).history sampleModem splitRequest =
      [.indication, .answer (decoded signalRequest)] := by
    decide
  rw [history] at answers
  exact ⟨messages, answers, stream⟩

end

end MiniModem.Qmi
