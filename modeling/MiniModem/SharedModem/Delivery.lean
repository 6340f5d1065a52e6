import MiniModem.Daemon.FanOut
import MiniModem.Qmi.SessionOutput
import MiniModem.SharedModem.Answers

/-!
# What a QMI client decodes

A client of the QMI server sees the bytes that have been sent, in any pieces. However many others there are,
it decodes from them messages that it has been told, none of them twice, none changed and none left out
before another: one response with the ids of the request for each request that it has sent, in their order,
and indications of registrations (`qmi_served`).
-/

namespace MiniModem
open Lib Transport Modem Daemon

namespace Qmi

/-- From a part of a stream of valid frames, in any pieces, the messages of the frames that it contains are
delivered. -/
lemma delivered_part {frames pieces : List Bytes} {rest : Bytes} (valid : AllValid frames)
    (stream : pieces.flatten ++ rest = frames.flatten) :
    ∃ j ≤ frames.length, ∃ part, delivered pieces = (frames.take j).map decoded ∧
      (frames.take j).flatten ++ part = pieces.flatten ∧
      ∀ f ∈ (frames.drop j).head?, part.length < f.length := by
  have whole : delivered pieces = (frameReader.drain pieces.flatten).1 := by
    refine feed_eq_drain (.inl (by decide)) fun frames' bad t err => ?_
    have err' : FirstError frames.flatten frames' bad (t ++ rest) := by
      refine ⟨?_, err.valid, err.malformed⟩
      rw [← stream, ← List.nil_append pieces.flatten, err.split, List.append_assoc, List.append_assoc]
    exact absurd err' valid.no_error
  obtain ⟨j, le, out, buffer, short⟩ := drain_stream valid stream
  exact ⟨j, le, _, whole.trans out, buffer, short⟩

end Qmi

/-- The message that a client of the QMI server decodes when it is told something. -/
def Told.message? : Told → Option Qmi.Message
  | registered _ => some Qmi.Session.indication.filled
  | text _ => none
  | message response => some response.filled

namespace SharedModem

/-- A response to a request, with the ids of the request. -/
def Responds (request : Qmi.Message) (told : Told) : Prop :=
  ∃ response, told = .message response ∧ Qmi.Answers (.answer request) response.filled

/-- The QMI server tells it by the frame of a message. -/
def Framed (told : Told) : Prop :=
  ∃ m, told.message? = some m ∧ Qmi.ValidFrame (Server.qmiServer.wire told) m

section
variable {σ : Type*} {M : MiniModem.Modem σ}

/-- A response is told in a frame if the operator code is short. -/
lemma framed_message {modem : σ} (short : (M.operatorCode modem).length ≤ 65531) (request : Qmi.Message) :
    Framed (.message (Qmi.dispatch M modem request)) := by
  refine ⟨_, rfl, Qmi.validFrame_iff.mpr ⟨?_, (Qmi.encodeMessage_filled _).symm⟩⟩
  exact Qmi.Message.filled_wellSized (Qmi.dispatch_fits M modem request short)

/-- A response has the ids of the request. -/
lemma RespondsTo.responds {request : Qmi.Message} {told : Told}
    (answer : RespondsTo M .qmiServer request told) : Responds request told := by
  obtain ⟨modem, rfl⟩ := answer
  refine ⟨_, rfl, ?_⟩
  have header := Qmi.dispatch_header M modem request
  simp only [Qmi.Answers, Qmi.Message.filled, header, Qmi.responseHeader, and_self]

/-- All responses are told in frames. -/
lemma framed_responses (short : ∀ modem, (M.operatorCode modem).length ≤ 65531) {requests : List Qmi.Message}
    {told : List Told} (answers : List.Forall₂ (RespondsTo M .qmiServer) requests told) :
    ∀ one ∈ told, Framed one := by
  induction answers with
  | nil => simp
  | cons answer _ ih =>
    obtain ⟨modem, rfl⟩ := answer
    intro one mem
    rcases List.mem_cons.mp mem with rfl | mem
    · exact framed_message (short modem) _
    · exact ih one mem

/-- All that a client of the QMI server is told is told in frames. -/
lemma framed_told (short : ∀ modem, (M.operatorCode modem).length ≤ 65531) {requests : List Qmi.Message}
    {told : List Told}
    (answers : List.Forall₂ (RespondsTo M .qmiServer) requests (told.filter Told.isResponse)) :
    ∀ one ∈ told, Framed one := by
  intro one mem
  cases one with
  | registered event => exact ⟨_, rfl, validFrame_indication⟩
  | text response => exact framed_responses short answers _ (List.mem_filter.mpr ⟨mem, rfl⟩)
  | message response => exact framed_responses short answers _ (List.mem_filter.mpr ⟨mem, rfl⟩)

/-- What has been told in frames is a stream of valid frames, of the messages that are decoded. -/
lemma frames_told {told : List Told} (framed : ∀ one ∈ told, Framed one) :
    Qmi.AllValid (told.map Server.qmiServer.wire) ∧
      (told.map Server.qmiServer.wire).map Qmi.decoded = told.filterMap Told.message? := by
  induction told with
  | nil => exact ⟨fun _ mem => absurd mem List.not_mem_nil, rfl⟩
  | cons one told ih =>
    obtain ⟨m, message, valid⟩ := framed one List.mem_cons_self
    obtain ⟨valid', decoded⟩ := ih fun one mem => framed one (List.mem_cons_of_mem _ mem)
    refine ⟨?_, ?_⟩
    · exact Qmi.allValid_append valid.allValid valid'
    · rw [List.map_cons, List.map_cons, decoded, valid.decoded_eq, List.filterMap_cons_some message]

end

/-- A session of the QMI server, whether it is there or has been destroyed, has answered each message that
its parser has found in what was read from its descriptor by one response with the ids of the message, in
their order. In between it has told the registrations that were published while it was there, all of them, once
each and in their order. Whoever cuts the bytes sent by the session in any way and decodes them gets what it
has told, up to the first frame that has not been sent in full; this is all of it if nothing is pending. -/
theorem qmi_served {σ : Type*} (M : MiniModem.Modem σ)
    (short : ∀ modem, (M.operatorCode modem).length ≤ 65531) (fds : Descriptors) (modem : σ)
    (steps : List Step) (d : Daemon σ) (run : (Daemon.system M).exec (boot fds modem) steps = some d)
    (bound : d.allocated < 2 ^ 64) (owned : Owned .qmiServer) (has : d.HasSession owned) :
    let read := (Daemon.system M).project (fun d step _ => chunksRead d step) (boot fds modem) steps
    ∃ told : List Told, SessionTold M fds modem steps owned told ∧
      List.Forall₂ Responds (Qmi.delivered (chunksOf owned.addr read)) (told.filter Told.isResponse) ∧
        ∀ pieces : List Bytes, pieces.flatten = owned.sent →
          (∃ j, ∃ part, Qmi.delivered pieces = (told.take j).filterMap Told.message? ∧
            (told.take j).flatMap Server.qmiServer.wire ++ part = owned.sent ∧
            ∀ next ∈ (told.drop j).head?, part.length < (Server.qmiServer.wire next).length) ∧
          (owned.session.outbox.pending = [] → Qmi.delivered pieces = told.filterMap Told.message?) := by
  intro read
  obtain ⟨told, session⟩ := session_told run bound owned has
  have output := session.output
  have framed := framed_told short session.responses
  refine ⟨told, session, session.responses.imp fun _ _ answer => answer.responds, ?_⟩
  intro pieces cut
  obtain ⟨valid, decoded⟩ := frames_told framed
  rw [List.flatMap_def] at output
  have stream : pieces.flatten ++ owned.session.outbox.pending =
      (told.map Server.qmiServer.wire).flatten := by
    rw [cut]
    exact output
  refine ⟨?_, ?_⟩
  · obtain ⟨j, -, part, out, buffer, short⟩ := Qmi.delivered_part valid stream
    rw [← List.map_take] at out buffer
    rw [← List.map_drop, List.head?_map] at short
    refine ⟨j, part, ?_, ?_, ?_⟩
    · rw [out, (frames_told fun one mem => framed one (List.mem_of_mem_take mem)).2]
    · rw [List.flatMap_def, buffer, cut]
    · intro next first
      exact short _ (Option.mem_map_of_mem _ first)
  · intro nothing
    rw [nothing, List.append_nil] at stream
    rw [valid.delivered_eq stream, decoded]

/-- The request is answered, and the response is pending. -/
theorem qmi_served_lineAndRequest :
    ∃ d, ∃ owned : Owned .qmiServer,
      (Daemon.system sampleModem).exec (boot sampleDescriptors false) lineAndRequest = some d ∧
      d.HasSession owned ∧ ∃ told : List Told,
        SessionTold sampleModem sampleDescriptors false lineAndRequest owned told ∧
        List.Forall₂ Responds (Qmi.delivered (chunksOf owned.addr ((Daemon.system sampleModem).project
          (fun d step _ => chunksRead d step) (boot sampleDescriptors false) lineAndRequest)))
          (told.filter Told.isResponse) := by
  have ran : ∃ d, ∃ owned : Owned .qmiServer,
      (Daemon.system sampleModem).exec (boot sampleDescriptors false) lineAndRequest = some d ∧
      d.allocated < 2 ^ 64 ∧ d.session? .qmiServer 8 = some owned := ⟨_, _, rfl, by decide, rfl⟩
  obtain ⟨d, owned, run, bound, here⟩ := ran
  obtain ⟨told, session, responses, -⟩ := qmi_served sampleModem (by decide) sampleDescriptors false
    lineAndRequest d run bound owned (.inl ⟨8, here⟩)
  exact ⟨d, owned, run, .inl ⟨8, here⟩, told, session, responses⟩

end SharedModem

end MiniModem
