import MiniModem.Qmi.Transactions

/-!
# The client

`client/qmi-client.cpp`: one request, one `read`, and whatever message decodes from it is taken for the
response. A session also sends indications of its own accord, and the client decodes the first message
of the stream. So it pairs the answer with its request exactly in the runs in which no registration is
published between the accept and the callback that completes the request (`client_paired_iff`).
-/

namespace MiniModem.Qmi
open Lib Lib.Reader Transport Modem

namespace Client

/-- A request for the signal strength, with transaction 42. -/
def request : Message where
  header :=
    { version := 1
      flags := Flags.Request.code
      transactionId := 42
      serviceId := Service.Nas.code
      messageId := NasMessage.GetSignal.code }

/-- Its frame. -/
def packet : Bytes := encodeMessage request

/-- How the client ends: with a text on `cerr`, or with what it takes for the response. -/
inductive Result
  | failed (text : String)
  | success (response : Message)
  deriving DecidableEq

/-- `main`, given whether `socket` and `connect` succeed, what `write` returns, and what `read` returns;
the last two are missing when the call fails. -/
def main (socket connect : Bool) (written : Option ℕ) (received : Option Bytes) : Result :=
  if !socket then .failed "socket failed\n"
  else if !connect then .failed "connect failed\n"
  else if written ≠ some packet.length then .failed "write failed\n"
  else
    match received with
    | none => .failed "read failed\n"
    | some bytes =>
      if bytes.length = 0 then .failed "read failed\n"
      else
        match decodeMessage bytes {} with
        | (false, _) => .failed "decode failed\n"
        | (true, response) => .success response

/-- The client succeeds only with a response that it has decoded. -/
lemma main_success {socket connect : Bool} {written : Option ℕ} {received : Bytes}
    {response : Message} (success : main socket connect written (some received) = .success response) :
    decodeMessage received {} = (true, response) := by
  simp only [main] at success
  split at success
  · cases success
  · split at success
    · cases success
    · split at success
      · cases success
      · split at success
        · cases success
        · rcases d : decodeMessage received {} with ⟨_ | _, message⟩
          · rw [d] at success
            cases success
          · rw [d] at success
            cases success
            rfl

/-- The frame of the request is valid. -/
lemma packet_valid : ValidFrame packet request := by decide

end Client

section
variable {σ : Type*} {M : MiniModem.Modem σ}

/-- One session of the server and the client: the session reads what the client has written, in any
pieces, and the client has read some of what the session has written, at most the size of its buffer. -/
structure ClientRun (M : MiniModem.Modem σ) (fd : Fd) (steps : List (SessionStep σ)) (received : Bytes) :
    Prop where
  input : (steps.flatMap SessionStep.chunks).flatten <+: Client.packet
  output : received <+: ((connect fd).run M steps).written
  fits : received.length ≤ 4096

/-- Whenever a registration is published, the session has read the whole request. -/
def RequestFirst (steps : List (SessionStep σ)) : Prop :=
  ∀ before order event after, steps = before ++ .publish order event :: after →
    event.type = .NetworkRegistered →
      (before.flatMap SessionStep.chunks).flatten = Client.packet

/-- The parser delivers the request when the whole packet is there, and nothing before. -/
lemma delivered_packet {chunks : List Bytes} (input : chunks.flatten <+: Client.packet) :
    delivered chunks = if chunks.flatten = Client.packet then [Client.request] else [] := by
  obtain ⟨rest, split⟩ := input
  have valid : AllValid [Client.packet] := Client.packet_valid.allValid
  split
  · next whole =>
    rw [valid.delivered_eq (by simp [whole])]
    simp [Client.packet_valid.decoded_eq]
  · next part =>
    have quiet : ∀ frames bad t, FirstError ([] ++ chunks.flatten) frames bad t → ¬ FrameInside t := by
      intro frames bad t err
      refine absurd (⟨?_, err.valid, err.malformed⟩ : FirstError [Client.packet].flatten frames bad
        (t ++ rest)) valid.no_error
      have front := err.split
      rw [List.nil_append] at front
      rw [List.flatten_singleton, ← split, front]
      simp
    have stream : chunks.flatten ++ rest = Client.packet ++ [] := by rw [split, List.append_nil]
    rw [delivered, feed_eq_drain (.inl (by decide)) quiet, List.nil_append]
    rcases stream_head Client.packet_valid.1 stream with ⟨incomplete, -⟩ | ⟨more, e, nil⟩
    · rw [drain_none _ (reader_incomplete incomplete)]
    · rw [(List.append_eq_nil_iff.mp nil.symm).1, List.append_nil] at e
      exact absurd e part

/-- The history of a connection can be taken in two portions. -/
lemma history_append (steps more : List (SessionStep σ)) (c : Connection) :
    c.history M (steps ++ more) = c.history M steps ++ (c.run M steps).history M more := by
  induction steps generalizing c with
  | nil => rfl
  | cons step steps ih =>
    rw [List.cons_append, Connection.history, ih, Connection.history, List.append_assoc]
    rfl

/-- The first entry of a history is the first of some step, and there is none before that step. -/
lemma history_head {steps : List (SessionStep σ)} {c : Connection} {entry : Entry}
    (head : (c.history M steps).head? = some entry) :
    ∃ before step after, steps = before ++ step :: after ∧ c.history M before = [] ∧
      entry ∈ (c.run M before).entries step := by
  induction steps generalizing c with
  | nil => cases head
  | cons step steps ih =>
    rw [Connection.history] at head
    rcases e : c.entries step with _ | ⟨first, entries⟩
    · rw [e] at head
      obtain ⟨before, step', after, rfl, none, mem⟩ := ih head
      refine ⟨step :: before, step', after, rfl, ?_, mem⟩
      rw [Connection.history, e, none]
      rfl
    · rw [e] at head
      cases head
      refine ⟨[], step, steps, rfl, rfl, ?_⟩
      show entry ∈ c.entries step
      rw [e]
      exact .head _

/-- A part of the run in which the request is not complete has only indications. -/
lemma history_part (fd : Fd) {steps : List (SessionStep σ)}
    (input : (steps.flatMap SessionStep.chunks).flatten <+: Client.packet)
    (part : (steps.flatMap SessionStep.chunks).flatten ≠ Client.packet) :
    ∀ entry ∈ (connect fd).history M steps, entry = .indication := by
  have requests : ((connect fd).history M steps).filterMap Entry.request? =
      delivered (steps.flatMap SessionStep.chunks) :=
    history_requests steps (connect_subscribed fd)
  rw [delivered_packet input, if_neg part, List.filterMap_eq_nil_iff] at requests
  intro entry mem
  have none := requests entry mem
  cases entry with
  | answer request => cases none
  | indication => rfl

/-- Which entry is the first. -/
lemma head_indication_iff {fd : Fd} {steps : List (SessionStep σ)} {entry : Entry}
    (input : (steps.flatMap SessionStep.chunks).flatten <+: Client.packet)
    (head : ((connect fd).history M steps).head? = some entry) :
    entry ≠ .indication ↔ RequestFirst steps := by
  have part : ∀ {before step after}, steps = before ++ step :: after →
      (before.flatMap SessionStep.chunks).flatten <+: Client.packet := by
    intro before step after split
    refine List.IsPrefix.trans ?_ input
    rw [split, List.flatMap_append, List.flatten_append]
    exact List.prefix_append _ _
  refine ⟨?_, ?_⟩
  · intro answer before order event after split registered
    by_contra incomplete
    -- what comes before the registration has no other entries than indications
    have only := history_part (M := M) fd (part split) incomplete
    refine answer (?_ : entry = .indication)
    rw [split, history_append] at head
    rcases e : (connect fd).history M before with _ | ⟨first, entries⟩
    · rw [e] at head
      simp only [Connection.history, Connection.entries, registered, if_true] at head
      exact (Option.some.inj head).symm
    · rw [e] at head
      cases head
      exact only entry (by rw [e]; exact .head _)
  · rintro first rfl
    obtain ⟨before, step, after, split, none, mem⟩ := history_head head
    cases step with
    | readable modem events reads =>
      obtain ⟨request, -, e⟩ := List.mem_map.mp mem
      cases e
    | writable events writes => cases mem
    | publish order event =>
      simp only [Connection.entries] at mem
      split at mem
      · next registered =>
        -- the request would have been answered before
        have whole := first before order event after split registered
        have requests : ((connect fd).history M before).filterMap Entry.request? =
            delivered (before.flatMap SessionStep.chunks) :=
          history_requests before (connect_subscribed fd)
        rw [none, delivered_packet (part split), if_pos whole] at requests
        cases requests
      · cases mem

/-- What the client decodes is the first message of the run. -/
lemma decoded_first {fd : Fd} {steps : List (SessionStep σ)} {received : Bytes} {response : Message}
    (input : (steps.flatMap SessionStep.chunks).flatten <+: Client.packet)
    (output : received <+: ((connect fd).run M steps).written)
    (decodes : decodeMessage received {} = (true, response)) :
    ∃ entry message, ((connect fd).placed M steps).head? = some (entry, message) ∧
      response = message.filled := by
  obtain ⟨sized, rest, rfl⟩ := decodeMessage_iff.mp decodes
  obtain ⟨more, written⟩ := output
  have stream := placed_stream (M := M) steps (connect_subscribed fd)
  have start : (connect fd).stream = [] := rfl
  rw [start, List.nil_append, Connection.stream, ← written, List.append_assoc, List.append_assoc] at stream
  rcases e : (connect fd).placed M steps with _ | ⟨⟨entry, message⟩, items⟩
  · rw [e] at stream
    have length := congrArg List.length stream
    simp at length
  · refine ⟨entry, message, rfl, ?_⟩
    have mem : (entry, message) ∈ (connect fd).placed M steps := by rw [e]; exact .head _
    have fits : payloadSize message.tlvs ≤ 65535 := by
      rcases placed_cases steps mem with e | ⟨modem, request, e⟩
      · cases e
        decide
      · cases e
        have asked := (mem_placed_iff fd steps request).mp ⟨_, mem⟩
        rw [delivered_packet input] at asked
        split at asked
        · have size : payloadSize (dispatch M modem Client.request).tlvs = 5 := rfl
          rw [List.mem_singleton.mp asked, size]
          decide
        · cases asked
    rw [e, List.map_cons, List.flatten_cons, ← encodeMessage_filled message] at stream
    exact sized.encode_inj (Message.filled_wellSized fits) stream

/-- In a run in which the client reports success, the message it decoded is the response to its request
exactly if the session has read the whole request before any registration is published. -/
theorem client_paired_iff (M : MiniModem.Modem σ) (fd : Fd) (steps : List (SessionStep σ))
    (received : Bytes) (response : Message) (run : ClientRun M fd steps received)
    (success : Client.main true true (some Client.packet.length) (some received) = .success response) :
    (response.header.flags = Flags.Response.code ∧ response.header.transactionId = 42) ↔
      RequestFirst steps := by
  obtain ⟨entry, message, head, rfl⟩ :=
    decoded_first run.input run.output (Client.main_success success)
  have first : ((connect fd).history M steps).head? = some entry := by
    rw [← placed_history, List.head?_map, head]
    rfl
  rw [← head_indication_iff run.input first]
  have mem := List.mem_of_head? head
  rcases placed_cases steps mem with e | ⟨modem, request, e⟩
  · cases e
    simp [Message.filled, Session.indication, Flags.code]
  · cases e
    have asked := (mem_placed_iff fd steps request).mp ⟨_, mem⟩
    rw [delivered_packet run.input] at asked
    split at asked
    · rw [List.mem_singleton.mp asked]
      simp [Message.filled, dispatch_header, responseHeader, Client.request]
    · cases asked

end

/-- The request is read in two pieces, and a registration is published before the response is written. -/
def requestFirst : List (SessionStep Bool) :=
  [.readable false EPOLLIN [.bytes (Client.packet.take 3)],
    .readable false EPOLLIN [.bytes (Client.packet.drop 3)],
    .publish .entries { type := .NetworkRegistered }, .writable EPOLLOUT [.room 4096]]

/-- The client reports the response. -/
theorem client_paired_requestFirst :
    ∃ response,
      Client.main true true (some Client.packet.length)
          (some ((connect 5).run sampleModem requestFirst).written) = .success response ∧
        response.header.transactionId = 42 ∧ RequestFirst requestFirst := by
  have run : ClientRun sampleModem 5 requestFirst
      ((connect 5).run sampleModem requestFirst).written :=
    ⟨by decide, List.prefix_refl _, by decide⟩
  have success : Client.main true true (some Client.packet.length)
      (some ((connect 5).run sampleModem requestFirst).written) =
        .success (decoded ((connect 5).run sampleModem requestFirst).written) := by
    decide
  exact ⟨_, success, by decide,
    (client_paired_iff sampleModem 5 requestFirst _ _ run success).mp (by decide)⟩

/-- A registration is published between the accept and the request. -/
def registrationFirst : List (SessionStep Bool) :=
  [.publish .entries { type := .NetworkRegistered },
    .readable false EPOLLIN [.bytes Client.packet], .writable EPOLLOUT [.room 4096]]

/-- The client takes the indication for the response. -/
theorem client_unpaired :
    ∃ received response, ClientRun sampleModem 5 registrationFirst received ∧
      Client.main true true (some Client.packet.length) (some received) = .success response ∧
      ¬ (response.header.flags = Flags.Response.code ∧ response.header.transactionId = 42) :=
  ⟨((connect 5).run sampleModem registrationFirst).written,
    decoded ((connect 5).run sampleModem registrationFirst).written,
    ⟨by decide, List.prefix_refl _, by decide⟩, by decide, by decide⟩

end MiniModem.Qmi
