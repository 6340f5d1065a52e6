import MiniModem.Daemon.Connections
import MiniModem.Qmi.Client

/-!
# What the client prints

`client/qmi-client.cpp` against the daemon, whatever the other clients do. The session of the client is a
single session, and the client decodes what this session has sent first. So it prints the signal strength
exactly if its only read gets the whole first frame and no registration has been published before the session
has read the whole request (`client_prints`).
-/

namespace MiniModem

namespace Qmi
open Lib Transport Modem

namespace Client

/-- The exit code, the lines on `cout`, each a text and a number, and the text on `cerr`. -/
structure Ending where
  code : ℕ
  out : List (String × ℕ)
  err : String
  deriving DecidableEq

/-- The type of a TLV, and the fields of its value. -/
def printTlv (tlv : Tlv) : List (String × ℕ) :=
  ("TLV type = ", tlv.type.toNat) ::
    if tlv.type = NasTlv.SignalStrength.code then
      match tlv.value with
      | [] => []
      | byte :: _ => [("signal = ", byte.toNat)]
    else []

/-- What is printed of a response. -/
def print (response : Message) : List (String × ℕ) :=
  ("transaction = ", response.header.transactionId.toNat) :: response.tlvs.flatMap printTlv

/-- A failure exits with 1 and says why, a success exits with 0. -/
def Result.ending : Result → Ending
  | failed text => ⟨1, [], text⟩
  | success response => ⟨0, print response, ""⟩

/-- How the client ends when it has read something of a stream that begins with the frame of a message. -/
lemma main_stream {message : Message} (fits : payloadSize message.tlvs ≤ 65535) {received more tail : Bytes}
    (some : received ≠ []) (stream : received ++ more = encodeMessage message ++ tail) :
    (main true true (.some packet.length) (.some received)).ending =
      if received.length < (encodeMessage message).length then ⟨1, [], "decode failed\n"⟩
      else ⟨0, print message, ""⟩ := by
  have sized := Message.filled_wellSized fits
  have read : received.length ≠ 0 := by simpa using some
  split
  · next part =>
    rcases decodes : decodeMessage received {} with ⟨_ | _, other⟩
    · simp [main, decodes, some, Result.ending]
    · -- it would be the message of the frame
      obtain ⟨sized', rest, split⟩ := decodeMessage_iff.mp decodes
      rw [split, List.append_assoc, ← encodeMessage_filled message] at stream
      have same := sized'.encode_inj sized stream
      rw [split, same, encodeMessage_filled, List.length_append] at part
      omega
  · next whole =>
    obtain ⟨rest, rfl⟩ : encodeMessage message <+: received :=
      List.prefix_of_prefix_length_le (stream ▸ List.prefix_append _ tail) (List.prefix_append received more)
        (Nat.le_of_not_lt whole)
    have decodes : decodeMessage (encodeMessage message ++ rest) {} = (true, message.filled) :=
      decodeMessage_iff.mpr ⟨sized, rest, by rw [encodeMessage_filled]⟩
    simp only [main, decodes, read, Bool.not_true, Bool.false_eq_true, ne_eq, not_true_eq_false, if_false]
    rfl

end Client

section
variable {σ : Type*} {M : MiniModem.Modem σ}

/-- A message is the indication, or the response to a request from the state of the modem at a callback. -/
lemma placed_readable (steps : List (SessionStep σ)) {c : Connection} {item : Entry × Message}
    (mem : item ∈ c.placed M steps) :
    item = (.indication, Session.indication) ∨ ∃ modem events reads request,
      .readable modem events reads ∈ steps ∧ item = (.answer request, dispatch M modem request) := by
  induction steps generalizing c with
  | nil => cases mem
  | cons step steps ih =>
    rw [Connection.placed, List.mem_append] at mem
    rcases mem with mem | mem
    · cases step with
      | readable modem events reads =>
        obtain ⟨request, -, rfl⟩ := List.mem_map.mp mem
        exact .inr ⟨modem, events, reads, request, List.mem_cons_self, rfl⟩
      | writable events writes => cases mem
      | publish order event =>
        simp only [Connection.placedBy] at mem
        split at mem
        · exact .inl (List.mem_singleton.mp mem)
        · cases mem
    · rcases ih mem with indication | ⟨modem, events, reads, request, there, e⟩
      · exact .inl indication
      · exact .inr ⟨modem, events, reads, request, List.mem_cons_of_mem _ there, e⟩

/-- What the session of the client says: indications, and the response to its request. -/
lemma placed_client {fd : Fd} {steps : List (SessionStep σ)}
    (input : (steps.flatMap SessionStep.chunks).flatten <+: Client.packet) {entry : Entry} {message : Message}
    (mem : (entry, message) ∈ (connect fd).placed M steps) :
    (entry = .indication ∧ message = Session.indication) ∨
      entry ≠ .indication ∧ ∃ modem events reads, .readable modem events reads ∈ steps ∧
        message = dispatch M modem Client.request := by
  rcases placed_readable steps mem with e | ⟨modem, events, reads, request, there, e⟩
  · cases e
    exact .inl ⟨rfl, rfl⟩
  · cases e
    have asked := (mem_placed_iff fd steps request).mp ⟨_, mem⟩
    rw [delivered_packet input] at asked
    split at asked
    · obtain rfl := List.mem_singleton.mp asked
      exact .inr ⟨by simp, modem, events, reads, there, rfl⟩
    · cases asked

/-- How the client ends that has read some of what its session has written. -/
lemma client_ends {fd : Fd} {steps : List (SessionStep σ)}
    (input : (steps.flatMap SessionStep.chunks).flatten <+: Client.packet) {received : Bytes}
    (output : received <+: ((connect fd).run M steps).written) (some : received ≠ []) :
    ∃ (entry : Entry) (message : Message),
      (Client.main true true (.some Client.packet.length) (.some received)).ending =
          (if received.length < 15 then ⟨1, [], "decode failed\n"⟩ else ⟨0, Client.print message, ""⟩) ∧
        (entry ≠ .indication ↔ RequestFirst steps) ∧
        ((entry = .indication ∧ message = Session.indication) ∨
          entry ≠ .indication ∧ ∃ modem events reads, .readable modem events reads ∈ steps ∧
            message = dispatch M modem Client.request) := by
  have stream := placed_stream (M := M) steps (connect_subscribed fd)
  have start : (connect fd).stream = [] := rfl
  obtain ⟨more, written⟩ := output
  rw [start, List.nil_append, Connection.stream, ← written, List.append_assoc] at stream
  rcases e : (connect fd).placed M steps with _ | ⟨⟨entry, message⟩, items⟩
  · rw [e] at stream
    exact absurd (List.append_eq_nil_iff.mp stream).1 some
  · have mem : (entry, message) ∈ (connect fd).placed M steps := by
      rw [e]
      exact .head _
    have head : ((connect fd).history M steps).head? = .some entry := by
      rw [← placed_history, e]
      rfl
    have either := placed_client input mem
    have size : payloadSize message.tlvs = 5 := by
      rcases either with ⟨-, rfl⟩ | ⟨-, modem, events, reads, -, rfl⟩
      · rfl
      · rfl
    rw [e, List.map_cons, List.flatten_cons] at stream
    have fits : payloadSize message.tlvs ≤ 65535 := by omega
    have ends := Client.main_stream fits some stream
    rw [encodeMessage_length, size] at ends
    exact ⟨entry, message, ends, head_indication_iff input head, either⟩

end

end Qmi

namespace Daemon
open Lib Transport Modem

/-- How the client ends that has read `received` from the session of the daemon to which it has sent its
request: with an error if it has read nothing, or less than the first frame, which has 15 bytes; else with the
signal strength of the modem at one of the callbacks of the session, if the session has read the whole request
before any registration was published to it, and with the indication if not. -/
theorem client_prints {σ : Type*} (M : MiniModem.Modem σ) (fds : Descriptors) (modem : σ) (steps : List Step)
    (d : Daemon σ) (run : (system M).exec (boot fds modem) steps = some d) (bound : d.allocated < 2 ^ 64)
    (owned : Owned .qmiServer) (has : d.HasSession owned)
    (input : ((happened M fds modem steps owned.addr).flatMap Qmi.SessionStep.chunks).flatten <+:
      Qmi.Client.packet)
    (received : Bytes) (output : received <+: owned.sent) :
    let happened := happened M fds modem steps owned.addr
    let ending := (Qmi.Client.main true true (some Qmi.Client.packet.length) (some received)).ending
    (received = [] → ending = ⟨1, [], "read failed\n"⟩) ∧
      (received ≠ [] → received.length < 15 → ending = ⟨1, [], "decode failed\n"⟩) ∧
      (15 ≤ received.length → Qmi.RequestFirst happened →
        ∃ modem events reads, .readable modem events reads ∈ happened ∧
          ending = ⟨0, [("transaction = ", 42), ("TLV type = ", 1),
            ("signal = ", (UInt8.ofInt (M.signalStrength modem)).toNat)], ""⟩) ∧
      (15 ≤ received.length → ¬ Qmi.RequestFirst happened →
        ending = ⟨0, [("transaction = ", 0), ("TLV type = ", 2)], ""⟩) := by
  intro happened ending
  have written := ((exec_follows run bound 0 owned.addr).sessions owned has rfl).written
  have first := fun some : received ≠ [] => Qmi.client_ends (M := M) input (written ▸ output) some
  have nonempty : 15 ≤ received.length → received ≠ [] := by
    rintro long rfl
    exact absurd long (by decide)
  refine ⟨?_, ?_, ?_, ?_⟩
  · intro none
    subst none
    rfl
  · intro some part
    obtain ⟨entry, message, ends, -⟩ := first some
    rw [if_pos part] at ends
    exact ends
  · intro whole before
    obtain ⟨entry, message, ends, answer, ⟨indication, -⟩ | ⟨-, modem, events, reads, there, rfl⟩⟩ :=
      first (nonempty whole)
    · exact absurd indication (answer.mpr before)
    · rw [if_neg (Nat.not_lt.mpr whole)] at ends
      exact ⟨modem, events, reads, there, ends⟩
  · intro whole late
    obtain ⟨entry, message, ends, answer, ⟨-, rfl⟩ | ⟨other, -⟩⟩ := first (nonempty whole)
    · rw [if_neg (Nat.not_lt.mpr whole)] at ends
      exact ends
    · exact absurd (answer.mp other) late

/-- It prints the signal strength. -/
theorem client_prints_run :
    ∃ d, ∃ owned : Owned .qmiServer,
      (system sampleModem).exec (boot sampleDescriptors false) clientRun = some d ∧ d.HasSession owned ∧
        (Qmi.Client.main true true (some Qmi.Client.packet.length) (some owned.sent)).ending =
          ⟨0, [("transaction = ", 42), ("TLV type = ", 1), ("signal = ", 75)], ""⟩ ∧
        Qmi.RequestFirst (happened sampleModem sampleDescriptors false clientRun owned.addr) := by
  have ran : ∃ d, ∃ owned : Owned .qmiServer,
      (system sampleModem).exec (boot sampleDescriptors false) clientRun = some d ∧ d.allocated < 2 ^ 64 ∧
        d.session? .qmiServer 8 = some owned ∧
        ((happened sampleModem sampleDescriptors false clientRun owned.addr).flatMap
          Qmi.SessionStep.chunks).flatten = Qmi.Client.packet ∧
        owned.sent.length = 30 ∧
        (Qmi.Client.main true true (some Qmi.Client.packet.length) (some owned.sent)).ending =
          ⟨0, [("transaction = ", 42), ("TLV type = ", 1), ("signal = ", 75)], ""⟩ :=
    ⟨_, _, rfl, by decide, rfl, rfl, rfl, rfl⟩
  obtain ⟨d, owned, run, bound, here, input, length, ends⟩ := ran
  obtain ⟨-, -, -, indication⟩ := client_prints sampleModem sampleDescriptors false clientRun d run bound owned
    (.inl ⟨8, here⟩) ⟨[], by rw [List.append_nil, input]⟩ owned.sent (List.prefix_refl _)
  refine ⟨d, owned, run, .inl ⟨8, here⟩, ends, ?_⟩
  by_contra late
  rw [indication (by omega) late] at ends
  simp at ends

end Daemon

end MiniModem
