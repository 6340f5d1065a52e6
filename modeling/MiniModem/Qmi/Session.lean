import MiniModem.Modem.Session
import MiniModem.Qmi.Dispatcher
import MiniModem.Qmi.FrameParser

/-!
# QMI sessions

`src/qmi/session.cpp`. Every message that the parser delivers is dispatched and its response queued;
an event of the modem queues an indication. A call of `onReadable` feeds the chunks to the parser and
answers the requests in order (`foldl_readChunk`).
-/

namespace MiniModem.Qmi
open Lib Transport Modem

/-- A session reads frames. -/
abbrev Session := Modem.Session FrameParser

namespace Session

/-- A message is queued as its frame. -/
def queueMessage (message : Message) (session : Session) : Session :=
  session.queue (encodeMessage message)

/-- The message that reports the registration; it belongs to no request, so its transaction is 0. -/
def indication : Message :=
  { header :=
      { version := 1
        flags := Flags.Indication.code
        transactionId := 0
        serviceId := Service.Nas.code
        messageId := NasMessage.GetRegistration.code }
    tlvs := [{ type := NasTlv.Registration.code, value := [1] }] }

/-- Only a registration is reported, by an indication. -/
def onEvent (event : ModemEvent) (session : Session) : Session :=
  if event.type ≠ .NetworkRegistered then session else session.queueMessage indication

section
variable {σ : Type*} (M : MiniModem.Modem σ) (modem : σ)

/-- The body of the loop: push the bytes, then answer every message there is. -/
def readChunk (data : Bytes) (session : Session) : Session :=
  let (requests, parser) := (session.input.push data).drain
  requests.foldl (fun session request => session.queueMessage (dispatch M modem request))
    { session with input := parser }

/-- Whether the session stays alive, and the session. -/
def onReadable (events : Events) (reads : List ReadResult) (session : Session) : Bool × Session :=
  Modem.onReadable (readChunk M modem) events reads session

/-- The frames of the responses to some requests. -/
def answers (requests : List Message) : List Bytes :=
  requests.map fun request => encodeMessage (dispatch M modem request)

/-- The responses are queued in the order of the requests. -/
lemma foldl_queueMessage (requests : List Message) (session : Session) :
    requests.foldl (fun session request => session.queueMessage (dispatch M modem request)) session =
      { session with outbox := session.outbox.pushAll (answers M modem requests) } := by
  induction requests generalizing session with
  | nil => rfl
  | cons request requests ih => exact ih _

/-- The messages of all chunks are answered in order. -/
lemma foldl_readChunk (chunks : List Bytes) (session : Session) :
    chunks.foldl (fun session data => readChunk M modem data session) session =
      { session with
        input := ⟨(frameReader.feed session.input.buffer chunks).2⟩
        outbox := session.outbox.pushAll
          (answers M modem (frameReader.feed session.input.buffer chunks).1) } := by
  induction chunks generalizing session with
  | nil => rfl
  | cons chunk chunks ih =>
    have first : readChunk M modem chunk session =
        { session with
          input := ⟨(frameReader.drain (session.input.buffer ++ chunk)).2⟩
          outbox := session.outbox.pushAll
            (answers M modem (frameReader.drain (session.input.buffer ++ chunk)).1) } :=
      foldl_queueMessage M modem _ _
    rw [List.foldl_cons, ih, first, Reader.feed_cons]
    simp only [answers, List.map_append, Outbox.pushAll_append]

/-- The requests that a session takes in one call of `onReadable`. -/
def requestsRead (events : Events) (reads : List ReadResult) (session : Session) : List Message :=
  if has events (EPOLLHUP ||| EPOLLERR) then []
  else if !has events EPOLLIN then []
  else (frameReader.feed session.input.buffer (received reads)).1

/-- What a call of `onReadable` leaves in the parser. -/
def parserAfter (events : Events) (reads : List ReadResult) (session : Session) : FrameParser :=
  if has events (EPOLLHUP ||| EPOLLERR) then session.input
  else if !has events EPOLLIN then session.input
  else ⟨(frameReader.feed session.input.buffer (received reads)).2⟩

/-- Whether the session stays alive depends on the events and on what `read` reports. -/
lemma onReadable_alive (events : Events) (reads : List ReadResult) (session : Session) :
    (onReadable M modem events reads session).1 =
      if has events (EPOLLHUP ||| EPOLLERR) then false
      else if !has events EPOLLIN then true
      else drained reads := by
  rw [onReadable, Modem.onReadable]
  split
  · rfl
  · split
    · rfl
    · rw [readLoop_eq]

/-- What a call of `onReadable` makes of the session. -/
lemma onReadable_session (events : Events) (reads : List ReadResult) (session : Session) :
    (onReadable M modem events reads session).2 =
      { session with
        input := parserAfter events reads session
        outbox := session.outbox.pushAll (answers M modem (requestsRead events reads session)) } := by
  rw [onReadable, Modem.onReadable, requestsRead, parserAfter]
  split
  · rfl
  · split
    · rfl
    · rw [readLoop_eq, foldl_readChunk]

end

end Session

end MiniModem.Qmi
