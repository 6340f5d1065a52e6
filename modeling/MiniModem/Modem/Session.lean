import MiniModem.Modem.EventBus
import MiniModem.Transport.Outbox

/-!
# Sessions

What `at::Session` and `qmi::Session` have in common: a descriptor, a reader or parser of the input, an
outbox and a subscription to the events of the modem. `onWritable` is the same in both; `onReadable` has
the same loop around `read` in both, with a body of its own for the bytes that were read. The loop is a
fold over the chunks that arrive before its end (`readLoop_eq`).
-/

namespace MiniModem.Modem
open Lib Transport

/-- `reader_` or `parser_` is the input, `tty_` or `socket_` the terminal. -/
structure Session (Input : Type*) where
  tty : Tty
  input : Input
  outbox : Outbox := {}
  subscription : Subscription

namespace Session
variable {Input : Type*}

/-- The constructor subscribes the session's handler. -/
def create {Handler : Type*} (tty : Tty) (input : Input) (eventBus : BusPtr) (handler : Handler)
    (bus : EventBus Handler) : Session Input × EventBus Handler :=
  let (subscription, bus) := bus.subscribe eventBus handler
  ({ tty, input, subscription }, bus)

/-- The descriptor of the terminal or the socket. -/
def fd (session : Session Input) : Fd := session.tty.fd

/-- Whether there is something left to send. -/
def hasPendingOutput (session : Session Input) : Bool := !session.outbox.empty

/-- `outbox_.push(data)`, the end of `queueText` and of `queueMessage`. -/
def queue (data : Bytes) (session : Session Input) : Session Input :=
  { session with outbox := session.outbox.push data }

/-- Whether the session stays alive, the session afterwards, and the bytes written. -/
def onWritable (events : Events) (writes : List WriteResult) (session : Session Input) :
    Bool × Session Input × Bytes :=
  if has events (EPOLLHUP ||| EPOLLERR) then (false, session, [])
  else if !has events EPOLLOUT then (true, session, [])
  else
    let (outbox, sent, ok) := session.outbox.flush writes
    (ok, { session with outbox }, sent)

end Session

section Reading
variable {World : Type*}

/-- The loop around `read`; `body` is what is done with the bytes of one call. -/
def readLoop (body : Bytes → World → World) : List ReadResult → World → Bool × World
  | [], world => (true, world)
  | .bytes data :: reads, world =>
    if data.length > 0 then readLoop body reads (body data world) else (false, world)
  | .eintr :: reads, world => readLoop body reads world
  | .eagain :: _, world => (true, world)
  | .error :: _, world => (false, world)

/-- `onReadable`, up to the body of its loop. -/
def onReadable (body : Bytes → World → World) (events : Events) (reads : List ReadResult)
    (world : World) : Bool × World :=
  if has events (EPOLLHUP ||| EPOLLERR) then (false, world)
  else if !has events EPOLLIN then (true, world)
  else readLoop body reads world

/-- The chunks that the loop reads, up to the end of the file, an error, or the lack of data. -/
def received : List ReadResult → List Bytes
  | [] => []
  | .bytes data :: reads => if data.length > 0 then data :: received reads else []
  | .eintr :: reads => received reads
  | .eagain :: _ => []
  | .error :: _ => []

/-- The loop ends for lack of data, not at the end of the file or with an error. -/
def drained : List ReadResult → Bool
  | [] => true
  | .bytes data :: reads => data.length > 0 && drained reads
  | .eintr :: reads => drained reads
  | .eagain :: _ => true
  | .error :: _ => false

/-- A write moves bytes from the outbox to the descriptor. -/
lemma Session.onWritable_pending {Input : Type*} (events : Events) (writes : List WriteResult)
    (session : Session Input) :
    (session.onWritable events writes).2.2 ++ (session.onWritable events writes).2.1.outbox.pending =
      session.outbox.pending := by
  rw [onWritable]
  split
  · rfl
  · split
    · rfl
    · exact session.outbox.flush_pending writes

/-- The loop is a fold over the chunks that it reads. -/
lemma readLoop_eq (body : Bytes → World → World) (reads : List ReadResult) (world : World) :
    readLoop body reads world =
      (drained reads, (received reads).foldl (fun world data => body data world) world) := by
  induction reads generalizing world with
  | nil => rfl
  | cons read reads ih =>
    cases read with
    | bytes data =>
      rw [readLoop, received, drained]
      by_cases some : data.length > 0
      · simp only [some, if_true, decide_true, Bool.true_and, List.foldl_cons]
        exact ih (body data world)
      · simp only [some, if_false, decide_false, Bool.false_and, List.foldl_nil]
    | eintr => exact ih world
    | eagain => rfl
    | error => rfl

end Reading

end MiniModem.Modem
