import MiniModem.SharedModem.Refinement

/-!
# Recorded calls

The loops of `onReadable` again, with a record of what they pass to `Modem::handleAt` and to
`Dispatcher::dispatch`. The record changes nothing in what a session does (`serveRecorded_eq`), and in a step
it is what the session that is served is asked (`calls_served`).
-/

namespace MiniModem
open Lib Transport Modem

/-- The inputs of a fold, recorded on the way. -/
lemma Lib.foldl_recorded {α β : Type*} (f : β → α → β) (xs : List α) (b : β) (calls : List α) :
    xs.foldl (fun state x => (f state.1 x, state.2 ++ [x])) (b, calls) = (xs.foldl f b, calls ++ xs) := by
  induction xs generalizing b calls with
  | nil => rw [List.foldl_nil, List.foldl_nil, List.append_nil]
  | cons x xs ih => rw [List.foldl_cons, List.foldl_cons, ih, List.append_assoc, List.singleton_append]

namespace Qmi.Session
variable {σ : Type*} (M : MiniModem.Modem σ) (modem : σ)

/-- The body of the loop, with a record of the messages passed to `dispatch`. -/
def readChunkRecorded (data : Bytes) : Session × List Message → Session × List Message
  | (session, calls) =>
    let (requests, parser) := (session.input.push data).drain
    requests.foldl
      (fun state request => (state.1.queueMessage (dispatch M modem request), state.2 ++ [request]))
      ({ session with input := parser }, calls)

/-- The messages of all chunks are recorded. -/
lemma foldl_readChunkRecorded (chunks : List Bytes) (session : Session) (calls : List Message) :
    chunks.foldl (fun state data => readChunkRecorded M modem data state) (session, calls) =
      (chunks.foldl (fun session data => readChunk M modem data session) session,
        calls ++ (frameReader.feed session.input.buffer chunks).1) := by
  induction chunks generalizing session calls with
  | nil => rw [List.foldl_nil, List.foldl_nil, Reader.feed_nil, List.append_nil]
  | cons chunk chunks ih =>
    have first : readChunkRecorded M modem chunk (session, calls) =
        (readChunk M modem chunk session,
          calls ++ (frameReader.drain (session.input.buffer ++ chunk)).1) :=
      foldl_recorded (fun session request => queueMessage (dispatch M modem request) session) _ _ calls
    have parser : (readChunk M modem chunk session).input.buffer =
        (frameReader.drain (session.input.buffer ++ chunk)).2 :=
      congrArg (fun session : Session => session.input.buffer) (foldl_queueMessage M modem _ _)
    rw [List.foldl_cons, List.foldl_cons, first, ih, parser, Reader.feed_cons, List.append_assoc]

/-- A call of `onReadable` passes on the requests that it takes. -/
lemma onReadable_recorded (events : Events) (reads : List ReadResult) (session : Session) :
    Modem.onReadable (readChunkRecorded M modem) events reads (session, []) =
      ((onReadable M modem events reads session).1, (onReadable M modem events reads session).2,
        requestsRead events reads session) := by
  simp only [onReadable, Modem.onReadable, requestsRead]
  split
  · rfl
  · split
    · rfl
    · rw [readLoop_eq, readLoop_eq, foldl_readChunkRecorded, List.nil_append]

end Qmi.Session

/-- A call of `onReadable` passes on the lines that it reads. -/
lemma At.onReadable_recorded {World : Type*} (handle : Bytes → World → World) (events : Events)
    (reads : List ReadResult) (reader : LineReader) (world : World) :
    At.onReadable (fun line (state : World × List Bytes) => (handle line state.1, state.2 ++ [line])) events
        reads reader (world, []) =
      ((At.onReadable handle events reads reader world).1,
        (At.onReadable handle events reads reader world).2.1,
        (At.onReadable handle events reads reader world).2.2, At.linesRead events reads reader) := by
  simp only [At.onReadable, Modem.onReadable, At.linesRead]
  split
  · rfl
  · split
    · rfl
    · have recorded := foldl_recorded (fun world line => handle line world)
        (lineReader.feed reader.buffer (received reads)).1 world []
      rw [List.nil_append] at recorded
      rw [readLoop_eq, readLoop_eq, At.foldl_readChunk, At.foldl_readChunk, recorded]

namespace SharedModem
open Daemon

section
variable {σ : Type*} (M : MiniModem.Modem σ)

/-- The input of a session, with a record of the calls of `handleAt` and `dispatch`. -/
def onReadableRecorded (server : Server) (fd : Fd) (events : Events) (env : Environment)
    (owned : Owned server) (d : Daemon σ) : (Bool × Daemon σ) × List Action :=
  match server, owned with
  | .atServer, owned =>
    let (alive, reader, d, lines) :=
      At.onReadable
        (fun line (state : Daemon σ × List Bytes) =>
          (state.1.handleLine M env.order fd line, state.2 ++ [line]))
        events env.reads owned.session.input (d, [])
    ((alive, d.modifySession .atServer fd fun owned =>
      { owned with session := { owned.session with input := reader } }), lines.map (.line owned.addr))
  | .qmiServer, owned =>
    let (alive, session, requests) :=
      Modem.onReadable (Qmi.Session.readChunkRecorded M d.modem) events env.reads (owned.session, [])
    ((alive, d.modifySession .qmiServer fd fun _ => { owned with session }),
      requests.map (.request owned.addr))

/-- The output and the input of a session, with this record. -/
def serveRecorded (server : Server) (fd : Fd) (events : Events) (env : Environment) (owned : Owned server)
    (d : Daemon σ) : (Bool × Daemon σ) × List Action :=
  let (alive, owned) := owned.onWritable events env.writes
  let d := d.modifySession server fd fun _ => owned
  if alive && has events EPOLLIN then onReadableRecorded M server fd events env owned d else ((alive, d), [])

/-- The calls of `handleAt` and `dispatch` in a step, with what they are passed and the address of the session
that makes them. -/
def calls (d : Daemon σ) : Step → List Action
  | .createPty _ _ => []
  | .deliver fd events env =>
    match d.loop.callbacks.lookup fd with
    | some (.session server fd) =>
      match d.session? server fd with
      | none => []
      | some owned => (serveRecorded M server fd events env owned d).2
    | _ => []
  | .publish _ _ => []

end

variable {σ : Type*} {M : MiniModem.Modem σ}

/-- A session with a record does what it does without one, and the record is what it is asked. -/
lemma serveRecorded_eq (server : Server) (fd : Fd) (events : Events) (env : Environment) (owned : Owned server)
    (d : Daemon σ) :
    serveRecorded M server fd events env owned d =
      (d.serve M server fd events env owned, asked server events env owned) := by
  have addr : (owned.onWritable events env.writes).2.addr = owned.addr :=
    congrArg Prod.fst (onWritable_identity events env.writes owned)
  have input := onWritable_input events env.writes owned
  rw [serve_eq]
  by_cases reads : ((owned.onWritable events env.writes).1 && has events EPOLLIN) = true
  · have alive := (Bool.and_eq_true _ _ ▸ reads).1
    simp only [serveRecorded, reads, if_true]
    cases server with
    | atServer =>
      rw [onReadableRecorded, At.onReadable_recorded, asked, linesServed, if_pos alive, input, addr]
      simp only [Daemon.onReadable, input]
    | qmiServer =>
      rw [onReadableRecorded, Qmi.Session.onReadable_recorded, onReadable_qmi, asked, requestsTaken,
        if_pos alive, addr]
      simp only [Qmi.Session.requestsRead, input]
  · rw [if_neg reads, asked_eq_nil reads]
    simp only [serveRecorded, if_neg reads]

/-- The calls in the callback of a session. -/
lemma calls_served {d : Daemon σ} {server : Server} {fd fd' : Fd} {owned : Owned server}
    (callback : d.loop.callbacks.lookup fd = some (.session server fd'))
    (here : d.session? server fd' = some owned) (events : Events) (env : Environment) :
    calls M d (.deliver fd events env) = asked server events env owned := by
  simp only [calls, callback, here, serveRecorded_eq]

end SharedModem

end MiniModem
