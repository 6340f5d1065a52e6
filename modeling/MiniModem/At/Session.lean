import MiniModem.Modem.Modem
import MiniModem.Modem.Session
import MiniModem.Transport.LineReader

/-!
# AT sessions

`src/at/session.cpp`. What a session does with a line reaches beyond the session: the modem changes
state, may publish events to all sessions, and the answer is queued. So `onReadable` is generic in the
world it acts on and in what a line does to it; the line reader, which no handler touches, is passed
along. It comes to feeding the chunks to the reader and handling the lines in order (`foldl_readChunk`).
-/

namespace MiniModem.At
open Lib Transport Modem

/-- A session reads lines. -/
abbrev Session := Modem.Session LineReader

namespace Session

/-- A response is queued as it is. -/
def queueText (text : Bytes) (session : Session) : Session := session.queue text

/-- `\r\n+COPS: 1,2,"` -/
def copsPrefix : Bytes := [13, 10, 43, 67, 79, 80, 83, 58, 32, 49, 44, 50, 44, 34]

/-- `"\r\n` -/
def copsSuffix : Bytes := [34, 13, 10]

/-- Only a registration is reported. -/
def onEvent (event : ModemEvent) (session : Session) : Session :=
  if event.type ≠ .NetworkRegistered then session
  else session.queueText (copsPrefix ++ event.operatorCode ++ copsSuffix)

end Session

variable {World : Type*}

/-- The body of the loop: push the bytes, then handle every complete line. -/
def readChunk (handle : Bytes → World → World) (data : Bytes) :
    LineReader × World → LineReader × World
  | (reader, world) =>
    let (lines, reader) := (reader.push data).drain
    (reader, lines.foldl (fun world line => handle line world) world)

/-- Whether the session stays alive, its reader, and the world; `handle` is what a line does. -/
def onReadable (handle : Bytes → World → World) (events : Events) (reads : List ReadResult)
    (reader : LineReader) (world : World) : Bool × LineReader × World :=
  Modem.onReadable (readChunk handle) events reads (reader, world)

/-- The lines of all chunks are handled in order. -/
lemma foldl_readChunk (handle : Bytes → World → World) (chunks : List Bytes) (reader : LineReader)
    (world : World) :
    chunks.foldl (fun state data => readChunk handle data state) (reader, world) =
      (⟨(lineReader.feed reader.buffer chunks).2⟩,
        (lineReader.feed reader.buffer chunks).1.foldl (fun world line => handle line world)
          world) := by
  induction chunks generalizing reader world with
  | nil => rfl
  | cons chunk chunks ih =>
    rw [List.foldl_cons, Reader.feed_cons]
    simp only [List.foldl_append]
    exact ih _ _

/-- The lines that a session hands on in one call of `onReadable`. -/
def linesRead (events : Events) (reads : List ReadResult) (reader : LineReader) : List Bytes :=
  if has events (EPOLLHUP ||| EPOLLERR) then []
  else if !has events EPOLLIN then []
  else (lineReader.feed reader.buffer (received reads)).1

/-- What a call of `onReadable` leaves in the line reader. -/
def readerAfter (events : Events) (reads : List ReadResult) (reader : LineReader) : LineReader :=
  if has events (EPOLLHUP ||| EPOLLERR) then reader
  else if !has events EPOLLIN then reader
  else ⟨(lineReader.feed reader.buffer (received reads)).2⟩

/-- What is left in the reader does not depend on what the lines do. -/
lemma onReadable_reader (handle : Bytes → World → World) (events : Events) (reads : List ReadResult)
    (reader : LineReader) (world : World) :
    (onReadable handle events reads reader world).2.1 = readerAfter events reads reader := by
  rw [onReadable, Modem.onReadable, readerAfter]
  split
  · rfl
  · split
    · rfl
    · rw [readLoop_eq, foldl_readChunk]

/-- The world sees the lines, one after the other. -/
lemma onReadable_world (handle : Bytes → World → World) (events : Events) (reads : List ReadResult)
    (reader : LineReader) (world : World) :
    (onReadable handle events reads reader world).2.2 =
      (linesRead events reads reader).foldl (fun world line => handle line world) world := by
  rw [onReadable, Modem.onReadable, linesRead]
  split
  · rfl
  · split
    · rfl
    · rw [readLoop_eq, foldl_readChunk]

end MiniModem.At
