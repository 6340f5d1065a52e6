import MiniModem.At.Fragmentation
import MiniModem.Daemon.HangUp
import MiniModem.Qmi.Fragmentation
import MiniModem.Transport.LineRuns

/-!
# Commands and hang-ups

A command is executed in the callback that reads its last byte, so nothing complete is left in a reader
or parser between two callbacks (`reachable_drained`). A callback with a hang-up reads nothing: what the
peer has written and nobody has read is not executed, and goes with the session (`hangUp_reads_nothing`).
-/

namespace MiniModem
open Lib Transport

/-- The same modem, with a record of the lines it has been passed. -/
def Modem.recording {σ : Type*} (M : Modem σ) : Modem (σ × List Bytes) where
  isRegistered state := M.isRegistered state.1
  signalStrength state := M.signalStrength state.1
  operatorCode state := M.operatorCode state.1
  handleAt state line :=
    let (modem, response, events) := M.handleAt state.1 line
    ((modem, state.2 ++ [line]), response, events)
  networkSearchComplete state :=
    let (modem, completed, events) := M.networkSearchComplete state.1
    ((modem, state.2), completed, events)

/-- The record has the lines in the order in which they were passed. -/
lemma recording_lines {σ : Type*} (M : Modem σ) (lines : List Bytes) (state : σ × List Bytes) :
    (lines.foldl (fun state line => (M.recording.handleAt state line).1) state).2 =
      state.2 ++ lines := by
  induction lines generalizing state with
  | nil => simp
  | cons line lines ih =>
    rw [List.foldl_cons, ih]
    simp [Modem.recording]

end MiniModem

namespace MiniModem.Daemon
open Lib Lib.Reader Transport Modem

/-- There is no complete line, or no complete frame. -/
def Server.Drained : (server : Server) → server.Input → Prop
  | .atServer, reader => Clean (reader : LineReader).buffer
  | .qmiServer, parser => Qmi.Incomplete (parser : Qmi.FrameParser).buffer

variable {σ : Type*} {M : MiniModem.Modem σ}

/-- No terminator is left when all lines have been taken out. -/
lemma drain_clean (b : Bytes) : Clean (lineReader.drain b).2 := by
  induction b using lineReader.drain_induct with
  | none b rest e =>
    rw [drain_none _ e]
    exact (next_nullopt e).2
  | some b line rest e ih =>
    rw [drain_some _ e]
    exact ih

/-- No complete frame is left when all messages have been taken out. -/
lemma drain_incomplete (b : Bytes) : Qmi.Incomplete (Qmi.frameReader.drain b).2 := by
  induction b using Qmi.frameReader.drain_induct with
  | none b rest e =>
    rw [drain_none _ e]
    rcases Qmi.buffer_cases b with part | ⟨f, m, rest', rfl, valid⟩ | ⟨f, rest', rfl, bad⟩
    · rw [Qmi.reader_incomplete part] at e
      cases e
      exact part
    · rw [Qmi.reader_valid valid] at e
      cases e
    · -- at a malformed frame the buffer is thrown away
      rw [Qmi.reader_bad bad] at e
      cases e
      exact .inl (by decide)
  | some b m rest e ih =>
    rw [drain_some _ e]
    exact ih

/-- There is nothing in the input of a new session. -/
lemma newInput_drained (server : Server) : server.Drained server.newInput := by
  cases server with
  | atServer =>
    show Clean []
    intro b mem
    cases mem
  | qmiServer => exact .inl (by decide)

/-- Serving a session leaves nothing complete in its input. -/
lemma serve_drained {d : Daemon σ} {server : Server} {fd : Fd} {owned last : Owned server}
    (here : d.session? server fd = some owned) (drained : server.Drained owned.session.input)
    {events : Events} {env : Environment}
    (served : (d.serve M server fd events env owned).2.session? server fd = some last) :
    server.Drained last.session.input := by
  cases server with
  | atServer =>
    obtain ⟨-, last', there, input⟩ := serve_at (M := M) here events env
    rw [there] at served
    cases served
    rw [input, readerServed, At.readerAfter]
    split
    · split
      · exact drained
      · split
        · exact drained
        · exact lineReader.feed_rule drain_clean drained _
    · exact drained
  | qmiServer =>
    obtain ⟨-, there, -⟩ := serve_qmi (M := M) here events env
    rw [there] at served
    cases served
    have same : (owned.onWritable events env.writes).2.session.input = owned.session.input :=
      onWritable_input events env.writes owned
    simp only [servedQmi]
    split
    · simp only [Qmi.Session.onReadable_session, Qmi.Session.parserAfter, same]
      split
      · exact drained
      · split
        · exact drained
        · exact Qmi.frameReader.feed_rule drain_incomplete drained _
    · rw [same]
      exact drained

/-- Nothing complete is left in any input. -/
def AllDrained (d : Daemon σ) : Prop :=
  ∀ server fd owned, d.session? server fd = some owned → server.Drained owned.session.input

/-- Events have no part in the input. -/
lemma hear_input {server : Server} (n : ℕ) (events : List ModemEvent) (owned : Owned server) :
    (owned.hear n events).session.input = owned.session.input := by
  have once : ∀ event (session : server.Session), (server.onEvent event session).input = session.input := by
    intro event session
    rw [Server.onEvent_eq]
    split
    · rfl
    · rfl
  have often : ∀ event n (session : server.Session),
      ((server.onEvent event)^[n] session).input = session.input := by
    intro event n
    induction n with
    | zero => exact fun session => rfl
    | succ n ih => exact fun session => (ih _).trans (once event session)
  simp only [Owned.hear]
  generalize owned.session = session
  induction events generalizing session with
  | nil => rfl
  | cons event events ih => exact (ih _).trans (often event n session)

/-- No step leaves something complete in an input. -/
lemma drained_step {d d' : Daemon σ} {step : Step} (w : Watched d) (drained : AllDrained d)
    (run : (system M).step d step = some d') : AllDrained d' := by
  intro server fd owned there
  rcases here : d.session? server fd with _ | before
  · rw [(step_new w run here there).1.input]
    exact newInput_drained server
  · have drained := drained server fd before here
    rcases step_owned w run here with ⟨events, env, rfl, handled⟩ | ⟨-, heard, -⟩
    · obtain ⟨last, -, -, -, ⟨-, r⟩ | ⟨-, rfl⟩⟩ := handleClient_inv w here handled
      · rw [r.gone] at there
        cases there
      · exact serve_drained here drained there
    · rw [there, here] at heard
      cases heard
      rw [hear_input]
      exact drained

/-- In every reachable state all commands that have been read completely have been executed. -/
lemma reachable_drained {fds : Descriptors} {modem : σ} {steps : List Step} {d : Daemon σ}
    (run : (system M).exec (boot fds modem) steps = some d) : AllDrained d := by
  refine (System.invariant (I := fun d : Daemon σ => Watched d ∧ AllDrained d)
    (fun d step d' both next => ⟨kept_watched.step both.1 next, drained_step both.1 both.2 next⟩)
    ⟨boot_watched fds modem, ?_⟩ run).2
  intro server fd owned here
  cases here

/-- A callback that reads: there is input, no hang-up, and writing has not failed before. -/
structure Reads {server : Server} (events : Events) (env : Environment) (owned : Owned server) :
    Prop where
  readable : has events EPOLLIN = true
  connected : has events (EPOLLHUP ||| EPOLLERR) = false
  written : (owned.onWritable events env.writes).1 = true

/-- The lines that an AT session hands on in a callback that reads. -/
lemma Reads.lines {d d' : Daemon (σ × List Bytes)} (w : Watched d) {fd : Fd}
    {owned : Owned .atServer} (here : d.session? .atServer fd = some owned) {events : Events} {env : Environment}
    (reads : Reads events env owned)
    (run : d.handleClient M.recording .atServer fd events env = .returned d') :
    d'.modem.2 = d.modem.2 ++ (lineReader.feed owned.session.input.buffer (received env.reads)).1 := by
  obtain ⟨modem, -⟩ := serve_at (M := M.recording) here events env
  have served : linesServed events env owned =
      (lineReader.feed owned.session.input.buffer (received env.reads)).1 := by
    rw [linesServed, if_pos reads.written, At.linesRead, reads.connected, reads.readable]
    rfl
  rw [served] at modem
  obtain ⟨-, -, -, after, -⟩ := handleClient_inv w here run
  rw [after, modem, recording_lines]

/-- The requests that a QMI session answers in a callback that reads. -/
lemma Reads.requests {d d' : Daemon σ} (w : Watched d) {fd : Fd} {owned : Owned .qmiServer}
    (here : d.session? .qmiServer fd = some owned) {events : Events} {env : Environment}
    (reads : Reads events env owned)
    (run : d.handleClient M .qmiServer fd events env = .returned d') :
    ∃ last : Owned .qmiServer,
      (d'.session? .qmiServer fd = some last ∨ ⟨.qmiServer, last⟩ ∈ d'.destroyed) ∧
        last.addr = owned.addr ∧
        last.session.outbox = (owned.onWritable events env.writes).2.session.outbox.pushAll
          (Qmi.Session.answers M d.modem
            (Qmi.frameReader.feed owned.session.input.buffer (received env.reads)).1) := by
  refine ⟨(servedQmi M d.modem events env owned).2, ?_, servedQmi_addr _ _ _ _, ?_⟩
  · exact (handleClient_qmi w here run).2.imp (fun alive => alive.2) (fun dead => dead.2)
  · have input : (owned.onWritable events env.writes).2.session.input = owned.session.input :=
      onWritable_input events env.writes owned
    simp only [servedQmi, reads.written, reads.readable, Bool.and_self, if_true,
      Qmi.Session.onReadable_session, Qmi.Session.requestsRead, reads.connected, Bool.false_eq_true,
      if_false, Bool.not_true, input]

/-- In a reachable state nothing that has been read holds a complete command. A callback that reads
executes the commands which the bytes read complete, in order: all lines of what was left before and of the
bytes read, whether they are read at once or not (empty lines apart), and all valid frames up to the first
malformed one. A callback with EPOLLIN and a hang-up executes none, whatever there is to read, and the
session is removed as it is. -/
theorem hangUp_reads_nothing (M : MiniModem.Modem σ) (fds : Descriptors) (modem : σ × List Bytes)
    (steps : List Step) (d d' : Daemon (σ × List Bytes))
    (run : (system M.recording).exec (boot fds modem) steps = some d) (fd : Fd) (events : Events)
    (env : Environment) (next : (system M.recording).step d (.deliver fd events env) = some d') :
    (∀ server (owned : Owned server), d.session? server fd = some owned →
      server.Drained owned.session.input ∧
        (has events EPOLLIN = true → has events (EPOLLHUP ||| EPOLLERR) = true →
          d'.modem = d.modem ∧ d'.destroyed = d.destroyed ++ [⟨server, owned⟩] ∧
            d'.session? server fd = none)) ∧
      (∀ owned, d.session? .atServer fd = some owned → Reads events env owned →
        d'.modem.2 = d.modem.2 ++
            (lineReader.feed owned.session.input.buffer (received env.reads)).1 ∧
          nonEmpty (lineReader.feed owned.session.input.buffer (received env.reads)).1 =
            nonEmpty (lineReader.drain
              (owned.session.input.buffer ++ (received env.reads).flatten)).1) ∧
      ∀ owned, d.session? .qmiServer fd = some owned → Reads events env owned →
        (∃ last : Owned .qmiServer,
          (d'.session? .qmiServer fd = some last ∨ ⟨.qmiServer, last⟩ ∈ d'.destroyed) ∧
            last.addr = owned.addr ∧
            last.session.outbox = (owned.onWritable events env.writes).2.session.outbox.pushAll
              (Qmi.Session.answers M.recording d.modem
                (Qmi.frameReader.feed owned.session.input.buffer (received env.reads)).1)) ∧
          ∀ frames rest, Qmi.AllValid frames →
            owned.session.input.buffer ++ (received env.reads).flatten = frames.flatten ++ rest →
              frames.map Qmi.decoded <+:
                (Qmi.frameReader.feed owned.session.input.buffer (received env.reads)).1 := by
  obtain ⟨⟨w, -⟩, -⟩ := reachable_filed run
  have drained := reachable_drained run
  refine ⟨?_, ?_, ?_⟩
  · intro server owned here
    refine ⟨drained server fd owned here, ?_⟩
    intro readable hangUp
    obtain ⟨between, same, -, -, removal⟩ :=
      handleClient_hangUp w here hangUp (w.served here next)
    rcases removal with ⟨-, r, modem⟩ | ⟨unnoticed, -⟩
    · exact ⟨modem, by rw [r.destroyed, same.destroyed], r.gone⟩
    · rw [has_or, readable] at unnoticed
      cases unnoticed
  · intro owned here reads
    exact ⟨reads.lines w here (w.served here next), nonEmpty_feed (drained .atServer fd owned here) _⟩
  · intro owned here reads
    refine ⟨reads.requests w here (w.served here next), ?_⟩
    intro frames rest valid stream
    exact Qmi.feed_frames (drained .qmiServer fd owned here) valid stream

/-- A command that is read before the hang-up is executed; the error that the master of a PTY reports after it
ends the session. -/
theorem hangUp_reads_nothing_before :
    ∃ d d', (system sampleModem.recording).exec (boot sampleDescriptors (false, [])) listening = some d ∧
      (system sampleModem.recording).step d
        (.deliver 7 EPOLLIN { reads := [.bytes At.attention, .error] }) = some d' ∧
      d'.modem.2 = [[65, 84]] := by
  obtain ⟨-, lines, -⟩ :=
    hangUp_reads_nothing sampleModem sampleDescriptors (false, []) listening _ _ rfl 7 EPOLLIN
      { reads := [.bytes At.attention, .error] } rfl
  exact ⟨_, _, rfl, rfl, (lines _ rfl ⟨by decide, by decide, rfl⟩).1⟩

/-- One that is still unread is not. -/
theorem command_dropped :
    ∃ d d' owned, (system sampleModem.recording).exec (boot sampleDescriptors (false, [])) listening =
        some d ∧
      d.session? .atServer 7 = some owned ∧
      (system sampleModem.recording).step d
        (.deliver 7 (EPOLLIN ||| EPOLLHUP) { reads := [.bytes At.attention] }) = some d' ∧
      (lineReader.drain (owned.session.input.buffer ++ At.attention)).1 = [[65, 84]] ∧
      d'.modem.2 = [] ∧ d'.session? .atServer 7 = none :=
  ⟨_, _, _, rfl, rfl, rfl, by decide, rfl, rfl⟩

end MiniModem.Daemon
