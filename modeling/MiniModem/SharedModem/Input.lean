import MiniModem.Daemon.Commands
import MiniModem.SharedModem.Calls

/-!
# What the sessions are asked

A session passes on the lines or messages that its reader finds in the bytes that it has read, in the pieces in
which it has read them. Nothing is passed on twice or by another session, whatever else the daemon does in
between; what the reader has left is in the buffer, and there is nothing complete in it (`input_accounted`).
Only what a parser throws away at a malformed frame is neither passed on nor kept.
-/

namespace MiniModem
open Lib Transport Modem

namespace Daemon

namespace Server

/-- What a session takes out of its input: lines or messages. -/
abbrev Item : Server → Type
  | atServer => Bytes
  | qmiServer => Qmi.Message

/-- What takes the lines or messages out of the bytes. -/
def reader : (server : Server) → Reader UInt8 server.Item
  | atServer => lineReader
  | qmiServer => Qmi.frameReader

/-- The bytes that a line reader or a parser has not used yet. -/
def buffer : (server : Server) → server.Input → Bytes
  | atServer, reader => LineReader.buffer reader
  | qmiServer, parser => Qmi.FrameParser.buffer parser

end Server

/-- The chunks that a session reads while it is served; none if writing has failed before. -/
def chunksTaken {server : Server} (events : Events) (env : Environment) (owned : Owned server) :
    List Bytes :=
  if (owned.onWritable events env.writes).1 then
    if has events (EPOLLHUP ||| EPOLLERR) then []
    else if !has events EPOLLIN then []
    else received env.reads
  else []

/-- The chunks that are read in a step, each with the address of the session that reads it. -/
def chunksRead {σ : Type*} (d : Daemon σ) : Step → List (ℕ × Bytes)
  | .createPty _ _ => []
  | .deliver fd events env =>
    match d.loop.callbacks.lookup fd with
    | some (.session server fd) =>
      match d.session? server fd with
      | none => []
      | some owned => (chunksTaken events env owned).map fun chunk => (owned.addr, chunk)
    | _ => []
  | .publish _ _ => []

end Daemon

namespace SharedModem
open Daemon

/-- What an action asks for a client. -/
def Action.asks (c : ℕ) : (server : Server) → Action → List server.Item
  | .atServer, .line client input => if client = c then [input] else []
  | .qmiServer, .request client input => if client = c then [input] else []
  | .atServer, _ => []
  | .qmiServer, _ => []

/-- The chunks of one session. -/
def chunksOf (c : ℕ) (read : List (ℕ × Bytes)) : List Bytes :=
  (read.filter fun chunk => chunk.1 = c).map Prod.snd

/-- What one client asks for. -/
def itemsOf (server : Server) (c : ℕ) (history : List Action) : List server.Item :=
  history.flatMap (Action.asks c server)

/-- The chunks of a session can be collected in two portions. -/
lemma chunksOf_append (c : ℕ) (read more : List (ℕ × Bytes)) :
    chunksOf c (read ++ more) = chunksOf c read ++ chunksOf c more := by
  rw [chunksOf, List.filter_append, List.map_append]
  rfl

/-- So can what a client asks for. -/
lemma itemsOf_append (server : Server) (c : ℕ) (history more : List Action) :
    itemsOf server c (history ++ more) = itemsOf server c history ++ itemsOf server c more :=
  List.flatMap_append

variable {σ : Type*} {M : MiniModem.Modem σ} {fds : Descriptors} {d d' : Daemon σ}

/-- The chunks of a callback are those of its session. -/
lemma chunksOf_taken {server : Server} (events : Events) (env : Environment) (owned : Owned server) (c : ℕ) :
    chunksOf c ((chunksTaken events env owned).map fun chunk => (owned.addr, chunk)) =
      if owned.addr = c then chunksTaken events env owned else [] := by
  rw [chunksOf, List.filter_map, List.map_map]
  split
  · next this => simp [Function.comp_def, this]
  · next other => simp [Function.comp_def, other]

/-- In an action of another client, or of nobody, a client asks for nothing. -/
lemma asks_eq_nil {c : ℕ} {action : Action} (other : action.client? ≠ some c) (server : Server) :
    action.asks c server = [] := by
  cases server with
  | atServer =>
    cases action with
    | line client input => exact if_neg fun e => other (congrArg some e)
    | connect server => rfl
    | disconnect client => rfl
    | request client input => rfl
    | timer => rfl
    | publish event => rfl
  | qmiServer =>
    cases action with
    | request client input => exact if_neg fun e => other (congrArg some e)
    | connect server => rfl
    | disconnect client => rfl
    | line client input => rfl
    | timer => rfl
    | publish event => rfl

/-- A client asks for nothing in what the others do. -/
lemma itemsOf_eq_nil {c : ℕ} {history : List Action} (others : ∀ action ∈ history, action.client? ≠ some c)
    (server : Server) : itemsOf server c history = [] :=
  List.flatMap_eq_nil_iff.mpr fun action mem => asks_eq_nil (others action mem) server

/-- A client asks for nothing in the callback of another session. -/
lemma itemsOf_asked {server : Server} (events : Events) (env : Environment) (owned : Owned server)
    {c : ℕ} (other : owned.addr ≠ c) (server' : Server) :
    itemsOf server' c (asked server events env owned) = [] := by
  refine itemsOf_eq_nil (fun action mem => ?_) server'
  cases server with
  | atServer =>
    obtain ⟨line, -, rfl⟩ := List.mem_map.mp mem
    exact fun e => other (Option.some.inj e)
  | qmiServer =>
    obtain ⟨request, -, rfl⟩ := List.mem_map.mp mem
    exact fun e => other (Option.some.inj e)

/-- Leaving is not asking. -/
lemma itemsOf_end (server : Server) (c c' : ℕ) (alive : Bool) :
    itemsOf server c (if alive then [] else [.disconnect c']) = [] := by
  refine itemsOf_eq_nil (fun action mem => ?_) server
  split at mem
  · cases mem
  · obtain rfl := List.mem_singleton.mp mem
    exact (Option.some_ne_none c).symm

/-- A session that is served hands on what it finds in the bytes that it reads, and keeps the rest. -/
lemma feed_taken {server : Server} {fd : Fd} {owned last : Owned server}
    (here : d.session? server fd = some owned) (events : Events) (env : Environment)
    (there : (d.serve M server fd events env owned).2.session? server fd = some last) :
    server.reader.feed (server.buffer owned.session.input) (chunksTaken events env owned) =
      (itemsOf server owned.addr (asked server events env owned), server.buffer last.session.input) := by
  cases server with
  | atServer =>
    obtain ⟨-, last', there', input⟩ := serve_at (M := M) here events env
    rw [there'] at there
    cases there
    have items : itemsOf .atServer owned.addr (asked .atServer events env owned) =
        linesServed events env owned := by
      simp [itemsOf, asked, List.flatMap_map, Action.asks]
    rw [items, input, chunksTaken, linesServed, readerServed, At.linesRead, At.readerAfter]
    split
    · split
      · rfl
      · split
        · rfl
        · rfl
    · rfl
  | qmiServer =>
    obtain ⟨-, there', -⟩ := serve_qmi (M := M) here events env
    rw [there'] at there
    cases there
    have items : itemsOf .qmiServer owned.addr (asked .qmiServer events env owned) =
        requestsTaken events env owned := by
      simp [itemsOf, asked, List.flatMap_map, Action.asks]
    have input : (owned.onWritable events env.writes).2.session.input = owned.session.input :=
      onWritable_input events env.writes owned
    rw [items, chunksTaken, requestsTaken, servedQmi, Qmi.Session.requestsRead]
    by_cases alive : (owned.onWritable events env.writes).1 = true
    · simp only [alive, if_true, Bool.true_and, Qmi.Session.onReadable_session, Qmi.Session.parserAfter, input]
      by_cases readable : has events EPOLLIN = true
      · simp only [readable, Bool.not_true, if_true]
        split
        · rfl
        · rfl
      · simp only [readable, Bool.not_false, if_true, ite_self, Bool.false_eq_true, if_false, input]
        rfl
    · simp only [alive, Bool.false_and, Bool.false_eq_true, if_false, input]
      rfl

/-- What is asked in a step is what is passed on in it. -/
lemma itemsOf_calls (d : Daemon σ) (step : Step) (server : Server) (c : ℕ) :
    itemsOf server c (calls M d step) = itemsOf server c (actions M d step) := by
  have nothing : ∀ history : List Action, (∀ action ∈ history, action.client? ≠ some c) →
      itemsOf server c [] = itemsOf server c history := by
    intro history others
    rw [itemsOf_eq_nil others]
    rfl
  cases step with
  | createPty pty registers => exact nothing _ (by simp [actions, Action.client?])
  | publish order event => exact nothing _ (by simp [actions, Action.client?])
  | deliver fd events env =>
    rcases callback : d.loop.callbacks.lookup fd with _ | called
    · simp only [calls, actions, callback]
    · cases called with
      | signal => simp only [calls, actions, callback]
      | acceptClients =>
        simp only [calls, actions, callback]
        refine nothing _ fun action mem => ?_
        split at mem
        · obtain ⟨client, -, rfl⟩ := List.mem_map.mp mem
          exact (Option.some_ne_none c).symm
        · cases mem
      | networkTimer =>
        simp only [calls, actions, callback]
        refine nothing _ fun action mem => ?_
        split at mem
        · obtain rfl := List.mem_singleton.mp mem
          exact (Option.some_ne_none c).symm
        · cases mem
      | session server' fd' =>
        rcases here : d.session? server' fd' with _ | owned
        · simp only [calls, actions, callback, here]
        · rw [calls_served callback here]
          simp only [actions, callback, here]
          rw [itemsOf_append, itemsOf_end, List.append_nil]

/-- In a step nothing is read for a session that it does not serve. -/
lemma quiet_step (w : Watched d) (step : Step) (c : ℕ)
    (other : Unserved d step c) :
    chunksOf c (chunksRead d step) = [] ∧ ∀ server, itemsOf server c (actions M d step) = [] := by
  simp only [← itemsOf_calls]
  cases step with
  | createPty pty registers => exact ⟨rfl, fun _ => rfl⟩
  | publish order event => exact ⟨rfl, fun _ => rfl⟩
  | deliver fd events env =>
    rcases callback : d.loop.callbacks.lookup fd with _ | called
    · simp only [chunksRead, calls, callback]
      exact ⟨rfl, fun _ => rfl⟩
    · cases called with
      | signal =>
        simp only [chunksRead, calls, callback]
        exact ⟨rfl, fun _ => rfl⟩
      | acceptClients =>
        simp only [chunksRead, calls, callback]
        exact ⟨rfl, fun _ => rfl⟩
      | networkTimer =>
        simp only [chunksRead, calls, callback]
        exact ⟨rfl, fun _ => rfl⟩
      | session server fd' =>
        obtain ⟨rfl, owned, here⟩ := (w.callback _ _).mp callback
        have ne := other server fd' owned rfl here
        rw [calls_served callback here]
        simp only [chunksRead, callback, here]
        exact ⟨by rw [chunksOf_taken, if_neg ne], itemsOf_asked events env owned ne⟩

/-- All that has been read for the sessions, and all that they have been asked, as notes of a run. -/
structure Fed (fds : Descriptors) (d : Daemon σ) (read : List (ℕ × Bytes)) (history : List Action) :
    Prop where
  known : Known fds d
  input : ∀ server (owned : Owned server), d.HasSession owned →
    server.reader.feed [] (chunksOf owned.addr read) =
      (itemsOf server owned.addr history, server.buffer owned.session.input)
  later : ∀ c, d.allocated ≤ c → chunksOf c read = [] ∧ ∀ server, itemsOf server c history = []

/-- A session whose input stays as it is, and that is not served. -/
lemma Fed.unread {read : List (ℕ × Bytes)} {history : List Action} (fed : Fed fds d read history)
    {step : Step} {server : Server} {owned owned' : Owned server} (has : d.HasSession owned)
    (addr : owned'.addr = owned.addr) (input : owned'.session.input = owned.session.input)
    (other : Unserved d step owned.addr) :
    server.reader.feed [] (chunksOf owned'.addr (read ++ chunksRead d step)) =
      (itemsOf server owned'.addr (history ++ actions M d step), server.buffer owned'.session.input) := by
  obtain ⟨nothing, none⟩ := quiet_step (M := M) fed.known.1.1.1 step owned.addr other
  rw [addr, input, chunksOf_append, itemsOf_append, nothing, none, List.append_nil, List.append_nil]
  exact fed.input server owned has

/-- The session that is served. -/
lemma Fed.served {read : List (ℕ × Bytes)} {history : List Action} (fed : Fed fds d read history)
    {server : Server} {fd : Fd} {owned last : Owned server} (here : d.session? server fd = some owned)
    (events : Events) (env : Environment)
    (there : (d.serve M server fd events env owned).2.session? server fd = some last) :
    server.reader.feed [] (chunksOf owned.addr (read ++ chunksRead d (.deliver fd events env))) =
      (itemsOf server owned.addr (history ++ actions M d (.deliver fd events env)),
        server.buffer last.session.input) := by
  have taken := feed_taken here events env there
  simp only [chunksRead, actions, fed.known.1.1.1.registered here, here]
  rw [chunksOf_append, chunksOf_taken, if_pos rfl, Reader.feed_append, fed.input server owned (.inl ⟨fd, here⟩),
    taken, itemsOf_append, itemsOf_append, itemsOf_end, List.append_nil]

/-- The sessions that there are or have been after a step. -/
lemma Fed.after {read : List (ℕ × Bytes)} {history : List Action} (fed : Fed fds d read history) {step : Step}
    {server : Server} {owned' : Owned server} (origin : Origin M d step owned') :
    server.reader.feed [] (chunksOf owned'.addr (read ++ chunksRead d step)) =
      (itemsOf server owned'.addr (history ++ actions M d step), server.buffer owned'.session.input) := by
  cases origin with
  | created unused later other =>
    -- a newcomer has not read anything
    obtain ⟨nothing, none⟩ := fed.later owned'.addr later
    obtain ⟨nothing', none'⟩ := quiet_step (M := M) fed.known.1.1.1 step owned'.addr other
    rw [chunksOf_append, itemsOf_append, nothing, nothing', none, none', unused.input]
    cases server with
    | atServer => rfl
    | qmiServer => rfl
  | @served fd owned events env this here there addr =>
    subst this
    rw [addr]
    exact fed.served here events env there
  | @heard fd owned here heard other =>
    subst heard
    exact fed.unread (.inl ⟨fd, here⟩) rfl (hear_input _ _ _) other
  | gone mem other => exact fed.unread (.inr mem) rfl rfl other

/-- Each step notes what is read and what is asked. -/
lemma Fed.step {read : List (ℕ × Bytes)} {history : List Action} (fed : Fed fds d read history)
    {step : Step} (run : (Daemon.system M).step d step = some d') :
    Fed fds d' (read ++ chunksRead d step) (history ++ actions M d step) := by
  obtain ⟨⟨⟨w, sub⟩, -⟩, -⟩ := fed.known
  refine ⟨(kept_known fds).step fed.known run, ?_, ?_⟩
  · intro server owned has
    exact fed.after (.of_step fed.known run has)
  · intro c le
    have grows := step_allocated w run
    obtain ⟨nothing, none⟩ := fed.later c (grows.trans le)
    obtain ⟨nothing', none'⟩ := quiet_step (M := M) w step c (sub.unserved_later (grows.trans le) step)
    refine ⟨?_, fun server => ?_⟩
    · rw [chunksOf_append, nothing, nothing']
      rfl
    · rw [itemsOf_append, none, none']
      rfl

/-- Nothing has been read and nothing asked when the loop is entered. -/
lemma boot_fed (fds : Descriptors) (modem : σ) : Fed fds (boot fds modem) [] [] where
  known := boot_known fds modem
  input server owned has := by
    rcases has with ⟨fd, here⟩ | mem
    · cases here
    · cases mem
  later _ _ := ⟨rfl, fun _ => rfl⟩

/-- The notes of a run agree with each other and with the buffers. -/
lemma exec_fed {modem : σ} {steps : List Step}
    (run : (Daemon.system M).exec (boot fds modem) steps = some d) :
    Fed fds d ((Daemon.system M).project (fun d step _ => chunksRead d step) (boot fds modem) steps)
      ((Daemon.system M).project (fun d step _ => actions M d step) (boot fds modem) steps) := by
  have fed := System.invariant_project (S := Daemon.system M) (I := Fed fds)
    (f := fun d step _ => chunksRead d step) (g := fun d step _ => actions M d step)
    (fun _ _ _ _ _ fed step => fed.step step) (boot_fed fds modem) run
  rwa [List.nil_append, List.nil_append] at fed

/-- Nothing complete is left in a line reader or a parser after any chunks. -/
lemma feed_drained (server : Server) (chunks : List Bytes) :
    server.reader.next (server.reader.feed [] chunks).2 = (none, (server.reader.feed [] chunks).2) := by
  cases server with
  | atServer => exact reader_none (lineReader.feed_rule drain_clean (fun _ mem => by cases mem) chunks)
  | qmiServer =>
    exact Qmi.reader_incomplete (Qmi.frameReader.feed_rule drain_incomplete (.inl (by decide)) chunks)

/-- The lines or messages that a session has passed to `handleAt` or to `dispatch` so far are those that its
reader finds in the chunks that were read from its descriptor, and what the reader has left is in the buffer,
where nothing complete is. This is so for the sessions that are there and for those that have been destroyed. -/
theorem input_accounted (M : MiniModem.Modem σ) (fds : Descriptors) (modem : σ) (steps : List Step)
    (d : Daemon σ) (run : (Daemon.system M).exec (boot fds modem) steps = some d) (server : Server)
    (owned : Owned server) (has : d.HasSession owned) :
    let read := (Daemon.system M).project (fun d step _ => chunksRead d step) (boot fds modem) steps
    let passed := (Daemon.system M).project (fun d step _ => calls M d step) (boot fds modem) steps
    server.reader.feed [] (chunksOf owned.addr read) =
        (itemsOf server owned.addr passed, server.buffer owned.session.input) ∧
      server.reader.next (server.buffer owned.session.input) =
        (none, server.buffer owned.session.input) := by
  intro read passed
  have same : itemsOf server owned.addr passed = itemsOf server owned.addr
      ((Daemon.system M).project (fun d step _ => actions M d step) (boot fds modem) steps) := by
    rw [System.map_project (g := itemsOf server owned.addr) rfl (itemsOf_append server owned.addr),
      System.map_project (g := itemsOf server owned.addr) rfl (itemsOf_append server owned.addr)]
    simp only [itemsOf_calls]
  have all := (exec_fed run).input server owned has
  rw [← same] at all
  refine ⟨all, ?_⟩
  have done := feed_drained server (chunksOf owned.addr read)
  rwa [all] at done

/-- The request of the client is passed on once. -/
theorem input_accounted_lineAndRequest :
    ∃ d, ∃ owned : Owned .qmiServer,
      (Daemon.system sampleModem).exec (boot sampleDescriptors false) lineAndRequest = some d ∧
      d.HasSession owned ∧
      (itemsOf .qmiServer owned.addr ((Daemon.system sampleModem).project
        (fun d step _ => calls sampleModem d step) (boot sampleDescriptors false) lineAndRequest)).length = 1 ∧
      Server.qmiServer.reader.feed [] (chunksOf owned.addr ((Daemon.system sampleModem).project
          (fun d step _ => chunksRead d step) (boot sampleDescriptors false) lineAndRequest)) =
        (itemsOf .qmiServer owned.addr ((Daemon.system sampleModem).project
            (fun d step _ => calls sampleModem d step) (boot sampleDescriptors false) lineAndRequest),
          Server.qmiServer.buffer owned.session.input) := by
  have ran : ∃ d, ∃ owned : Owned .qmiServer,
      (Daemon.system sampleModem).exec (boot sampleDescriptors false) lineAndRequest = some d ∧
      d.session? .qmiServer 8 = some owned ∧
      (itemsOf .qmiServer owned.addr ((Daemon.system sampleModem).project
        (fun d step _ => calls sampleModem d step) (boot sampleDescriptors false) lineAndRequest)).length = 1 :=
    ⟨_, _, rfl, rfl, by decide⟩
  obtain ⟨d, owned, run, here, once⟩ := ran
  exact ⟨d, owned, run, .inl ⟨8, here⟩, once,
    (input_accounted sampleModem sampleDescriptors false lineAndRequest d run .qmiServer owned
      (.inl ⟨8, here⟩)).1⟩

end SharedModem

end MiniModem
