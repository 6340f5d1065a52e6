import MiniModem.Daemon.Origins
import MiniModem.Qmi.SessionOutput

/-!
# Sessions of the QMI server are single sessions

Of all that the daemon does, a session sees the calls of its own callback and the events that the bus
delivers to it. These are the steps of a session that is alone on its bus, and it is in the same state after
them (`sessions_connections`): what is known of the runs of one session is known of every session of the
daemon.
-/

namespace MiniModem

namespace Qmi
open Lib
variable {σ : Type*} (M : MiniModem.Modem σ)

/-- One session, as a system. -/
def connectionSystem : System Connection (SessionStep σ) where
  step c step := some (c.step M step)

variable {M}

/-- A connection can take any step. -/
lemma exec_connection (c : Connection) (steps : List (SessionStep σ)) :
    (connectionSystem M).exec c steps = some (c.run M steps) := by
  induction steps generalizing c with
  | nil => rfl
  | cons step steps ih => exact ((connectionSystem M).exec_cons_eq_some).mpr ⟨_, rfl, ih _⟩

end Qmi

namespace Daemon
open Lib Transport Modem

section
variable {σ : Type*}

/-- What the callback of a session does with it. -/
def servedSteps (modem : σ) (events : Events) (env : Environment) (owned : Owned .qmiServer) :
    List (Qmi.SessionStep σ) :=
  (if has events EPOLLOUT then [.writable events env.writes] else []) ++
    if (owned.onWritable events env.writes).1 && has events EPOLLIN then [.readable modem events env.reads]
    else []

/-- Events each of which is delivered `n` times. -/
def heardSteps (order : IterationOrder) (n : ℕ) (events : List ModemEvent) : List (Qmi.SessionStep σ) :=
  events.flatMap fun event => List.replicate n (.publish order event)

/-- What happens to the session at an address in a step in which its callback is called. -/
def callbackSteps (c : ℕ) (d : Daemon σ) : Step → List (Qmi.SessionStep σ)
  | .createPty _ _ => []
  | .deliver fd events env =>
    match d.loop.callbacks.lookup fd with
    | some (.session .qmiServer fd) =>
      match d.session? .qmiServer fd with
      | none => []
      | some owned => if owned.addr = c then servedSteps d.modem events env owned else []
    | _ => []
  | .publish _ _ => []

/-- What happens to the session at an address in a step of the daemon. -/
def sessionSteps (M : MiniModem.Modem σ) (c : ℕ) (d : Daemon σ) (step : Step) : List (Qmi.SessionStep σ) :=
  callbackSteps c d step ++ heardSteps step.order (d.reach step.order ⟨.qmiServer, c⟩) (published M d step)

/-- All that happens to the session at an address in a run. -/
def happened (M : MiniModem.Modem σ) (fds : Descriptors) (modem : σ) (steps : List Step) (c : ℕ) :
    List (Qmi.SessionStep σ) :=
  (system M).project (fun d step _ => sessionSteps M c d step) (boot fds modem) steps

/-- The session is in the state of one that is alone on its bus. -/
structure Mirrors (owned : Owned .qmiServer) (c : Qmi.Connection) : Prop where
  input : c.session.input = owned.session.input
  outbox : c.session.outbox = owned.session.outbox
  written : c.written = owned.sent
  subscribed : c.Subscribed

variable {M : MiniModem.Modem σ} {fds : Descriptors} {d d' : Daemon σ} {c : ℕ}
  {owned : Owned .qmiServer} {connection : Qmi.Connection}

/-- A new session mirrors a new connection. -/
lemma Unused.mirrors (unused : Unused owned) (fd : Fd) : Mirrors owned (Qmi.connect fd) :=
  ⟨unused.input.symm, unused.outbox.symm, unused.sent.symm, Qmi.connect_subscribed fd⟩

/-- What happens to a connection can be taken in two portions. -/
lemma run_append (connection : Qmi.Connection) (steps more : List (Qmi.SessionStep σ)) :
    connection.run M (steps ++ more) = (connection.run M steps).run M more :=
  List.foldl_append ..

/-- An event does the same to both. -/
lemma Mirrors.publish (mirrors : Mirrors owned connection) (order : IterationOrder) (event : ModemEvent) :
    Mirrors { owned with session := Server.onEvent .qmiServer event owned.session }
      (connection.step M (.publish order event)) := by
  rw [mirrors.subscribed.publish order event]
  show Mirrors { owned with session := Qmi.Session.onEvent event owned.session } _
  simp only [Qmi.Session.onEvent]
  split
  · exact mirrors
  · refine ⟨mirrors.input, ?_, mirrors.written, mirrors.subscribed⟩
    simp only [Qmi.Session.queueMessage, Session.queue, mirrors.outbox]

/-- Events are heard. -/
lemma Mirrors.hear (mirrors : Mirrors owned connection) (order : IterationOrder) (n : ℕ)
    (events : List ModemEvent) :
    Mirrors (owned.hear n events) (connection.run M (heardSteps order n events)) := by
  have often : ∀ (event : ModemEvent) (n : ℕ) (owned : Owned .qmiServer) (connection : Qmi.Connection),
      Mirrors owned connection →
        Mirrors { owned with session := (Server.onEvent .qmiServer event)^[n] owned.session }
          (connection.run M (List.replicate n (.publish order event))) := by
    intro event n
    induction n with
    | zero => exact fun owned connection mirrors => mirrors
    | succ n ih => exact fun owned connection mirrors => ih _ _ (mirrors.publish order event)
  induction events generalizing owned connection with
  | nil => exact mirrors
  | cons event events ih =>
    rw [heardSteps, List.flatMap_cons, run_append]
    exact ih (often event n owned connection mirrors)

/-- Writing does the same to both. -/
lemma Mirrors.writable (mirrors : Mirrors owned connection) {events : Events} (out : has events EPOLLOUT = true)
    (writes : List WriteResult) :
    Mirrors (owned.onWritable events writes).2 (connection.step M (.writable events writes)) := by
  rw [Owned.onWritable, if_pos out]
  simp only [Qmi.Connection.step, Session.onWritable, mirrors.outbox]
  split
  · exact ⟨mirrors.input, mirrors.outbox, by rw [mirrors.written], mirrors.subscribed⟩
  · split
    · exact ⟨mirrors.input, mirrors.outbox, by rw [mirrors.written], mirrors.subscribed⟩
    · exact ⟨mirrors.input, rfl, by rw [mirrors.written], mirrors.subscribed⟩

/-- Reading does the same to both. -/
lemma Mirrors.readable (mirrors : Mirrors owned connection) (modem : σ) (events : Events)
    (reads : List ReadResult) :
    Mirrors { owned with session := (Qmi.Session.onReadable M modem events reads owned.session).2 }
      (connection.step M (.readable modem events reads)) := by
  have requests : Qmi.Session.requestsRead events reads connection.session =
      Qmi.Session.requestsRead events reads owned.session := by
    rw [Qmi.Session.requestsRead, Qmi.Session.requestsRead, mirrors.input]
  have parser : Qmi.Session.parserAfter events reads connection.session =
      Qmi.Session.parserAfter events reads owned.session := by
    rw [Qmi.Session.parserAfter, Qmi.Session.parserAfter, mirrors.input]
  rw [Qmi.Connection.step, Qmi.Session.onReadable_session, Qmi.Session.onReadable_session, requests, parser,
    mirrors.outbox]
  exact ⟨rfl, rfl, mirrors.written, mirrors.subscribed⟩

/-- The session is served. -/
lemma Mirrors.serve (mirrors : Mirrors owned connection) (modem : σ) (events : Events) (env : Environment) :
    Mirrors (servedQmi M modem events env owned).2 (connection.run M (servedSteps modem events env owned)) := by
  have first : Mirrors (owned.onWritable events env.writes).2
      (connection.run M (if has events EPOLLOUT then [.writable events env.writes] else [])) := by
    split
    · next out => exact mirrors.writable (M := M) out env.writes
    · next quiet =>
      rw [Owned.onWritable, if_neg quiet]
      exact mirrors
  rw [servedSteps, run_append, servedQmi]
  simp only
  split
  · exact first.readable modem events env.reads
  · exact first

/-! ### Steps of the daemon -/

/-- A session whose callback is not called takes no step of its own. -/
lemma callbackSteps_unserved (w : Watched d) {step : Step} (other : Unserved d step c) :
    callbackSteps c d step = [] := by
  cases step with
  | createPty pty registers => rfl
  | publish order event => rfl
  | deliver fd events env =>
    rcases callback : d.loop.callbacks.lookup fd with _ | called
    · simp only [callbackSteps, callback]
    · cases called with
      | signal => simp only [callbackSteps, callback]
      | acceptClients => simp only [callbackSteps, callback]
      | networkTimer => simp only [callbackSteps, callback]
      | session server fd' =>
        obtain ⟨rfl, owned, here⟩ := (w.callback _ _).mp callback
        cases server with
        | atServer => simp only [callbackSteps, callback]
        | qmiServer =>
          have ne := other .qmiServer fd' owned rfl here
          simp only [callbackSteps, callback, here, if_neg ne]

/-- An event does not reach a session that is not there. -/
lemma Subscribed.reach_eq_zero (s : Subscribed d) (bound : d.allocated < 2 ^ 64) {ref : SessionRef}
    (absent : ¬ d.Live ref) (order : IterationOrder) : d.reach order ref = 0 := by
  rw [reach, List.count_eq_zero, EventBus.mem_subscribers]
  intro called
  obtain ⟨id, found⟩ := called
  exact absent ((s.handlers bound id ref).mp found).2

/-- Nothing happens to a session that is not there. -/
lemma sessionSteps_absent (w : Watched d) (s : Subscribed d) (bound : d.allocated < 2 ^ 64) {step : Step}
    (other : Unserved d step c) (absent : ¬ d.Live ⟨.qmiServer, c⟩) : sessionSteps M c d step = [] := by
  rw [sessionSteps, callbackSteps_unserved w other, s.reach_eq_zero bound absent]
  simp [heardSteps]

/-- An address that has not been given yet is not that of a session. -/
lemma not_live_later (s : Subscribed d) (later : d.allocated ≤ c) : ¬ d.Live ⟨.qmiServer, c⟩ := by
  intro live
  obtain ⟨fd, owned, here, this⟩ := live
  have lt := (s.subscription _ fd owned here).2
  simp only at this
  omega

/-- A session that has been destroyed is not there. -/
lemma Recorded.not_live (recorded : Recorded d) (mem : ⟨.qmiServer, owned⟩ ∈ d.destroyed) :
    ¬ d.Live ⟨.qmiServer, owned.addr⟩ := by
  intro live
  obtain ⟨fd, last, here, this⟩ := live
  exact recorded.gone _ mem _ fd last here this

/-- The session at an address, while it is not there yet, while it is there and when it has been destroyed. -/
structure Follows (fds : Descriptors) (fd : Fd) (c : ℕ) (d : Daemon σ) (connection : Qmi.Connection) :
    Prop where
  known : Known fds d
  sessions : ∀ owned : Owned .qmiServer, d.HasSession owned → owned.addr = c → Mirrors owned connection
  later : d.allocated ≤ c → connection = Qmi.connect fd

/-- What happens in a step to a session that is there or has been destroyed after it. -/
lemma Follows.after {fd : Fd} (follows : Follows fds fd c d connection) (bound : d.allocated < 2 ^ 64)
    {step : Step} (origin : Origin M d step owned) (this : owned.addr = c) :
    Mirrors owned (connection.run M (sessionSteps M c d step)) := by
  obtain ⟨⟨⟨w, s⟩, recorded⟩, -⟩ := follows.known
  cases origin with
  | created unused later other =>
    rw [this] at later other
    rw [sessionSteps_absent w s bound other (not_live_later s later), follows.later later]
    exact unused.mirrors fd
  | @served fd before events env e here there addr =>
    subst e
    obtain ⟨-, served, -⟩ := serve_qmi (M := M) here events env
    obtain rfl := Option.some.inj (there.symm.trans served)
    have this' := addr.symm.trans this
    have quiet : published M d (.deliver fd events env) = [] := by
      simp only [published, w.registered here, here, publishedServing, publishedReading, ite_self]
    have own : callbackSteps c d (.deliver fd events env) = servedSteps d.modem events env before := by
      simp only [callbackSteps, w.registered here, here, if_pos this']
    have mirrors := follows.sessions before (.inl ⟨fd, here⟩) this'
    rw [sessionSteps, own, quiet, heardSteps, List.flatMap_nil, List.append_nil]
    exact mirrors.serve d.modem events env
  | @heard fd before here heard other =>
    subst heard
    have this' : before.addr = c := this
    rw [this'] at other
    rw [sessionSteps, callbackSteps_unserved w other, List.nil_append, this']
    exact (follows.sessions before (.inl ⟨fd, here⟩) this').hear step.order _ _
  | gone mem other =>
    have absent := recorded.not_live mem
    rw [this] at other absent
    rw [sessionSteps_absent w s bound other absent]
    exact follows.sessions owned (.inr mem) this

/-- A connection follows its session through each step. -/
lemma Follows.step {fd : Fd} (follows : Follows fds fd c d connection) (bound : d'.allocated < 2 ^ 64)
    {step : Step} (run : (system M).step d step = some d') :
    Follows fds fd c d' (connection.run M (sessionSteps M c d step)) := by
  obtain ⟨⟨⟨w, s⟩, -⟩, -⟩ := follows.known
  have grows := step_allocated w run
  have bound' := grows.trans_lt bound
  refine ⟨(kept_known fds).step follows.known run, ?_, ?_⟩
  · intro owned has this
    exact follows.after bound' (.of_step follows.known run has) this
  · intro later
    have before := grows.trans later
    rw [sessionSteps_absent w s bound' (s.unserved_later before step) (not_live_later s before)]
    exact follows.later before

/-- Before its session is created a connection has nothing to follow. -/
lemma boot_follows (fds : Descriptors) (modem : σ) (fd : Fd) (c : ℕ) :
    Follows fds fd c (boot fds modem) (Qmi.connect fd) where
  known := boot_known fds modem
  sessions owned has := by
    rcases has with ⟨fd, here⟩ | mem
    · cases here
    · cases mem
  later _ := rfl

/-- After any run the session at an address is that of the connection to which the same has happened. -/
lemma exec_follows {modem : σ} {steps : List Step} (run : (system M).exec (boot fds modem) steps = some d)
    (bound : d.allocated < 2 ^ 64) (fd : Fd) (c : ℕ) :
    Follows fds fd c d ((Qmi.connect fd).run M (happened M fds modem steps c)) := by
  -- the bound holds all along the run
  obtain ⟨connection, projected, follows⟩ := System.exec_project (T := Qmi.connectionSystem M)
    (f := fun d step _ => sessionSteps M c d step) (R := Follows fds fd c)
    (Q := fun d => Watched d → d.allocated < 2 ^ 64)
    (fun d step d' taken last w => (step_allocated w taken).trans_lt (last (kept_watched.step w taken)))
    (fun d step d' connection follows taken last =>
      ⟨_, Qmi.exec_connection connection _,
        follows.step (last (kept_watched.step follows.known.1.1.1 taken)) taken⟩)
    (boot_follows fds modem fd c) run (fun _ => bound)
  rw [Qmi.exec_connection] at projected
  cases projected
  exact follows

end

/-- Every session of the QMI server, whether it is there or has been destroyed, has the parser, the outbox
and the bytes sent of a session that is alone on its bus and to which the same has happened: the calls of its
callback, and the events that the bus has delivered. -/
theorem sessions_connections {σ : Type*} (M : MiniModem.Modem σ) (fds : Descriptors) (modem : σ)
    (steps : List Step) (d : Daemon σ) (run : (system M).exec (boot fds modem) steps = some d)
    (bound : d.allocated < 2 ^ 64) (owned : Owned .qmiServer) (has : d.HasSession owned) (fd : Fd) :
    let connection := (Qmi.connect fd).run M (happened M fds modem steps owned.addr)
    owned.session.input = connection.session.input ∧ owned.session.outbox = connection.session.outbox ∧
      owned.sent = connection.written := by
  intro connection
  have mirrors := (exec_follows run bound fd owned.addr).sessions owned has rfl
  exact ⟨mirrors.input.symm, mirrors.outbox.symm, mirrors.written.symm⟩

/-- A client connects, and sends its request; another one connects; a registration is published, and the first
client is sent what there is for it. -/
def clientRun : List Step :=
  [.deliver 6 EPOLLIN { accepts := [.client 8 true] },
    .deliver 8 EPOLLIN { reads := [.bytes Qmi.signalRequest] },
    .deliver 6 EPOLLIN { accepts := [.client 9 true] }, .deliver 5 EPOLLIN {},
    .deliver 8 EPOLLOUT { writes := [.room 4096, .room 4096] }]

/-- The session of a client that gets a response and an indication. -/
theorem sessions_connections_clientRun :
    ∃ d, ∃ owned : Owned .qmiServer,
      (system sampleModem).exec (boot sampleDescriptors false) clientRun = some d ∧ d.HasSession owned ∧
        owned.sent.length = 30 ∧ owned.sent = ((Qmi.connect 8).run sampleModem
          (happened sampleModem sampleDescriptors false clientRun owned.addr)).written := by
  have ran : ∃ d, ∃ owned : Owned .qmiServer,
      (system sampleModem).exec (boot sampleDescriptors false) clientRun = some d ∧ d.allocated < 2 ^ 64 ∧
        d.session? .qmiServer 8 = some owned ∧ owned.sent.length = 30 := ⟨_, _, rfl, by decide, rfl, rfl⟩
  obtain ⟨d, owned, run, bound, here, length⟩ := ran
  obtain ⟨-, -, sent⟩ := sessions_connections sampleModem sampleDescriptors false clientRun d run bound owned
    (.inl ⟨8, here⟩) 8
  exact ⟨d, owned, run, .inl ⟨8, here⟩, length, sent⟩

end Daemon

end MiniModem
