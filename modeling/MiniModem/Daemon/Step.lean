import MiniModem.Daemon.State
import MiniModem.Lib.System

/-!
# The steps of the daemon

The member functions of `at::Server` and `qmi::Server` and the callbacks of `src/main.cpp`, as functions
on the state of the process, and the system they make: a step is a call of `createPty`, one event
delivered by the event loop, or an event published on the bus. What the kernel decides comes with the
step: what `read`, `write` and `accept4` report, whether `epoll_ctl` can add a descriptor, and the
iteration order of the bus. It never reports a new descriptor that is open.
-/

namespace MiniModem
open Lib Transport Modem

namespace Daemon

/-- What `accept4` reports: a new descriptor, with whether `epoll_ctl` can add it, or an error. -/
inductive AcceptResult
  | client (fd : Fd) (registers : Bool)
  | eintr
  | eagain
  | error
  deriving DecidableEq, Repr

/-- What the kernel and the containers do in the course of a callback. A `write` may fail because nobody reads
any more; then it raises SIGPIPE. -/
structure Environment where
  reads : List ReadResult := []
  writes : List WriteResult := []
  accepts : List AcceptResult := []
  order : IterationOrder := .entries
  sigpipe : Bool := false

/-- What the kernel and the modem make the process do. -/
inductive Step
  | createPty (pty : Option (Fd × Fd)) (registers : Bool)
  | deliver (fd : Fd) (events : Events) (env : Environment)
  | publish (order : IterationOrder) (event : ModemEvent)

section
variable {σ : Type*}

/-- The destructor of a session: first its subscription goes, then its descriptor is closed. -/
def destroy (server : Server) (owned : Owned server) (d : Daemon σ) : Daemon σ :=
  let d :=
    { d with
      eventBus := (owned.session.subscription.reset d.eventBus).2
      destroyed := d.destroyed ++ [⟨server, owned⟩] }
  if owned.session.fd ≠ -1 then d.close owned.session.fd else d

/-- A new session is created, stored and registered: the body of `createPty` and of the loop of
`acceptClients`. Where `emplace` finds the descriptor taken, the new session is destroyed again. -/
def create (server : Server) (fd : Fd) (registers : Bool) (d : Daemon σ) : Outcome (Daemon σ) :=
  let (session, eventBus) :=
    Session.create ⟨fd⟩ server.newInput busPtr (⟨server, d.allocated⟩ : SessionRef) d.eventBus
  let owned : Owned server := { addr := d.allocated, session }
  let d := { d with openFds := fd :: d.openFds, eventBus, allocated := d.allocated + 1 }
  let d :=
    if fd ∈ d.sessions server then d.destroy server owned
    else d.setSessions server ((d.sessions server).insert fd owned)
  (d.loop.addFd registers fd sessionEvents (.session server fd)).map fun loop => { d with loop }

/-- `removeSession` and `removeClient` -/
def removeSession (server : Server) (fd : Fd) (d : Daemon σ) : Daemon σ :=
  let d := { d with loop := d.loop.removeFd fd }
  match d.session? server fd with
  | none => d
  | some owned => (d.setSessions server ((d.sessions server).erase fd)).destroy server owned

/-- The events that a session has to be registered for. -/
def eventsFor {server : Server} (owned : Owned server) : Events :=
  if owned.session.hasPendingOutput then sessionEvents ||| EPOLLOUT else sessionEvents

/-- The registration follows the outbox. -/
def updateEvents (server : Server) (fd : Fd) (d : Daemon σ) : Outcome (Daemon σ) :=
  match d.session? server fd with
  | none => .returned d
  | some owned => (d.loop.modifyFd fd (eventsFor owned)).map fun loop => { d with loop }

/-- The slave is closed at once, and only the master stays. -/
def createPty (pty : Option (Fd × Fd)) (registers : Bool) (d : Daemon σ) : Outcome (Daemon σ) :=
  match pty with
  | none => .threw d
  | some (master, _) => d.create .atServer master registers

/-- The loop around `accept4`. -/
def acceptLoop : List AcceptResult → Daemon σ → Outcome (Daemon σ)
  | [], d => .returned d
  | .client fd registers :: accepts, d =>
    (d.create .qmiServer fd registers).andThen (acceptLoop accepts)
  | .eintr :: accepts, d => acceptLoop accepts d
  | .eagain :: _, d => .returned d
  | .error :: _, d => .returned d

/-- An event without EPOLLIN is ignored. -/
def acceptClients (events : Events) (accepts : List AcceptResult) (d : Daemon σ) :
    Outcome (Daemon σ) :=
  if !has events EPOLLIN then .returned d else acceptLoop accepts d

/-- The output, if there is room for it: whether the session stays alive, and the session. -/
def Owned.onWritable {server : Server} (events : Events) (writes : List WriteResult)
    (owned : Owned server) : Bool × Owned server :=
  if has events EPOLLOUT then
    let (alive, session, sent) := owned.session.onWritable events writes
    (alive, { owned with session, sent := owned.sent ++ sent })
  else (true, owned)

variable (M : MiniModem.Modem σ)

/-- A line read by an AT session: the modem handles it, and the session queues the response. -/
def handleLine (order : IterationOrder) (fd : Fd) (line : Bytes) (d : Daemon σ) : Daemon σ :=
  let (modem, response, events) := M.handleAt d.modem line
  (publishAll order events { d with modem }).modifySession .atServer fd fun owned =>
    { owned with session := At.Session.queueText response owned.session }

/-- The input of the session `owned` under the descriptor. Handling a line may change the outbox of any
session; the line reader is put back into its session at the end. -/
def onReadable (server : Server) (fd : Fd) (events : Events) (env : Environment)
    (owned : Owned server) (d : Daemon σ) : Bool × Daemon σ :=
  match server, owned with
  | .atServer, owned =>
    let (alive, reader, d) :=
      At.onReadable (handleLine M env.order fd) events env.reads owned.session.input d
    (alive, d.modifySession .atServer fd fun owned =>
      { owned with session := { owned.session with input := reader } })
  | .qmiServer, owned =>
    let (alive, session) := Qmi.Session.onReadable M d.modem events env.reads owned.session
    (alive, d.modifySession .qmiServer fd fun _ => { owned with session })

/-- First the output, then, if the session is still alive, the input. -/
def serve (server : Server) (fd : Fd) (events : Events) (env : Environment) (owned : Owned server)
    (d : Daemon σ) : Bool × Daemon σ :=
  let (alive, owned) := owned.onWritable events env.writes
  let d := d.modifySession server fd fun _ => owned
  if alive && has events EPOLLIN then d.onReadable M server fd events env owned else (alive, d)

/-- `handleClient`, and the callback of `createPty`. -/
def handleClient (server : Server) (fd : Fd) (events : Events) (env : Environment) (d : Daemon σ) :
    Outcome (Daemon σ) :=
  match d.session? server fd with
  | none => .returned d
  | some owned =>
    let (alive, d) := d.serve M server fd events env owned
    if !alive then .returned (d.removeSession server fd) else d.updateEvents server fd

/-- The callback of the timer in `main`. -/
def networkTimer (events : Events) (order : IterationOrder) (d : Daemon σ) : Daemon σ :=
  if !has events EPOLLIN then d
  else
    let (modem, _, published) := M.networkSearchComplete d.modem
    publishAll order published { d with modem }

/-- What the event loop calls. -/
def call (events : Events) (env : Environment) (d : Daemon σ) : Callback → Outcome (Daemon σ)
  | .signal => .returned { d with loop := d.loop.stop }
  | .acceptClients => d.acceptClients events env.accepts
  | .networkTimer => .returned (d.networkTimer M events env.order)
  | .session server fd => d.handleClient M server fd events env

/-- An event for a descriptor without a callback is skipped. -/
def perform (d : Daemon σ) : Step → Outcome (Daemon σ)
  | .createPty pty registers => d.createPty pty registers
  | .deliver fd events env =>
    match d.loop.callbacks.lookup fd with
    | none => .returned d
    | some callback => d.call M events env callback
  | .publish order event => .returned (d.publish order event)

end

/-- No new descriptor is one that is open. -/
def fresh : List Fd → List AcceptResult → Bool
  | _, [] => true
  | openFds, .client fd _ :: accepts => 0 ≤ fd && fd ∉ openFds && fresh (fd :: openFds) accepts
  | openFds, _ :: accepts => fresh openFds accepts

/-- What the kernel may do. -/
def possible {σ : Type*} (d : Daemon σ) : Step → Bool
  | .createPty none _ => true
  | .createPty (some (master, slave)) _ => fresh d.openFds [.client master true, .client slave true]
  | .deliver _ _ env => fresh d.openFds env.accepts
  | .publish _ _ => true

/-- The process as a system: a step that throws ends the run. SIGPIPE would only end it earlier, and is left
to `main`. -/
def system {σ : Type*} (M : MiniModem.Modem σ) : System (Daemon σ) Step where
  step d step := if d.possible step then (d.perform M step).value? else none

/-- What a step does that is possible and does not throw. -/
inductive Effect {σ : Type*} (M : MiniModem.Modem σ) (d : Daemon σ) : Step → Daemon σ → Prop
  | createPty {master slave : Fd} {registers : Bool} {d' : Daemon σ} (new : master ∉ d.openFds)
      (run : d.create .atServer master registers = .returned d') :
      Effect M d (.createPty (some (master, slave)) registers) d'
  | skipped {fd : Fd} {events : Events} {env : Environment}
      (callback : d.loop.callbacks.lookup fd = none) : Effect M d (.deliver fd events env) d
  | stopped {fd : Fd} {events : Events} {env : Environment}
      (callback : d.loop.callbacks.lookup fd = some .signal) :
      Effect M d (.deliver fd events env) { d with loop := d.loop.stop }
  | accepted {fd : Fd} {events : Events} {env : Environment} {accepts : List AcceptResult}
      {d' : Daemon σ} (callback : d.loop.callbacks.lookup fd = some .acceptClients)
      (new : fresh d.openFds accepts = true) (run : acceptLoop accepts d = .returned d') :
      Effect M d (.deliver fd events env) d'
  | timer {fd : Fd} {events : Events} {env : Environment}
      (callback : d.loop.callbacks.lookup fd = some .networkTimer) :
      Effect M d (.deliver fd events env) (d.networkTimer M events env.order)
  | served {fd fd' : Fd} {events : Events} {env : Environment} {server : Server} {d' : Daemon σ}
      (callback : d.loop.callbacks.lookup fd = some (.session server fd'))
      (run : d.handleClient M server fd' events env = .returned d') :
      Effect M d (.deliver fd events env) d'
  | published {order : IterationOrder} {event : ModemEvent} :
      Effect M d (.publish order event) (d.publish order event)

/-- One case for each kind of step and each kind of callback. -/
lemma step_effect {σ : Type*} {M : MiniModem.Modem σ} {d d' : Daemon σ} {step : Step}
    (run : (system M).step d step = some d') : Effect M d step d' := by
  simp only [system] at run
  split at run
  · next possible =>
    rw [Outcome.value?_eq_some] at run
    cases step with
    | createPty pty registers =>
      cases pty with
      | none => cases run
      | some pty =>
        simp only [Daemon.possible, fresh, Bool.and_eq_true, decide_eq_true_eq] at possible
        exact .createPty possible.1.2 run
    | deliver fd events env =>
      rw [perform] at run
      rcases callback : d.loop.callbacks.lookup fd with _ | callback'
      · rw [callback] at run
        cases run
        exact .skipped callback
      · rw [callback] at run
        cases callback' with
        | signal =>
          cases run
          exact .stopped callback
        | acceptClients =>
          simp only [call, acceptClients] at run
          split at run
          · cases run
            exact @Effect.accepted _ _ _ _ _ _ [] _ callback rfl rfl
          · exact .accepted callback possible run
        | networkTimer =>
          cases run
          exact .timer callback
        | session server fd' => exact .served callback run
    | publish order event =>
      cases run
      exact .published
  · cases run

/-- Three descriptors, and others that the process has open. -/
structure Descriptors where
  signalFd : Fd
  listenFd : Fd
  timerFd : Fd
  others : List Fd
  distinct : [signalFd, listenFd, timerFd].Nodup

/-- The event loop with the callbacks that `EventLoop`, `qmi::Server` and `main` register. -/
def Descriptors.loop (fds : Descriptors) : EventLoop Callback where
  epoll := ⟨((AList.insert fds.signalFd EPOLLIN ∅).insert fds.listenFd EPOLLIN).insert fds.timerFd
    EPOLLIN⟩
  callbacks :=
    UnorderedMap.emplace fds.timerFd .networkTimer
      (UnorderedMap.emplace fds.listenFd .acceptClients
        (UnorderedMap.emplace fds.signalFd .signal ∅))

/-- The registrations succeed. -/
lemma Descriptors.loop_registered (fds : Descriptors) :
    ((EventLoop.addFd true fds.signalFd EPOLLIN Callback.signal {}).andThen fun loop =>
      (loop.addFd true fds.listenFd EPOLLIN .acceptClients).andThen fun loop =>
        loop.addFd true fds.timerFd EPOLLIN .networkTimer) = .returned fds.loop := by
  have distinct := fds.distinct
  simp only [List.nodup_cons, List.mem_cons, List.not_mem_nil, or_false, not_or] at distinct
  obtain ⟨⟨ne, ne'⟩, ne'', -⟩ := distinct
  rw [Outcome.andThen_eq_returned]
  refine ⟨_, EventLoop.addFd_returned.mpr ⟨⟨rfl, AList.notMem_empty _⟩, rfl⟩, ?_⟩
  rw [Outcome.andThen_eq_returned]
  refine ⟨_, EventLoop.addFd_returned.mpr ⟨⟨rfl, ?_⟩, rfl⟩, ?_⟩
  · simpa only [AList.mem_insert, AList.notMem_empty, or_false] using Ne.symm ne
  · refine EventLoop.addFd_returned.mpr ⟨⟨rfl, ?_⟩, rfl⟩
    simpa only [AList.mem_insert, AList.notMem_empty, or_false, not_or] using
      ⟨Ne.symm ne'', Ne.symm ne'⟩

/-- The process when `main` enters the loop, but for the session of the first PTY: creating it is the
first step of a run. -/
def boot {σ : Type*} (fds : Descriptors) (modem : σ) : Daemon σ where
  signalFd := fds.signalFd
  listenFd := fds.listenFd
  timerFd := fds.timerFd
  openFds := [fds.signalFd, fds.listenFd, fds.timerFd] ++ fds.others
  loop := fds.loop
  modem

/-- The descriptors that the process has when it starts. -/
def sampleDescriptors : Descriptors := ⟨4, 6, 5, [0, 1, 2, 3], by decide⟩

end Daemon

end MiniModem
