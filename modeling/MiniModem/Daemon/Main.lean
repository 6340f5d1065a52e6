import MiniModem.Daemon.Unwinding
import MiniModem.Transport.OutboxRuns

/-!
# The life of the process

`main`, from its start to its end, with the constructors of `EventLoop` and of `qmi::Server`, which may
throw at any point, the loop of `EventLoop::run`, and the destructors that run in whatever state an
exception has left. `TimerFd` is not part of the repository: its constructor may throw, and what its
destructor closes is not counted. Nothing is done about SIGPIPE, which kills the process when a client has
stopped reading and its session writes.

What is known when the loop ends, by a return, an exception or SIGPIPE, is `serveClients_ended`.
-/

namespace MiniModem.Daemon
open Lib Transport Modem

/-- What `epoll_wait` reports: a batch of events, or an error. -/
abbrev Wait := Option (List Event)

/-- What the system calls of `main` report; a descriptor is -1 if there is none. The constructor of `TimerFd`
makes a descriptor or throws. `unlink` may fail in the constructor of the server and in its destructor. -/
structure Kernel where
  epollFd : Fd
  signalFd : Fd
  signalRegisters : Bool
  timerFd : Option Fd
  listenFd : Fd
  unlink : Bool
  bind : Bool
  listen : Bool
  listenRegisters : Bool
  pty : Option (Fd × Fd)
  ptyRegisters : Bool
  timerRegisters : Bool
  waits : List Wait
  unlinkAtEnd : Bool

/-- How the process ends. -/
inductive Ending
  | exited (code : ℕ)
  | killed
  deriving DecidableEq, Repr

/-- How a part of `main` ends: it returns or throws, or the process is killed in it. -/
inductive Course (α : Type*)
  | returned (state : α)
  | threw (state : α)
  | killed (state : α)

section
variable {σ : Type*}

/-- The process, and whether there is a file under the path of the socket. -/
structure Process (σ : Type*) where
  daemon : Daemon σ
  socketFile : Bool

/-- How the process ends, and what it leaves. -/
structure Exit (σ : Type*) where
  ending : Ending
  process : Process σ

/-- A system call has returned a descriptor. -/
def openFd (fd : Fd) (d : Daemon σ) : Daemon σ :=
  if fd = -1 then d else { d with openFds := fd :: d.openFds }

/-- `~EventLoop`: the members go, `signalFd_` first and then `epoll_`. -/
def destroyLoop (k : Kernel) (d : Daemon σ) : Daemon σ :=
  (if k.signalFd ≠ -1 then d.close k.signalFd else d).close k.epollFd

/-- `EventLoop::EventLoop`. Only `Epoll` looks at its descriptor; that of `SignalFd` may be -1, and then it
cannot be added. -/
def createLoop (k : Kernel) (d : Daemon σ) : Outcome (Daemon σ) :=
  if k.epollFd = -1 then .threw d
  else
    let d := { (d.openFd k.epollFd).openFd k.signalFd with signalFd := k.signalFd }
    match d.loop.addFd (k.signalRegisters && k.signalFd != -1) k.signalFd EPOLLIN .signal with
    | .returned loop => .returned { d with loop }
    | .threw loop => .threw (({ d with loop } : Daemon σ).destroyLoop k)

/-- `sizeof(address.sun_path)` -/
def sunPathSize : ℕ := 108

/-- `qmi::Server::Server`. The result of `unlink` is not looked at; `bind` makes the file, and cannot do so if
it is still there. The errors before the registration close the socket, and a registration that fails does
not. -/
def createServer (k : Kernel) (path : Bytes) (p : Process σ) : Outcome (Process σ) :=
  if k.listenFd = -1 then .threw p
  else
    let daemon := { p.daemon.openFd k.listenFd with listenFd := k.listenFd }
    let socketFile := p.socketFile && !k.unlink
    if path.length ≥ sunPathSize then .threw ⟨daemon.close k.listenFd, socketFile⟩
    else if !k.bind || socketFile then .threw ⟨daemon.close k.listenFd, socketFile⟩
    else if !k.listen then .threw ⟨daemon.close k.listenFd, true⟩
    else
      (daemon.loop.addFd k.listenRegisters k.listenFd EPOLLIN .acceptClients).map fun loop =>
        ⟨{ daemon with loop }, true⟩

variable (M : MiniModem.Modem σ)

/-- The session whose `write` raises SIGPIPE, with what it has written before. There is none if no `write`
fails. -/
def brokenPipe? (event : Event) (d : Daemon σ) : Option (Fd × Owned .qmiServer) :=
  match d.loop.callbacks.lookup event.fd with
  | some (.session .qmiServer fd) =>
    (d.session? .qmiServer fd).bind fun owned =>
      if !has event.events (EPOLLHUP ||| EPOLLERR) && has event.events EPOLLOUT &&
          (owned.session.outbox.writeCalls event.env.writes).any fun call => call.result = .error then
        some (fd, (owned.onWritable event.events event.env.writes).2)
      else none
  | _ => none

/-- The inner loop of `EventLoop::run`. There is no result if the kernel does what it cannot do. -/
def work : List Event → Daemon σ → Option (Course (Daemon σ))
  | [], d => some (.returned d)
  | event :: batch, d =>
    if d.possible event.step then
      if event.env.sigpipe then
        (d.brokenPipe? event).map fun (fd, owned) =>
          .killed (d.modifySession .qmiServer fd fun _ => owned)
      else
        match d.perform M event.step with
        | .returned d => work batch d
        | .threw d => some (.threw d)
    else none

/-- The outer loop. There is no result as long as it waits. -/
def turns : List Wait → Daemon σ → Option (Course (Daemon σ))
  | [], d => if d.loop.running then none else some (.returned d)
  | wait :: waits, d =>
    if d.loop.running then
      match wait with
      | none => some (.threw d)
      | some batch =>
        match work M batch d with
        | none => none
        | some (.returned d) => turns waits d
        | some (.threw d) => some (.threw d)
        | some (.killed d) => some (.killed d)
    else some (.returned d)

/-- What `main` does when all objects are there. -/
def serveClients (k : Kernel) (d : Daemon σ) : Option (Course (Daemon σ)) :=
  if d.possible (.createPty k.pty k.ptyRegisters) then
    match (d.createPty k.pty k.ptyRegisters).andThen fun d =>
        (d.loop.addFd k.timerRegisters d.timerFd EPOLLIN .networkTimer).map fun loop => { d with loop } with
    | .returned d => turns M k.waits d.entered
    | .threw d => some (.threw d)
  else none

/-- `main`. An object is destroyed when the block is left in which it has been constructed; in a process that is
killed no destructor runs. -/
def main (order : SessionOrder) (path : Bytes) (k : Kernel) (p : Process σ) : Option (Exit σ) :=
  match createLoop k p.daemon with
  | .threw daemon => some ⟨.exited 1, { p with daemon }⟩
  | .returned daemon =>
    match k.timerFd with
    | none => some ⟨.exited 1, { p with daemon := daemon.destroyLoop k }⟩
    | some timerFd =>
      match createServer k path { p with daemon := { daemon.openFd timerFd with timerFd } } with
      | .threw p =>
        some ⟨.exited 1, { p with daemon := (p.daemon.destructor .atServer order).destroyLoop k }⟩
      | .returned p =>
        match serveClients M k p.daemon with
        | none => none
        | some (.returned d) => some ⟨.exited 0, ⟨(d.unwind order).destroyLoop k, !k.unlinkAtEnd⟩⟩
        | some (.threw d) => some ⟨.exited 1, ⟨(d.unwind order).destroyLoop k, !k.unlinkAtEnd⟩⟩
        | some (.killed d) => some ⟨.killed, { p with daemon := d }⟩

/-- What `main` starts with. -/
def start (openFds : List Fd) (modem : σ) (socketFile : Bool) : Process σ :=
  ⟨{ signalFd := -1, listenFd := -1, timerFd := -1, openFds, modem }, socketFile⟩

end

namespace Kernel

/-- The descriptors that the system calls return. -/
def fds (k : Kernel) : List Fd :=
  [k.epollFd, k.signalFd, k.listenFd].filter (· ≠ -1) ++ k.timerFd.toList

/-- New descriptors are not open. -/
structure Possible (k : Kernel) (openFds : List Fd) : Prop where
  new : ∀ fd ∈ k.fds, 0 ≤ fd ∧ fd ∉ openFds
  once : k.fds.Nodup

/-- The event loop is constructed. -/
def loops (k : Kernel) : Bool := k.epollFd != -1 && k.signalFd != -1 && k.signalRegisters

/-- `qmi::Server` gets a socket, and comes to `unlink`. -/
def opens (k : Kernel) : Bool := k.loops && k.timerFd.isSome && k.listenFd != -1

/-- A file that has been there stays. -/
def stale (k : Kernel) (socketFile : Bool) : Bool := socketFile && !(k.opens && k.unlink)

/-- The socket is bound to its path, where it has a file. -/
def binds (k : Kernel) (path : Bytes) (socketFile : Bool) : Bool :=
  k.opens && decide (path.length < sunPathSize) && k.bind && !k.stale socketFile

/-- The socket cannot be registered. -/
def leaks (k : Kernel) (path : Bytes) (socketFile : Bool) : Bool :=
  k.binds path socketFile && k.listen && !k.listenRegisters

/-- The server is there. -/
def serves (k : Kernel) (path : Bytes) (socketFile : Bool) : Bool :=
  k.binds path socketFile && k.listen && k.listenRegisters

/-- The descriptors that are open when `main` has ended, that of the timer among them. -/
def left (k : Kernel) (path : Bytes) (openFds : List Fd) (socketFile : Bool) : List Fd :=
  (if k.leaks path socketFile then [k.listenFd] else []) ++ (if k.loops then k.timerFd.toList else []) ++
    openFds

/-- Whether the file of the socket is there when `main` has ended. -/
def leavesFile (k : Kernel) (path : Bytes) (socketFile : Bool) : Bool :=
  if k.binds path socketFile then !(k.serves path socketFile && k.unlinkAtEnd) else k.stale socketFile

end Kernel

variable {σ : Type*} {M : MiniModem.Modem σ} {fds : Descriptors} {d c : Daemon σ}

/-! ### The loop -/

/-- The accounts depend on the entries of the event loop, and not on their order. -/
lemma Accounts.of_twin (accounts : Accounts fds d) (t : Twin [] d c) (same : c.sessions = d.sessions)
    (fixed : c.signalFd = d.signalFd ∧ c.timerFd = d.timerFd)
    (callbacks : ∀ fd, c.loop.callbacks.lookup fd = d.loop.callbacks.lookup fd)
    (interest : ∀ fd, fd ∈ c.loop.epoll.interest ↔ fd ∈ d.loop.epoll.interest) : Accounts fds c := by
  obtain ⟨⟨⟨⟨⟨w, sub⟩, recorded⟩, based⟩, accounted, created⟩, valid, held⟩ := accounts
  have perm : c.openFds.Perm d.openFds := t.openFds.trans (.of_eq (List.filter_eq_self.mpr (by simp)))
  have mem : ∀ fd, fd ∈ c.loop.callbacks ↔ fd ∈ d.loop.callbacks := by
    intro fd
    rw [UnorderedMap.mem_iff_lookup, UnorderedMap.mem_iff_lookup, callbacks]
  obtain ⟨signalFd, listenFd, timerFd, openFds, loop, eventBus, modem, sessions, allocated, destroyed⟩ := c
  obtain ⟨listen, bus, number, gone, -⟩ := t
  simp only at same fixed listen bus number gone callbacks interest perm mem
  obtain ⟨rfl, rfl⟩ := fixed
  subst same listen bus number gone
  have w' : Watched (⟨d.signalFd, d.listenFd, d.timerFd, openFds, loop, d.eventBus, modem, d.sessions,
      d.allocated, d.destroyed⟩ : Daemon σ) := by
    refine ⟨?_, ?_, w.own, ?_⟩
    · intro fd
      exact (interest fd).trans ((w.interest fd).trans (mem fd).symm)
    · intro fd callback
      rw [callbacks, w.callback]
      rfl
    · intro fd there
      exact perm.mem_iff.mpr (w.isOpen fd ((mem fd).mp there))
  refine ⟨⟨⟨⟨⟨w', sub.counter, sub.subscription, sub.unique, sub.handlers⟩, recorded.lt, recorded.gone,
    recorded.unique⟩, based.listenFd, ?_, based.free⟩, accounted, created⟩, valid, perm.trans held⟩
  exact fun fd there => perm.mem_iff.mpr (based.opened fd there)

/-- A state whose accounts are in order can be unwound. -/
lemma Accounts.recoverable (accounts : Accounts fds d) : Recoverable fds d :=
  ⟨d, accounts, Twin.of_loop d d.loop, rfl⟩

/-- A QMI session is there that has not sent all of its output. -/
def Unsent (d : Daemon σ) : Prop :=
  ∃ fd owned, d.session? .qmiServer fd = some owned ∧ owned.session.hasPendingOutput = true

/-- What is known of the process when a part of `main` has ended. -/
inductive EndsIn (fds : Descriptors) : Course (Daemon σ) → Prop
  | returned {d : Daemon σ} (accounts : Accounts fds d) : EndsIn fds (.returned d)
  | threw {d : Daemon σ} (recoverable : Recoverable fds d) : EndsIn fds (.threw d)
  | killed {d : Daemon σ} (accounts : Accounts fds d) (unsent : d.Unsent) : EndsIn fds (.killed d)

/-- The bytes of the `write` that raises SIGPIPE are still pending. -/
lemma brokenPipe?_some {event : Event} {fd : Fd} {owned : Owned .qmiServer}
    (broken : d.brokenPipe? event = some (fd, owned)) :
    SameFrame d (d.modifySession .qmiServer fd fun _ => owned) ∧
      (d.modifySession .qmiServer fd fun _ => owned).Unsent := by
  rw [brokenPipe?] at broken
  split at broken
  · obtain ⟨before, here, broken⟩ := Option.bind_eq_some_iff.mp broken
    split at broken
    · next failed =>
      cases broken
      simp only [Bool.and_eq_true, Bool.not_eq_true', List.any_eq_true, decide_eq_true_eq] at failed
      obtain ⟨⟨alive, writable⟩, failed⟩ := failed
      refine ⟨SameFrame.modifySession fun owned' here' => ?_, fd,
        (before.onWritable event.events event.env.writes).2, ?_, ?_⟩
      · rw [here] at here'
        cases here'
        simp [Owned.onWritable, Session.onWritable, writable, alive, Owned.identity]
      · rw [session?_modifySession_self, here]
        rfl
      · simp [Owned.onWritable, Session.onWritable, writable, alive, Session.hasPendingOutput,
          Outbox.flush_failed failed]
    · cases broken
  · cases broken

/-- What is known when the inner loop has ended. -/
lemma work_ended {batch : List Event} (accounts : Accounts fds d) {course : Course (Daemon σ)}
    (run : work M batch d = some course) : EndsIn fds course := by
  induction batch generalizing d with
  | nil =>
    cases run
    exact .returned accounts
  | cons event batch ih =>
    rw [work] at run
    split at run
    · next possible =>
      split at run
      · obtain ⟨⟨fd, owned⟩, broken, rfl⟩ := Option.map_eq_some_iff.mp run
        obtain ⟨same, unsent⟩ := brokenPipe?_some broken
        exact .killed (accounts.of_same same) unsent
      · rcases first : d.perform M event.step with between | thrown
        · rw [first] at run
          have taken : (system M).step d event.step = some between := by
            simp only [system, possible, if_true, first]
            rfl
          exact ih (step_accounts accounts taken) run
        · rw [first] at run
          cases run
          exact .threw (perform_recoverable accounts possible first)
    · cases run

/-- What is known when the outer loop has ended. -/
lemma turns_ended {waits : List Wait} (accounts : Accounts fds d) {course : Course (Daemon σ)}
    (run : turns M waits d = some course) : EndsIn fds course := by
  induction waits generalizing d with
  | nil =>
    rw [turns] at run
    split at run
    · cases run
    · cases run
      exact .returned accounts
  | cons wait waits ih =>
    cases wait with
    | none =>
      rw [turns] at run
      split at run
      · cases run
        exact .threw accounts.recoverable
      · cases run
        exact .returned accounts
    | some batch =>
      rw [turns] at run
      split at run
      · rcases first : work M batch d with _ | ended
        · simp only [first] at run
          cases run
        · have ended' := work_ended accounts first
          simp only [first] at run
          cases ended' with
          | returned accounts' => exact ih accounts' run
          | threw recoverable =>
            cases run
            exact .threw recoverable
          | killed accounts' unsent =>
            cases run
            exact .killed accounts' unsent
      · cases run
        exact .returned accounts

/-- The servers are there, and the timer is not registered yet. -/
structure Booted (fds : Descriptors) (modem : σ) (d : Daemon σ) : Prop where
  twin : Twin [] (boot fds modem) d
  sessions : d.sessions = (boot fds modem).sessions
  signalFd : d.signalFd = fds.signalFd
  timerFd : d.timerFd = fds.timerFd
  callbacks : d.loop.callbacks = UnorderedMap.emplace fds.listenFd .acceptClients
    (UnorderedMap.emplace fds.signalFd .signal ∅)
  interest : d.loop.epoll.interest = (AList.insert fds.signalFd EPOLLIN ∅).insert fds.listenFd EPOLLIN

/-- The first session is created and the timer registered, in the order of `main`. -/
lemma Booted.accounts {modem : σ} (booted : Booted fds modem d) {master : Fd} (valid : 0 ≤ master)
    (new : master ∉ (boot fds modem).openFds) {timer running : Bool} {loop loop' : EventLoop Callback}
    (added : d.loop.addFd true master sessionEvents (.session .atServer master) = .returned loop)
    (added' : loop.addFd timer fds.timerFd EPOLLIN .networkTimer = .returned loop') :
    Accounts fds { d.withSession .atServer master with loop := { loop' with running } } := by
  obtain ⟨e, -, made, accounts, t, same⟩ := booted.twin.create (boot_accounts fds modem) booted.sessions
    .atServer valid new { loop' with running }
  obtain ⟨-, rfl⟩ := EventLoop.addFd_returned.mp added
  obtain ⟨-, rfl⟩ := EventLoop.addFd_returned.mp added'
  have ne : fds.timerFd ≠ master := by
    rintro rfl
    exact new (by simp [boot])
  refine accounts.of_twin t same ⟨?_, ?_⟩ ?_ ?_
  · exact booted.signalFd.trans made.fixed.1.symm
  · exact booted.timerFd.trans made.fixed.2.2.symm
  · intro fd
    rw [made.callbacks]
    simp only [booted.callbacks]
    exact UnorderedMap.lookup_emplace_comm ne _ _ _ fd
  · intro fd
    rw [made.interest]
    simp only [booted.interest, boot, Descriptors.loop, AList.mem_insert, AList.notMem_empty]
    tauto

/-- The master of the first PTY is new, as the descriptors of the servers are all there is. -/
lemma Booted.newcomer {modem : σ} (booted : Booted fds modem d) {pty : Fd × Fd} {registers : Bool}
    (possible : d.possible (.createPty (some pty) registers) = true) :
    0 ≤ pty.1 ∧ pty.1 ∉ (boot fds modem).openFds ∧ d.session? .atServer pty.1 = none := by
  simp only [Daemon.possible, fresh, Bool.and_eq_true, decide_eq_true_eq] at possible
  obtain ⟨⟨valid, closed⟩, -⟩ := possible
  refine ⟨valid, ?_, ?_⟩
  · intro mem
    refine closed (booted.twin.openFds.mem_iff.mpr ?_)
    simpa using mem
  · rw [session?, booted.sessions]
    rfl

/-- The kernel refuses a descriptor. -/
lemma addFd_false (fd : Fd) (events : Events) (callback : Callback) (loop : EventLoop Callback) :
    loop.addFd false fd events callback = .threw loop := rfl

/-- The kernel registers the PTY and the timer, and `main` enters the loop, or it throws before. -/
lemma Booted.serveClients_cases {k : Kernel} {modem : σ} (booted : Booted fds modem d)
    {course : Course (Daemon σ)} (run : serveClients M k d = some course) :
    ((k.pty.isSome && k.ptyRegisters && k.timerRegisters) = true ∧ ∃ d', Accounts fds d' ∧
        d'.signalFd = fds.signalFd ∧ d'.loop.running = true ∧ turns M k.waits d' = some course) ∨
      ((k.pty.isSome && k.ptyRegisters && k.timerRegisters) = false ∧ ∃ d', course = .threw d' ∧
        Recoverable fds d') := by
  have start := boot_accounts fds modem
  rw [serveClients] at run
  split at run
  · next possible =>
    rcases pty : k.pty with _ | pty'
    · rw [pty] at run
      cases run
      exact .inr ⟨rfl, _, rfl, _, start, booted.twin, booted.sessions⟩
    · rw [pty] at run possible
      obtain ⟨valid, new, none⟩ := booted.newcomer possible
      have distinct := fds.distinct
      simp only [List.nodup_cons, List.mem_cons, List.not_mem_nil, or_false, not_or] at distinct
      obtain ⟨⟨-, ne⟩, ne', -⟩ := distinct
      have new' := new
      simp only [boot, List.cons_append, List.nil_append, List.mem_cons, not_or] at new'
      -- whatever the loop is, the session stays
      have thrown : ∀ loop : EventLoop Callback,
          Recoverable fds { d.withSession .atServer pty'.1 with loop } := by
        intro loop
        obtain ⟨e, -, -, accounts, t, same⟩ :=
          booted.twin.create start booted.sessions .atServer valid new loop
        exact ⟨e, accounts, t, same⟩
      -- neither descriptor is in the interest list
      have absent : pty'.1 ∉ d.loop.epoll.interest := by
        simp only [booted.interest, AList.mem_insert, AList.notMem_empty, or_false, not_or]
        exact ⟨new'.2.1, new'.1⟩
      simp only [createPty, create_eq none] at run
      cases registers : k.ptyRegisters with
      | false =>
        simp only [registers, addFd_false, Outcome.map, Outcome.andThen] at run
        cases run
        exact .inr ⟨rfl, _, rfl, thrown d.loop⟩
      | true =>
        obtain ⟨loop, added⟩ : ∃ loop, d.loop.addFd true pty'.1 sessionEvents (.session .atServer pty'.1) =
            .returned loop := ⟨_, EventLoop.addFd_returned.mpr ⟨⟨rfl, absent⟩, rfl⟩⟩
        have timerFd : (d.withSession .atServer pty'.1).timerFd = fds.timerFd := booted.timerFd
        simp only [registers, added, Outcome.map, Outcome.andThen] at run
        cases registers' : k.timerRegisters with
        | false =>
          simp only [registers', addFd_false] at run
          cases run
          exact .inr ⟨rfl, _, rfl, thrown loop⟩
        | true =>
          have absent' : fds.timerFd ∉ loop.epoll.interest := by
            obtain ⟨-, rfl⟩ := EventLoop.addFd_returned.mp added
            simp only [booted.interest, AList.mem_insert, AList.notMem_empty, or_false, not_or]
            exact ⟨Ne.symm new'.2.2.1, Ne.symm ne', Ne.symm ne⟩
          obtain ⟨loop', added'⟩ : ∃ loop', loop.addFd true (d.withSession .atServer pty'.1).timerFd EPOLLIN
              .networkTimer = .returned loop' :=
            ⟨_, EventLoop.addFd_returned.mpr ⟨⟨rfl, timerFd ▸ absent'⟩, rfl⟩⟩
          simp only [registers', added'] at run
          rw [timerFd] at added'
          exact .inl ⟨rfl, _, booted.accounts valid new added added', booted.signalFd, rfl, run⟩
  · cases run

/-- What is known when `main` comes to its end with all objects there. -/
lemma serveClients_ended {k : Kernel} {modem : σ} (booted : Booted fds modem d)
    {course : Course (Daemon σ)} (run : serveClients M k d = some course) : EndsIn fds course := by
  rcases booted.serveClients_cases run with ⟨-, d', accounts, -, -, run'⟩ | ⟨-, d', rfl, recoverable⟩
  · exact turns_ended accounts run'
  · exact .threw recoverable

end MiniModem.Daemon
