import MiniModem.Daemon.Sessions
import MiniModem.Transport.OutboxRuns

/-!
# Blocking calls

The loops around `read` and `write` end when a call reports EAGAIN, which it does on a descriptor in
non-blocking mode only; on any other descriptor the call waits, and with it the only thread of the
process. `accept4` is asked for non-blocking sockets. `openpty` returns descriptors in blocking mode, and
nothing changes that of the master. So no call blocks exactly in the runs in which no AT session reads
or writes (`nonBlocking_iff`).
-/

namespace MiniModem.Daemon
open Lib Transport Modem

/-- The mode of a descriptor. -/
inductive Mode
  | blocking | nonBlocking
  deriving DecidableEq, Repr

/-- The modes after the calls of `accept4`, with SOCK_NONBLOCK. -/
def acceptedModes : List AcceptResult → (Fd → Mode) → Fd → Mode
  | [], modes => modes
  | .client fd _ :: accepts, modes => acceptedModes accepts (Function.update modes fd .nonBlocking)
  | .eintr :: accepts, modes => acceptedModes accepts modes
  | .eagain :: _, modes => modes
  | .error :: _, modes => modes

section
variable {σ : Type*}

/-- The modes of the descriptors after a step. -/
def modesAfter (d : Daemon σ) (step : Step) (modes : Fd → Mode) : Fd → Mode :=
  match step with
  | .createPty none _ => modes
  | .createPty (some (master, _)) _ => Function.update modes master .blocking
  | .deliver fd events env =>
    if d.loop.callbacks.lookup fd = some .acceptClients ∧ has events EPOLLIN = true then
      acceptedModes env.accepts modes
    else modes
  | .publish _ _ => modes

/-- The process, with the modes of its descriptors. -/
def modedSystem (M : MiniModem.Modem σ) : System (Daemon σ × (Fd → Mode)) Step :=
  (system M).observed modesAfter

end

/-- A call of `read` or `write`: its descriptor, and whether it finds nothing to read or no room. -/
structure IoCall where
  fd : Fd
  waits : Bool

/-- What the calls of `read` in the loop of `onReadable` report. -/
def readCalls : List ReadResult → List ReadResult
  | [] => [.eagain]
  | .bytes data :: reads => .bytes data :: if data.length > 0 then readCalls reads else []
  | .eintr :: reads => .eintr :: readCalls reads
  | .eagain :: _ => [.eagain]
  | .error :: _ => [.error]

/-- The loop reads at least once. -/
lemma readCalls_ne_nil (reads : List ReadResult) : readCalls reads ≠ [] := by
  rcases reads with _ | ⟨_ | _ | _ | _, reads⟩
  all_goals simp [readCalls]

/-- The loop returns `true` exactly if its last call finds nothing to read. -/
lemma drained_iff_readCalls (reads : List ReadResult) :
    drained reads = true ↔ (readCalls reads).getLast? = some .eagain := by
  induction reads with
  | nil => simp [drained, readCalls]
  | cons read reads ih =>
    obtain ⟨call, calls, e⟩ := List.exists_cons_of_ne_nil (readCalls_ne_nil reads)
    cases read with
    | bytes data =>
      by_cases some : data.length > 0
      · rw [readCalls, if_pos some, e, List.getLast?_cons_cons, ← e]
        simpa [drained, some] using ih
      · simp [drained, readCalls, some]
    | eintr =>
      rw [readCalls, e, List.getLast?_cons_cons, ← e]
      exact ih
    | eagain => simp [drained, readCalls]
    | error => simp [drained, readCalls]

/-- The calls of `write` in the callback of a session. -/
def writesIssued {server : Server} (events : Events) (env : Environment) (owned : Owned server) :
    List IoCall :=
  if has events EPOLLOUT && !has events (EPOLLHUP ||| EPOLLERR) then
    (owned.session.outbox.writeCalls env.writes).map fun call =>
      { fd := owned.session.fd, waits := call.result = .eagain }
  else []

/-- The calls of `read` in the callback of a session. -/
def readsIssued {server : Server} (events : Events) (env : Environment) (owned : Owned server) :
    List IoCall :=
  if (owned.onWritable events env.writes).1 && has events EPOLLIN &&
      !has events (EPOLLHUP ||| EPOLLERR) then
    (readCalls env.reads).map fun result => { fd := owned.session.fd, waits := result = .eagain }
  else []

section
variable {σ : Type*}

/-- The calls of `read` and `write` that sessions make in a step. -/
def issued (d : Daemon σ) : Step → List IoCall
  | .createPty _ _ => []
  | .deliver fd events env =>
    match d.loop.callbacks.lookup fd with
    | some (.session server fd) =>
      match d.session? server fd with
      | none => []
      | some owned => writesIssued events env owned ++ readsIssued events env owned
    | _ => []
  | .publish _ _ => []

/-- All of them are on descriptors in non-blocking mode. -/
def NonBlocking (s : Daemon σ × (Fd → Mode)) (step : Step) : Prop :=
  ∀ call ∈ issued s.1 step, s.2 call.fd = .nonBlocking

/-- One of them waits, and the event loop with it. -/
def Suspends (s : Daemon σ × (Fd → Mode)) (step : Step) : Prop :=
  ∃ call ∈ issued s.1 step, call.waits = true ∧ s.2 call.fd = .blocking

/-- An event makes an AT session read, or write what it has pending. -/
def ServesPty (d : Daemon σ) (step : Step) : Prop :=
  ∃ fd events env owned, step = .deliver fd events env ∧ d.session? .atServer fd = some owned ∧
    has events (EPOLLHUP ||| EPOLLERR) = false ∧
    (has events EPOLLIN = true ∨ has events EPOLLOUT = true ∧ owned.session.hasPendingOutput = true)

/-- The mode in which a session gets its descriptor. -/
def Server.mode : Server → Mode
  | atServer => .blocking
  | qmiServer => .nonBlocking

/-- The descriptors of the sessions are in the mode in which they were opened. -/
def Moded (s : Daemon σ × (Fd → Mode)) : Prop :=
  ∀ server fd owned, s.1.session? server fd = some owned → s.2 fd = server.mode

variable {M : MiniModem.Modem σ}

/-- A new session gets its descriptor in the mode of its server. -/
lemma Moded.of_created {d d' : Daemon σ} {modes : Fd → Mode} (w : Watched d) (moded : Moded (d, modes))
    {server : Server} {fd : Fd} (new : fd ∉ d.openFds) (c : Created server fd d d') :
    Moded (d', Function.update modes fd server.mode) := by
  refine c.sessions (P := fun server' fd' _ => Function.update modes fd server.mode fd' = server'.mode)
    (Function.update_self _ _ _) ?_
  intro server' fd' owned here
  rw [Function.update_of_ne]
  · exact moded server' fd' owned here
  · rintro rfl
    rw [w.none_of_not_open new server'] at here
    cases here

/-- The clients that are accepted are in non-blocking mode. -/
lemma acceptLoop_moded {accepts : List AcceptResult} {d d' : Daemon σ} {modes : Fd → Mode}
    (w : Watched d) (moded : Moded (d, modes)) (new : fresh d.openFds accepts = true)
    (run : acceptLoop accepts d = .returned d') : Moded (d', acceptedModes accepts modes) := by
  induction accepts generalizing d modes with
  | nil =>
    cases run
    exact moded
  | cons accept accepts ih =>
    cases accept with
    | client fd registers =>
      obtain ⟨d'', first, rest⟩ := Outcome.andThen_eq_returned.mp run
      simp only [fresh, Bool.and_eq_true, decide_eq_true_eq] at new
      obtain ⟨⟨-, closed⟩, more⟩ := new
      have c := created (w.none_of_not_open closed .qmiServer) first
      refine ih (w.of_created closed c) (moded.of_created w closed c) ?_ rest
      rw [c.openFds]
      exact more
    | eintr => exact ih w moded new run
    | eagain =>
      cases run
      exact moded
    | error =>
      cases run
      exact moded

/-- Where no session is created the modes stay right. -/
lemma Moded.of_old {d d' : Daemon σ} {modes : Fd → Mode} (moded : Moded (d, modes))
    (old : ∀ server fd owned, d'.session? server fd = some owned →
      ∃ before, d.session? server fd = some before) : Moded (d', modes) := by
  intro server fd owned here
  obtain ⟨before, was⟩ := old server fd owned here
  exact moded server fd before was

/-- No step changes the mode of a session. -/
lemma moded_step {s s' : Daemon σ × (Fd → Mode)} {step : Step} (w : Watched s.1) (moded : Moded s)
    (run : (modedSystem M).step s step = some s') : Moded s' := by
  obtain ⟨d, modes⟩ := s
  obtain ⟨d', modes'⟩ := s'
  obtain ⟨taken, rfl⟩ := System.observed_step.mp run
  simp only at taken w
  cases step_effect taken with
  | createPty new run => exact moded.of_created w new (created (w.none_of_not_open new .atServer) run)
  | skipped callback =>
    rw [modesAfter, callback]
    exact moded
  | stopped callback =>
    rw [modesAfter, callback]
    exact moded
  | @accepted fd events env accepts d' callback new run =>
    obtain ⟨new, called⟩ := step_call taken callback
    rw [modesAfter, callback]
    by_cases readable : has events EPOLLIN = true
    · simp only [call, acceptClients, readable] at called
      rw [if_pos ⟨rfl, readable⟩]
      exact acceptLoop_moded w moded new called
    · simp only [call, acceptClients, readable] at called
      cases called
      rw [if_neg (by simp [readable])]
      exact moded
  | timer callback =>
    rw [modesAfter, callback]
    refine moded.of_old fun server fd owned here => ?_
    obtain ⟨before, was, -⟩ := (Kept.sameFrame_networkTimer (M := M) _ _ d).symm.owned here
    exact ⟨before, was⟩
  | served callback handled =>
    obtain ⟨rfl, owned, here⟩ := (w.callback _ _).mp callback
    rw [modesAfter, callback]
    exact moded.of_old fun server fd owned there => handleClient_old w here handled there
  | published =>
    refine moded.of_old fun server fd owned here => ?_
    obtain ⟨before, was, -⟩ := (SameFrame.publish _ _ d).symm.owned here
    exact ⟨before, was⟩

/-- The calls of a session are on its descriptor. -/
lemma fd_of_issued {server : Server} {events : Events} {env : Environment} {owned : Owned server}
    {call : IoCall} (mem : call ∈ writesIssued events env owned ++ readsIssued events env owned) :
    call.fd = owned.session.fd := by
  rw [writesIssued, readsIssued] at mem
  rcases List.mem_append.mp mem with mem | mem
  · split at mem
    · obtain ⟨_, -, rfl⟩ := List.mem_map.mp mem
      rfl
    · cases mem
  · split at mem
    · obtain ⟨_, -, rfl⟩ := List.mem_map.mp mem
      rfl
    · cases mem

/-- A session writes nothing exactly if there is no room or nothing to send. -/
lemma writesIssued_eq_nil {server : Server} {events : Events} {env : Environment}
    {owned : Owned server} (connected : has events (EPOLLHUP ||| EPOLLERR) = false) :
    writesIssued events env owned = [] ↔
      ¬ (has events EPOLLOUT = true ∧ owned.session.hasPendingOutput = true) := by
  have calls : owned.session.outbox.writeCalls env.writes = [] ↔
      owned.session.hasPendingOutput = false := by
    rw [Session.hasPendingOutput, Bool.not_eq_false', Outbox.writeCalls, Outbox.empty]
    rcases owned.session.outbox with ⟨_ | ⟨chunk, queue⟩⟩
    · simp [Outbox.queueCalls]
    · rcases env.writes with _ | ⟨_ | _ | _ | _, writes⟩
      all_goals simp [Outbox.queueCalls]
  rw [writesIssued, connected]
  by_cases out : has events EPOLLOUT = true
  · simp [out, calls]
  · simp [out]

/-- A session with nothing to write survives its output. -/
lemma onWritable_idle {server : Server} {events : Events} {env : Environment} {owned : Owned server}
    (connected : has events (EPOLLHUP ||| EPOLLERR) = false)
    (idle : ¬ (has events EPOLLOUT = true ∧ owned.session.hasPendingOutput = true)) :
    (owned.onWritable events env.writes).1 = true := by
  rw [Owned.onWritable]
  split
  · next out =>
    have empty : owned.session.outbox.queue = [] := by
      simpa [Session.hasPendingOutput, Outbox.empty, out] using idle
    simp only [Session.onWritable, connected, out, Outbox.flush, empty]
    rcases env.writes with _ | ⟨write, writes⟩
    · rfl
    · rfl
  · rfl

/-- When a session makes no calls. -/
lemma issued_eq_nil {server : Server} {events : Events} {env : Environment} {owned : Owned server} :
    writesIssued events env owned ++ readsIssued events env owned = [] ↔
      ¬ (has events (EPOLLHUP ||| EPOLLERR) = false ∧
        (has events EPOLLIN = true ∨
          has events EPOLLOUT = true ∧ owned.session.hasPendingOutput = true)) := by
  by_cases hangUp : has events (EPOLLHUP ||| EPOLLERR) = true
  · simp [writesIssued, readsIssued, hangUp]
  · rw [Bool.not_eq_true] at hangUp
    rw [List.append_eq_nil_iff, writesIssued_eq_nil hangUp]
    by_cases writes : has events EPOLLOUT = true ∧ owned.session.hasPendingOutput = true
    · simp [writes, hangUp]
    · rw [readsIssued, onWritable_idle hangUp writes]
      by_cases readable : has events EPOLLIN = true
      · simp [readable, hangUp, readCalls_ne_nil]
      · simp [readable, writes]

/-- The calls of a step are on descriptors in non-blocking mode exactly if no AT session is served. -/
lemma nonBlocking_step {s : Daemon σ × (Fd → Mode)} {step : Step} (w : Watched s.1) (moded : Moded s) :
    NonBlocking s step ↔ ¬ ServesPty s.1 step := by
  refine ⟨?_, ?_⟩
  · intro nonBlocking pty
    obtain ⟨fd, events, env, owned, rfl, here, busy⟩ := pty
    have calls : issued s.1 (.deliver fd events env) =
        writesIssued events env owned ++ readsIssued events env owned := by
      simp only [issued, w.registered here, here]
    have some : writesIssued events env owned ++ readsIssued events env owned ≠ [] :=
      fun none => issued_eq_nil.mp none busy
    obtain ⟨call, mem⟩ := List.exists_mem_of_ne_nil _ some
    have mode := nonBlocking call (by rw [calls]; exact mem)
    rw [fd_of_issued mem, w.own _ _ _ here, moded _ _ _ here] at mode
    cases mode
  · intro idle call mem
    cases step with
    | createPty pty registers => cases mem
    | deliver fd events env =>
      rcases found : s.1.loop.callbacks.lookup fd with _ | callback
      · simp [issued, found] at mem
      · rcases callback with _ | _ | _ | ⟨server, fd'⟩
        · simp [issued, found] at mem
        · simp [issued, found] at mem
        · simp [issued, found] at mem
        · obtain ⟨rfl, owned, here⟩ := (w.callback _ _).mp found
          simp only [issued, found, here] at mem
          rw [fd_of_issued mem, w.own _ _ _ here, moded _ _ _ here]
          cases server with
          | atServer =>
            -- an AT session makes no calls here
            have none : writesIssued events env owned ++ readsIssued events env owned = [] :=
              issued_eq_nil.mpr fun busy => idle ⟨_, events, env, owned, rfl, here, busy⟩
            rw [none] at mem
            cases mem
          | qmiServer => rfl
    | publish order event => cases mem

/-- On descriptors in non-blocking mode no call waits. -/
lemma NonBlocking.not_suspends {s : Daemon σ × (Fd → Mode)} {step : Step}
    (nonBlocking : NonBlocking s step) : ¬ Suspends s step := by
  intro suspends
  obtain ⟨call, mem, -, blocking⟩ := suspends
  rw [nonBlocking call mem] at blocking
  cases blocking

end

/-- In a run all calls of `read` and `write` are on descriptors in non-blocking mode, so that none of them
suspends the event loop, exactly if the run has no step in which an AT session reads, or writes what it
has pending. -/
theorem nonBlocking_iff {σ : Type*} (M : MiniModem.Modem σ) (fds : Descriptors) (modem : σ)
    (modes : Fd → Mode) (steps : List Step) :
    (modedSystem M).Each (fun s step => NonBlocking s step ∧ ¬ Suspends s step)
        (boot fds modem, modes) steps ↔
      (modedSystem M).Each (fun s step => ¬ ServesPty s.1 step) (boot fds modem, modes) steps := by
  refine System.each_congr (I := fun s => Watched s.1 ∧ Moded s) ?_ ?_ ⟨boot_watched fds modem, ?_⟩ steps
  · intro s step s' both run
    exact ⟨kept_watched.step both.1 (System.observed_step.mp run).1, moded_step both.1 both.2 run⟩
  · intro s step s' both _
    rw [← nonBlocking_step both.1 both.2]
    exact and_iff_left_of_imp NonBlocking.not_suspends
  · intro server fd owned here
    cases here

/-- A peer writes a command to the PTY. -/
def ptyCommand : List Step :=
  [.createPty (some (7, 8)) true, .deliver 7 EPOLLIN { reads := [.bytes [65, 84, 13, 10]] }]

/-- The `read` after the command suspends the process. -/
theorem pty_blocks :
    ¬ (modedSystem sampleModem).Each (fun s step => NonBlocking s step)
        (boot sampleDescriptors false, fun _ => .blocking) ptyCommand ∧
      ∃ s, (modedSystem sampleModem).exec (boot sampleDescriptors false, fun _ => .blocking)
          (ptyCommand.take 1) = some s ∧
        Suspends s (.deliver 7 EPOLLIN { reads := [.bytes [65, 84, 13, 10]] }) := by
  have blocked : ∃ s s', (modedSystem sampleModem).exec
      (boot sampleDescriptors false, fun _ => .blocking) (ptyCommand.take 1) = some s ∧
      (modedSystem sampleModem).step s (.deliver 7 EPOLLIN { reads := [.bytes [65, 84, 13, 10]] }) =
        some s' ∧
      Suspends s (.deliver 7 EPOLLIN { reads := [.bytes [65, 84, 13, 10]] }) :=
    ⟨_, _, rfl, rfl, ⟨7, true⟩, .tail _ (.head _), rfl, rfl⟩
  obtain ⟨s, s', run, next, suspends⟩ := blocked
  refine ⟨fun each => ?_, s, run, suspends⟩
  exact (each _ _ (List.prefix_refl _) s s' run next).not_suspends suspends

end MiniModem.Daemon
