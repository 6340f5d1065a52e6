import MiniModem.Daemon.Leaving

/-!
# How the process ends

Which answers of the kernel make a step throw (`perform_threw_iff`), and which end the loop of
`EventLoop::run`. SIGPIPE is the only way in which a client ends the process: apart from it, what is read and
written, what the sessions hold and what the modem answers have no part in how the process ends (`main_ending`).
-/

namespace MiniModem.Daemon
open Lib Transport Modem

/-- The kernel refuses to register a client that the loop of `acceptClients` gets to. -/
def refused : List AcceptResult → Bool
  | [] => false
  | .client _ registers :: accepts => !registers || refused accepts
  | .eintr :: accepts => refused accepts
  | .eagain :: _ => false
  | .error :: _ => false

/-- There is no PTY, or the kernel refuses to register a new session. -/
def Step.refused (listenFd : Fd) : Step → Bool
  | createPty pty registers => pty.isNone || !registers
  | deliver fd events env => fd == listenFd && has events EPOLLIN && Daemon.refused env.accepts
  | publish _ _ => false

/-- How an event ends the process, if it does. -/
def Event.ending? (listenFd : Fd) (event : Event) : Option Ending :=
  if event.env.sigpipe then some .killed
  else if event.step.refused listenFd then some (.exited 1)
  else none

/-- How the loop ends. It waits, or `epoll_wait` fails, or an event ends the process, or otherwise a signal in
the same batch stops the loop. -/
def loopEnding? (signalFd listenFd : Fd) : List Wait → Option Ending
  | [] => none
  | none :: _ => some (.exited 1)
  | some batch :: waits =>
    match batch.findSome? (Event.ending? listenFd) with
    | some ending => some ending
    | none =>
      if batch.any fun event => event.fd == signalFd then some (.exited 0)
      else loopEnding? signalFd listenFd waits

/-- The process ends with an error unless everything that `main` sets up succeeds; then the loop decides. -/
def Kernel.ending? (k : Kernel) (path : Bytes) (socketFile : Bool) : Option Ending :=
  if k.serves path socketFile && k.pty.isSome && k.ptyRegisters && k.timerRegisters then
    loopEnding? k.signalFd k.listenFd k.waits
  else some (.exited 1)

/-- How `main` ends when a part of it has ended so. -/
def Course.ending {α : Type*} : Course α → Ending
  | returned _ => .exited 0
  | threw _ => .exited 1
  | killed _ => .killed

variable {σ : Type*} {M : MiniModem.Modem σ} {fds : Descriptors} {d d' : Daemon σ}

/-! ### Exceptions -/

/-- A session that the kernel refuses to register makes the creation throw. -/
lemma create_refused {server : Server} {fd : Fd} (none : d.session? server fd = none) :
    ∃ c, d.create server fd false = .threw c := by
  rw [create_eq none, addFd_false]
  exact ⟨_, rfl⟩

/-- The loop of `acceptClients` throws exactly if it gets to a client that is refused. -/
lemma acceptLoop_threw_iff {accepts : List AcceptResult} (w : Watched d)
    (new : fresh d.openFds accepts = true) :
    (∃ c, acceptLoop accepts d = .threw c) ↔ refused accepts = true := by
  induction accepts generalizing d with
  | nil => simp [acceptLoop, refused]
  | cons accept accepts ih =>
    cases accept with
    | client fd registers =>
      simp only [fresh, Bool.and_eq_true, decide_eq_true_eq] at new
      obtain ⟨⟨-, closed⟩, more⟩ := new
      cases registers with
      | true =>
        obtain ⟨between, first⟩ := create_returned w .qmiServer closed
        have made := created (w.none_of_not_open closed .qmiServer) first
        rw [acceptLoop, first, refused, Bool.not_true, Bool.false_or]
        exact ih (w.of_created closed made) (by rw [made.openFds]; exact more)
      | false =>
        obtain ⟨c, first⟩ := create_refused (w.none_of_not_open closed .qmiServer)
        rw [acceptLoop, first, refused, Bool.not_false, Bool.true_or]
        exact ⟨fun _ => rfl, fun _ => ⟨c, rfl⟩⟩
    | eintr => exact ih w new
    | eagain => simp [acceptLoop, refused]
    | error => simp [acceptLoop, refused]

/-- A descriptor with another callback, or none, is not the one of the callback. -/
lemma Watched.ne_of_callback (w : Watched d) {fd : Fd} (fd' : Fd) (called : Callback)
    {callback : Option Callback} (found : d.loop.callbacks.lookup fd = callback) (right : d.CallbackFor fd' called)
    (other : callback ≠ some called) : fd ≠ fd' := by
  rintro rfl
  exact other (found.symm.trans ((w.callback fd called).mpr right))

/-- A step throws exactly if the kernel refuses what it asks for. -/
lemma perform_threw_iff (w : Watched d) {step : Step} (possible : d.possible step = true) :
    (∃ c, d.perform M step = .threw c) ↔ step.refused d.listenFd = true := by
  cases step with
  | createPty pty registers =>
    cases pty with
    | none => simp [perform, createPty, Step.refused]
    | some pty =>
      simp only [Daemon.possible, fresh, Bool.and_eq_true, decide_eq_true_eq] at possible
      have new := possible.1.2
      cases registers with
      | true =>
        obtain ⟨between, returned⟩ := create_returned w .atServer new
        simp [perform, createPty, returned, Step.refused]
      | false =>
        obtain ⟨c, threw⟩ := create_refused (w.none_of_not_open new .atServer)
        simp [perform, createPty, threw, Step.refused]
  | deliver fd events env =>
    rcases callback : d.loop.callbacks.lookup fd with _ | called
    · have ne := w.ne_of_callback d.listenFd .acceptClients callback rfl (by simp)
      simp [perform, callback, Step.refused, ne]
    · cases called with
      | signal =>
        have ne := w.ne_of_callback d.listenFd .acceptClients callback rfl (by simp)
        simp [perform, callback, call, Step.refused, ne]
      | acceptClients =>
        obtain rfl : fd = d.listenFd := (w.callback _ _).mp callback
        have threw := acceptLoop_threw_iff w possible
        by_cases readable : has events EPOLLIN = true
        · simpa [perform, callback, call, acceptClients, Step.refused, readable] using threw
        · simp [perform, callback, call, acceptClients, Step.refused, readable]
      | networkTimer =>
        have ne := w.ne_of_callback d.listenFd .acceptClients callback rfl (by simp)
        simp [perform, callback, call, Step.refused, ne]
      | session server fd' =>
        have ne := w.ne_of_callback d.listenFd .acceptClients callback rfl (by simp)
        obtain ⟨rfl, owned, here⟩ := (w.callback _ _).mp callback
        obtain ⟨after, returned⟩ := handleClient_returned (M := M) w here events env
        simp [perform, callback, call, returned, Step.refused, ne]
  | publish order event => simp [perform, Step.refused]

/-! ### The loop -/

/-- A creation does not stop the loop. -/
lemma create_running {server : Server} {fd : Fd} {registers : Bool} (none : d.session? server fd = none)
    (run : d.create server fd registers = .returned d') : d'.loop.running = d.loop.running := by
  rw [create_eq none, Outcome.map_eq_returned] at run
  obtain ⟨loop, added, rfl⟩ := run
  obtain ⟨-, rfl⟩ := EventLoop.addFd_returned.mp added
  rfl

/-- Accepting clients does not stop the loop. -/
lemma acceptLoop_running {accepts : List AcceptResult} (w : Watched d) (new : fresh d.openFds accepts = true)
    (run : acceptLoop accepts d = .returned d') : d'.loop.running = d.loop.running := by
  induction accepts generalizing d with
  | nil =>
    cases run
    rfl
  | cons accept accepts ih =>
    cases accept with
    | client fd registers =>
      simp only [fresh, Bool.and_eq_true, decide_eq_true_eq] at new
      obtain ⟨⟨-, closed⟩, more⟩ := new
      obtain ⟨between, first, rest⟩ := Outcome.andThen_eq_returned.mp run
      have none := w.none_of_not_open closed .qmiServer
      have made := created none first
      have further := ih (w.of_created closed made) (by rw [made.openFds]; exact more) rest
      exact further.trans (create_running none first)
    | eintr => exact ih w new run
    | eagain =>
      cases run
      rfl
    | error =>
      cases run
      rfl

/-- Removing a session does not stop the loop. -/
lemma removeSession_running (server : Server) (fd : Fd) (d : Daemon σ) :
    (d.removeSession server fd).loop.running = d.loop.running := by
  simp only [removeSession]
  split
  · rfl
  · simp only [destroy]
    split
    · rfl
    · rfl

/-- The callback of a session does not stop the loop. -/
lemma handleClient_running {server : Server} {fd : Fd} {owned : Owned server}
    (here : d.session? server fd = some owned) {events : Events} {env : Environment}
    (run : d.handleClient M server fd events env = .returned d') : d'.loop.running = d.loop.running := by
  have frame := (serves_serve (M := M) here events env).frame
  rcases handleClient_cases here run with ⟨-, rfl⟩ | ⟨-, updated⟩
  · rw [removeSession_running, frame.loop]
  · rw [updateEvents] at updated
    split at updated
    · cases updated
      rw [frame.loop]
    · obtain ⟨loop, modified, rfl⟩ := Outcome.map_eq_returned.mp updated
      obtain ⟨-, rfl⟩ := EventLoop.modifyFd_returned.mp modified
      show (d.serve M server fd events env owned).2.loop.running = d.loop.running
      rw [frame.loop]

/-- Only an event for the descriptor of the signals stops the loop. -/
lemma step_running (w : Watched d) {fd : Fd} {events : Events} {env : Environment}
    (run : (system M).step d (.deliver fd events env) = some d') :
    d'.loop.running = (d.loop.running && fd != d.signalFd) := by
  have still : ∀ {callback : Option Callback}, d.loop.callbacks.lookup fd = callback →
      callback ≠ some .signal → d'.loop.running = d.loop.running →
        d'.loop.running = (d.loop.running && fd != d.signalFd) := by
    intro callback found other same
    have ne := w.ne_of_callback d.signalFd .signal found rfl other
    rw [same, bne_iff_ne.mpr ne, Bool.and_true]
  cases step_effect run with
  | skipped callback => exact still callback (by simp) rfl
  | stopped callback =>
    obtain rfl : fd = d.signalFd := (w.callback _ _).mp callback
    simp [EventLoop.stop]
  | accepted callback new run => exact still callback (by simp) (acceptLoop_running w new run)
  | timer callback =>
    exact still callback (by simp) (congrArg EventLoop.running (Kept.sameFrame_networkTimer _ _ d).loop)
  | served callback handled =>
    obtain ⟨rfl, owned, here⟩ := (w.callback _ _).mp callback
    exact still callback (by simp) (handleClient_running here handled)

/-- The process is the one of the descriptors, and its accounts are in order. -/
structure Serving (fds : Descriptors) (d : Daemon σ) : Prop where
  accounts : Accounts fds d
  signalFd : d.signalFd = fds.signalFd

/-- The registrations are in order. -/
lemma Serving.watched (serving : Serving fds d) : Watched d := serving.accounts.1.1.1.1.1

/-- The socket is that of the descriptors. -/
lemma Serving.listenFd (serving : Serving fds d) : d.listenFd = fds.listenFd := serving.accounts.1.1.2.listenFd

/-- The process goes on like this. -/
lemma Serving.step (serving : Serving fds d) {step : Step} (run : (system M).step d step = some d') :
    Serving fds d' :=
  ⟨step_accounts serving.accounts run, (step_fixed serving.watched run).1.trans serving.signalFd⟩

/-- How the inner loop ends: the first event that ends the process decides, and otherwise it goes on to the end,
and stops the loop if a signal is in the batch. -/
lemma work_ends {batch : List Event} (serving : Serving fds d) {course : Course (Daemon σ)}
    (run : work M batch d = some course) :
    (batch.findSome? (Event.ending? fds.listenFd) = some course.ending ∧ ∀ d', course ≠ .returned d') ∨
      (batch.findSome? (Event.ending? fds.listenFd) = none ∧ ∃ d', course = .returned d' ∧
        Serving fds d' ∧
        d'.loop.running = (d.loop.running && !batch.any (fun event => event.fd == fds.signalFd))) := by
  induction batch generalizing d with
  | nil =>
    cases run
    exact .inr ⟨rfl, d, rfl, serving, by simp⟩
  | cons event batch ih =>
    rw [work] at run
    split at run
    · next possible =>
      split at run
      · next sigpipe =>
        obtain ⟨broken, -, rfl⟩ := Option.map_eq_some_iff.mp run
        have killed : event.ending? fds.listenFd = some .killed := if_pos sigpipe
        exact .inl ⟨by rw [List.findSome?_cons, killed]; rfl, fun d' e => by cases e⟩
      · next quiet =>
        have threw := perform_threw_iff (M := M) serving.watched possible
        rw [serving.listenFd] at threw
        rcases first : d.perform M event.step with between | thrown
        · simp only [first] at run
          have fine : event.step.refused fds.listenFd = false := by
            rw [← Bool.not_eq_true, ← threw, first]
            simp
          have further : event.ending? fds.listenFd = none := by
            rw [Event.ending?, if_neg quiet, fine, if_neg Bool.false_ne_true]
          have taken : (system M).step d event.step = some between := by
            simp only [system, possible, if_true, first]
            rfl
          have running := step_running serving.watched taken
          rw [serving.signalFd] at running
          rw [List.findSome?_cons, further]
          rcases ih (serving.step taken) run with ended | ⟨good, d', rfl, serving', still⟩
          · exact .inl ended
          · refine .inr ⟨good, d', rfl, serving', ?_⟩
            rw [still, running, List.any_cons, Bool.not_or, Bool.and_assoc]
            rfl
        · simp only [first] at run
          cases run
          have bad := threw.mp ⟨thrown, first⟩
          have ends : event.ending? fds.listenFd = some (.exited 1) := by
            rw [Event.ending?, if_neg quiet, bad, if_pos rfl]
          exact .inl ⟨by rw [List.findSome?_cons, ends]; rfl, fun d' e => by cases e⟩
    · cases run

/-- A loop that is not running does nothing. -/
lemma turns_stopped (stopped : d.loop.running = false) (waits : List Wait) :
    turns M waits d = some (.returned d) := by
  rcases waits with _ | ⟨_ | batch, waits⟩
  · rw [turns, stopped, if_neg Bool.false_ne_true]
  · rw [turns, stopped, if_neg Bool.false_ne_true]
  · rw [turns, stopped, if_neg Bool.false_ne_true]

/-- How the outer loop ends, by what it waits for. -/
lemma turns_ends {waits : List Wait} (serving : Serving fds d) (running : d.loop.running = true)
    {course : Course (Daemon σ)} (run : turns M waits d = some course) :
    loopEnding? fds.signalFd fds.listenFd waits = some course.ending := by
  induction waits generalizing d with
  | nil =>
    rw [turns, running, if_pos rfl] at run
    cases run
  | cons wait waits ih =>
    cases wait with
    | none =>
      rw [turns, running, if_pos rfl] at run
      cases run
      rfl
    | some batch =>
      rw [turns, running, if_pos rfl] at run
      rcases first : work M batch d with _ | ended
      · simp only [first] at run
        cases run
      · simp only [first] at run
        rcases work_ends serving first with ⟨ending, never⟩ | ⟨none, between, rfl, serving', still⟩
        · rw [loopEnding?, ending]
          cases ended with
          | returned d' => exact absurd rfl (never d')
          | threw d' =>
            cases run
            rfl
          | killed d' =>
            cases run
            rfl
        · rw [running, Bool.true_and] at still
          rw [loopEnding?, none]
          cases signal : batch.any (fun event => event.fd == fds.signalFd) with
          | true =>
            rw [signal, Bool.not_true] at still
            simp only [turns_stopped still] at run
            cases run
            rfl
          | false =>
            rw [signal, Bool.not_false] at still
            exact ih serving' still run

/-! ### The process -/

/-- What `main` does when all objects are there, by what the kernel answers. -/
lemma serveClients_ends {k : Kernel} {modem : σ} (booted : Booted fds modem d) {course : Course (Daemon σ)}
    (run : serveClients M k d = some course) :
    (if k.pty.isSome && k.ptyRegisters && k.timerRegisters then
        loopEnding? fds.signalFd fds.listenFd k.waits
      else some (.exited 1)) = some course.ending := by
  rcases booted.serveClients_cases run with ⟨registers, d', accounts, signalFd, running, run'⟩ |
    ⟨refuses, d', rfl, -⟩
  · rw [if_pos registers]
    exact turns_ends ⟨accounts, signalFd⟩ running run'
  · rw [if_neg (Bool.not_eq_true _ ▸ refuses)]
    rfl

/-- How the process ends is what the kernel has answered: its refusals, a failing `epoll_wait`, the signals and
SIGPIPE. It does not depend on anything else that is read or written, or on what the modem answers. -/
theorem main_ending {σ : Type*} (M : MiniModem.Modem σ) (order : SessionOrder) (path : Bytes) (k : Kernel)
    (openFds : List Fd) (modem : σ) (socketFile : Bool) (possible : k.Possible openFds) (exit : Exit σ)
    (ends : main M order path k (start openFds modem socketFile) = some exit) :
    k.ending? path socketFile = some exit.ending := by
  -- with all objects there, the loop decides
  have decides : ∀ {fds : Descriptors} {p : Process σ} {course : Course (Daemon σ)},
      Equipped k path openFds modem socketFile fds p → serveClients M k p.daemon = some course →
        k.ending? path socketFile = some course.ending := by
    intro fds p course equipped served
    have ending := serveClients_ends equipped.booted served
    rw [equipped.signalFd, equipped.listenFd] at ending
    rw [Kernel.ending?, equipped.serves, Bool.true_and, ending]
  cases main_reaches possible ends with
  | loopless loops => simp [Kernel.ending?, Kernel.serves, Kernel.binds, Kernel.opens, loops]
  | timerless loops timer => simp [Kernel.ending?, Kernel.serves, Kernel.binds, Kernel.opens, timer]
  | serverless loops timer fails => simp [Kernel.ending?, fails]
  | returned equipped served => exact decides equipped served
  | threw equipped served => exact decides equipped served
  | killed equipped served => exact decides equipped served

/-- A signal ends one process, and a client that does not read another. -/
theorem main_ending_stopped :
    stopped.ending? [47, 113] false = some (.exited 0) ∧ (∃ exit,
      main sampleModem .entries [47, 113] stopped (start [0, 1, 2] false false) = some exit ∧
        exit.ending = .exited 0) ∧
      abandoned.ending? [47, 113] false = some .killed ∧ ∃ exit,
        main sampleModem .entries [47, 113] abandoned (start [0, 1, 2] false false) = some exit ∧
          exit.ending = .killed := by
  obtain ⟨exit, ends⟩ : ∃ exit,
      main sampleModem .entries [47, 113] stopped (start [0, 1, 2] false false) = some exit := ⟨_, rfl⟩
  obtain ⟨exit', ends'⟩ : ∃ exit,
      main sampleModem .entries [47, 113] abandoned (start [0, 1, 2] false false) = some exit := ⟨_, rfl⟩
  have first : stopped.ending? [47, 113] false = some (.exited 0) := by decide
  have second : abandoned.ending? [47, 113] false = some .killed := by decide
  have ending := main_ending sampleModem .entries [47, 113] stopped [0, 1, 2] false false stopped_possible exit
    ends
  have ending' := main_ending sampleModem .entries [47, 113] abandoned [0, 1, 2] false false
    abandoned_possible exit' ends'
  rw [first, Option.some_inj] at ending
  rw [second, Option.some_inj] at ending'
  exact ⟨first, ⟨exit, ends, ending.symm⟩, second, exit', ends', ending'.symm⟩

/-- A client that the kernel refuses to register ends the process. -/
example : ({ stopped with
    waits := [some [⟨6, EPOLLIN, { accepts := [.client 8 false] }⟩], some [⟨4, EPOLLIN, {}⟩]] } :
      Kernel).ending? [47, 113] false = some (.exited 1) := by
  decide

end MiniModem.Daemon
