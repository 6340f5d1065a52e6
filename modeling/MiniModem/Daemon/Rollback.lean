import MiniModem.Daemon.Records

/-!
# Registrations that fail

A new session is subscribed and stored before its descriptor is registered. If `epoll_ctl` cannot add the
descriptor, `addFd` throws, and neither `createPty` nor `acceptClients` takes back what it has done so far:
the session stays in its container, subscribed, with its descriptor open, and nobody ever calls it
(`create_threw`). So nothing half-created is left behind exactly if no registration fails
(`rollsBack_iff`).
-/

namespace MiniModem.Daemon
open Lib Transport Modem

variable {σ : Type*} {M : MiniModem.Modem σ}

/-- Nothing is left of the session at an address, for which the descriptor was new. -/
structure RolledBack (server : Server) (fd : Fd) (addr : ℕ) (d : Daemon σ) : Prop where
  session : d.session? server fd = none
  callback : fd ∉ d.loop.callbacks
  handler : ∀ id, d.eventBus.handlers.lookup id ≠ some ⟨server, addr⟩
  closed : fd ∉ d.openFds

/-- The clients that the loop of `acceptClients` registers, and the one that it cannot register, if there is
such a client. -/
def registrations : List AcceptResult → List Fd × Option Fd
  | [] => ([], none)
  | .client fd registers :: accepts =>
    if registers then (fd :: (registrations accepts).1, (registrations accepts).2) else ([], some fd)
  | .eintr :: accepts => registrations accepts
  | .eagain :: _ => ([], none)
  | .error :: _ => ([], none)

/-- If `createPty` throws while it registers the master, the session is taken back. -/
def CreatePtyRollsBack (d : Daemon σ) (pty : Fd × Fd) (registers : Bool) : Prop :=
  ∀ d', d.createPty (some pty) registers = .threw d' → RolledBack .atServer pty.1 d.allocated d'

/-- If `acceptClients` throws, the session that could not be registered is taken back, and the sessions
accepted before it are kept. -/
def AcceptClientsRollsBack (d : Daemon σ) (events : Events) (accepts : List AcceptResult) : Prop :=
  ∀ d', d.acceptClients events accepts = .threw d' →
    (∃ fd, (registrations accepts).2 = some fd ∧
      RolledBack .qmiServer fd (d.allocated + (registrations accepts).1.length) d') ∧
      ∀ fd ∈ (registrations accepts).1, ∃ owned, d'.session? .qmiServer fd = some owned

/-- What is left when the registration of a new session has failed: all of the session but its callback. -/
structure LeftBehind (server : Server) (fd : Fd) (d d' : Daemon σ) : Prop where
  here : d'.session? server fd = some (d.newSession server fd)
  others : ∀ server' fd', (server' ≠ server ∨ fd' ≠ fd) →
    d'.session? server' fd' = d.session? server' fd'
  loop : d'.loop = d.loop
  eventBus : d'.eventBus = (d.eventBus.subscribe busPtr ⟨server, d.allocated⟩).2
  openFds : d'.openFds = fd :: d.openFds

/-- A session that cannot be registered is left behind. -/
lemma create_threw {server : Server} {fd : Fd} {d : Daemon σ} (new : d.session? server fd = none) :
    ∃ d', d.create server fd false = .threw d' ∧ LeftBehind server fd d d' := by
  refine ⟨d.withSession server fd, create_eq new false, ?_, ?_, rfl, rfl, rfl⟩
  · exact session?_withSession_self server fd d
  · intro server' fd' other
    exact session?_withSession_ne other d

/-- The loop returns if it can register every client that it accepts. -/
lemma acceptLoop_returned {d : Daemon σ} (w : Watched d) {accepts : List AcceptResult}
    (new : fresh d.openFds accepts = true) (all : (registrations accepts).2 = none) :
    ∃ d', acceptLoop accepts d = .returned d' := by
  induction accepts generalizing d with
  | nil => exact ⟨d, rfl⟩
  | cons accept accepts ih =>
    cases accept with
    | client fd registers =>
      simp only [fresh, Bool.and_eq_true, decide_eq_true_eq] at new
      obtain ⟨⟨-, closed⟩, more⟩ := new
      cases registers with
      | true =>
        obtain ⟨between, first⟩ := create_returned w .qmiServer closed
        have c := created (w.none_of_not_open closed .qmiServer) first
        obtain ⟨d', rest⟩ := ih (w.of_created closed c) (by rw [c.openFds]; exact more) all
        exact ⟨d', Outcome.andThen_eq_returned.mpr ⟨between, first, rest⟩⟩
      | false => cases all
    | eintr => exact ih w new all
    | eagain => exact ⟨d, rfl⟩
    | error => exact ⟨d, rfl⟩

/-- The loop throws at the first client that it cannot register, and keeps the sessions there are. -/
lemma acceptLoop_threw {d : Daemon σ} (w : Watched d) {accepts : List AcceptResult}
    (new : fresh d.openFds accepts = true) {fd : Fd} (failing : (registrations accepts).2 = some fd) :
    ∃ between d', acceptLoop accepts d = .threw d' ∧ LeftBehind .qmiServer fd between d' ∧
      between.allocated = d.allocated + (registrations accepts).1.length ∧
      (∀ fd' ∈ (registrations accepts).1, ∃ owned, d'.session? .qmiServer fd' = some owned) ∧
      ∀ fd' owned, d.session? .qmiServer fd' = some owned → d'.session? .qmiServer fd' = some owned := by
  induction accepts generalizing d with
  | nil => cases failing
  | cons accept accepts ih =>
    cases accept with
    | client fd' registers =>
      simp only [fresh, Bool.and_eq_true, decide_eq_true_eq] at new
      obtain ⟨⟨-, closed⟩, more⟩ := new
      have none := w.none_of_not_open closed .qmiServer
      cases registers with
      | true =>
        obtain ⟨second, first⟩ := create_returned w .qmiServer closed
        have c := created none first
        obtain ⟨between, d', rest, left, allocated, accepted, kept⟩ :=
          ih (w.of_created closed c) (by rw [c.openFds]; exact more) failing
        refine ⟨between, d', ?_, left, ?_, ?_, ?_⟩
        · rw [acceptLoop, first, Outcome.andThen, rest]
        · simp only [registrations, if_true, List.length_cons]
          rw [allocated, c.allocated]
          omega
        · intro fd'' mem
          rcases List.mem_cons.mp mem with rfl | mem
          · exact ⟨_, kept fd'' _ c.here⟩
          · exact accepted fd'' mem
        · intro fd'' owned here
          exact kept fd'' owned (c.still none here)
      | false =>
        obtain ⟨d', threw, left⟩ := create_threw none
        cases failing
        refine ⟨d, d', ?_, left, rfl, ?_, ?_⟩
        · rw [acceptLoop, threw, Outcome.andThen]
        · intro fd'' mem
          cases mem
        · intro fd'' owned here
          rw [left.others .qmiServer fd'' (.inr ?_), here]
          rintro rfl
          rw [none] at here
          cases here
    | eintr => exact ih w new failing
    | eagain => cases failing
    | error => cases failing

/-- `createPty` leaves nothing half-created exactly if the master can be registered. -/
lemma createPty_rollsBack_iff {d : Daemon σ} (w : Watched d) {pty : Fd × Fd} {registers : Bool}
    (possible : d.possible (.createPty (some pty) registers) = true) :
    CreatePtyRollsBack d pty registers ↔ registers = true := by
  obtain ⟨master, slave⟩ := pty
  simp only [Daemon.possible, fresh, Bool.and_eq_true, decide_eq_true_eq] at possible
  have closed := possible.1.2
  cases registers with
  | true =>
    refine iff_of_true ?_ rfl
    intro d' threw
    obtain ⟨d'', returned⟩ := create_returned w .atServer closed
    rw [createPty, returned] at threw
    cases threw
  | false =>
    refine iff_of_false ?_ (by simp)
    intro rollsBack
    obtain ⟨d', threw, left⟩ := create_threw (w.none_of_not_open closed .atServer)
    have gone := (rollsBack d' threw).session
    rw [left.here] at gone
    cases gone

/-- `acceptClients` does so exactly if it gets to no client that cannot be registered. -/
lemma acceptClients_rollsBack_iff {d : Daemon σ} (w : Watched d) {accepts : List AcceptResult}
    (new : fresh d.openFds accepts = true) (events : Events) :
    AcceptClientsRollsBack d events accepts ↔
      (has events EPOLLIN = true → (registrations accepts).2 = none) := by
  rcases readable : has events EPOLLIN with _ | _
  · refine iff_of_true ?_ (by simp)
    intro d' threw
    simp only [acceptClients, readable] at threw
    cases threw
  · have run : d.acceptClients events accepts = acceptLoop accepts d := by
      simp only [acceptClients, readable]
      rfl
    rcases failing : (registrations accepts).2 with _ | fd
    · refine iff_of_true ?_ (fun _ => rfl)
      intro d' threw
      obtain ⟨d'', returned⟩ := acceptLoop_returned w new failing
      rw [run, returned] at threw
      cases threw
    · refine iff_of_false ?_ (by simp)
      intro rollsBack
      obtain ⟨between, d', threw, left, -⟩ := acceptLoop_threw w new failing
      obtain ⟨⟨fd', e, back⟩, -⟩ := rollsBack d' (run.trans threw)
      rw [failing] at e
      cases e
      have gone := back.session
      rw [left.here] at gone
      cases gone

/-- In every state that can be reached, nothing half-created is left behind exactly if every descriptor of a
new session can be registered. -/
theorem rollsBack_iff (M : MiniModem.Modem σ) (fds : Descriptors) (modem : σ) (steps : List Step) :
    (system M).Always
      (fun d =>
        (∀ pty registers, d.possible (.createPty (some pty) registers) = true →
          (CreatePtyRollsBack d pty registers ↔ registers = true)) ∧
        ∀ events accepts, fresh d.openFds accepts = true →
          (AcceptClientsRollsBack d events accepts ↔
            (has events EPOLLIN = true → (registrations accepts).2 = none)))
      (boot fds modem) steps := by
  intro before _ d run
  have w := (reachable_subscribed run).1
  refine ⟨?_, ?_⟩
  · intro pty registers possible
    exact createPty_rollsBack_iff w possible
  · intro events accepts new
    exact acceptClients_rollsBack_iff w new events

/-- The first PTY and the first client that cannot be registered leave their sessions behind. -/
theorem session_left :
    ¬ CreatePtyRollsBack (boot sampleDescriptors false) (7, 8) false ∧
      ¬ AcceptClientsRollsBack (boot sampleDescriptors false) EPOLLIN [.client 8 false] := by
  refine ⟨?_, ?_⟩
  · intro rollsBack
    have gone := (rollsBack _ rfl).session
    cases gone
  · intro rollsBack
    obtain ⟨⟨fd, e, back⟩, -⟩ := rollsBack _ rfl
    cases e
    have gone := back.session
    cases gone

end MiniModem.Daemon
