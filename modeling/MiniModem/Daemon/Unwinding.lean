import MiniModem.Daemon.Accounts
import MiniModem.Daemon.Rollback
import MiniModem.Daemon.Teardown

/-!
# Unwinding

When `main` is left, whether its loop has ended or something has thrown, the destructors of the servers
run, that of the QMI server first. None of them reads the event loop, so it does not matter in which state
an exception has left it: the state is compared with one whose registrations are in order (`Twin`), and
from which the sessions are removed one by one. At the end there are no sessions, and what the process
holds is balanced but for the listening descriptor, which is closed (`unwind_unwound`).
-/

namespace MiniModem.Daemon
open Lib Transport Modem

variable {σ : Type*} {M : MiniModem.Modem σ} {fds : Descriptors}

/-- The destructors of the servers, in the order in which they run. -/
def unwind (order : SessionOrder) (d : Daemon σ) : Daemon σ :=
  (d.destructor .qmiServer order).destructor .atServer order

/-- The state `c` is the state `d` but for the event loop, the containers of the sessions, and the
descriptors that are gone. -/
structure Twin (gone : List Fd) (d c : Daemon σ) : Prop where
  listenFd : c.listenFd = d.listenFd
  eventBus : c.eventBus = d.eventBus
  allocated : c.allocated = d.allocated
  destroyed : c.destroyed = d.destroyed
  openFds : c.openFds.Perm (d.openFds.filter (· ∉ gone))

variable {gone : List Fd} {d c : Daemon σ}

/-- The event loop may be in any state. -/
lemma Twin.of_loop (d : Daemon σ) (loop : EventLoop Callback) : Twin [] d { d with loop } := by
  refine ⟨rfl, rfl, rfl, rfl, .of_eq ?_⟩
  exact (List.filter_eq_self.mpr fun fd _ => by simp).symm

/-- What `sessions_.erase(fd)` does to both. -/
lemma Twin.destroy (t : Twin gone d c) (server : Server) (owned : Owned server) :
    Twin gone (d.destroy server owned) (c.destroy server owned) := by
  simp only [Daemon.destroy]
  split
  · refine ⟨t.listenFd, ?_, t.allocated, ?_, ?_⟩
    · simp only [close, t.eventBus]
    · simp only [close, t.destroyed]
    · refine (t.openFds.filter _).trans (.of_eq ?_)
      rw [close, List.filter_filter, List.filter_filter]
      exact List.filter_congr fun fd _ => Bool.and_comm _ _
  · refine ⟨t.listenFd, ?_, t.allocated, ?_, t.openFds⟩
    · simp only [t.eventBus]
    · simp only [t.destroyed]

/-- Removing a session is destroying it, but for its container. -/
lemma Twin.removeSession (t : Twin gone d c) {server : Server} {fd : Fd} {owned : Owned server}
    (here : d.session? server fd = some owned) :
    Twin gone (d.removeSession server fd) (c.destroy server owned) := by
  have there : ({ d with loop := d.loop.removeFd fd } : Daemon σ).session? server fd = some owned := here
  have t' : Twin gone (({ d with loop := d.loop.removeFd fd } : Daemon σ).setSessions server
      ((d.sessions server).erase fd)) c :=
    ⟨t.listenFd, t.eventBus, t.allocated, t.destroyed, t.openFds⟩
  simp only [Daemon.removeSession, there]
  exact t'.destroy server owned

/-- The accounts are in order when a session has been removed. -/
lemma Accounts.removeSession (accounts : Accounts fds d) {server : Server} {fd : Fd} {owned : Owned server}
    (here : d.session? server fd = some owned) : Accounts fds (d.removeSession server fd) := by
  obtain ⟨known, valid, held⟩ := accounts
  have w := known.1.1.1.1
  have r := removed here (w.own server fd owned here)
  refine ⟨(kept_accounted fds).removed _ _ _ _ _ known here r, ?_, removeSession_held w known.1.2 valid held here⟩
  intro server' fd' owned' there
  exact valid server' fd' owned' (r.session_iff.mp there).2

/-- Only the container of the session changes. -/
lemma removeSession_update {server : Server} {fd : Fd} {owned : Owned server}
    (here : d.session? server fd = some owned) :
    (d.removeSession server fd).sessions =
      Function.update d.sessions server ((d.sessions server).erase fd) := by
  have there : ({ d with loop := d.loop.removeFd fd } : Daemon σ).session? server fd = some owned := here
  simp only [Daemon.removeSession, there, Daemon.destroy]
  split
  · rfl
  · rfl

/-! ### The destructor of the QMI server -/

/-- Destroying the sessions of a container one by one, while they stay in it, is removing them. -/
lemma Twin.foldl_destroyAt {server : Server} {todo : List Fd} (accounts : Accounts fds d) (t : Twin gone d c)
    (once : todo.Nodup) (there : ∀ fd ∈ todo, ∃ owned, c.session? server fd = some owned)
    (left : ∀ fd, d.session? server fd = if fd ∈ todo then c.session? server fd else none)
    (others : ∀ server', server' ≠ server → c.sessions server' = d.sessions server') :
    ∃ e, Accounts fds e ∧ Twin gone e (todo.foldl (destroyAt server) c) ∧
      (∀ fd, e.session? server fd = none) ∧
      (∀ server', server' ≠ server →
        (todo.foldl (destroyAt server) c).sessions server' = e.sessions server') := by
  induction todo generalizing d c with
  | nil => exact ⟨d, accounts, t, fun fd => by simpa using left fd, others⟩
  | cons fd todo ih =>
    obtain ⟨notIn, once⟩ := List.nodup_cons.mp once
    obtain ⟨owned, here⟩ := there fd List.mem_cons_self
    have here' : d.session? server fd = some owned := by
      rw [left, if_pos List.mem_cons_self, here]
    have r := removed here' (accounts.1.1.1.1.1.own server fd owned here')
    have first : c.destroyAt server fd = c.destroy server owned := by
      rw [destroyAt, here]
    have sessions := (destroyAt_loop server c fd).1
    have same : ∀ fd', (c.destroyAt server fd).session? server fd' = c.session? server fd' := by
      intro fd'
      rw [session?, session?, sessions]
    have t' := t.removeSession here'
    rw [← first] at t'
    rw [List.foldl_cons]
    refine ih (accounts.removeSession here') t' once ?_ ?_ ?_
    · intro fd' mem
      rw [same]
      exact there fd' (List.mem_cons_of_mem _ mem)
    · intro fd'
      rw [same]
      rcases eq_or_ne fd' fd with rfl | ne
      · rw [r.gone, if_neg notIn]
      · rw [r.others server fd' (.inr ne), left]
        simp only [List.mem_cons, ne, false_or]
    · intro server' other
      rw [sessions, others server' other, removeSession_update here', Function.update_of_ne other]

/-- A server without sessions has an empty container. -/
lemma sessions_eq_empty {server : Server} (none : ∀ fd, d.session? server fd = none) :
    d.sessions server = ∅ := by
  have empty : (d.sessions server).keys = [] := by
    refine List.eq_nil_iff_forall_not_mem.mpr fun fd mem => ?_
    obtain ⟨owned, here⟩ := mem_sessions.mp mem
    rw [none] at here
    cases here
  exact AList.ext (List.map_eq_nil_iff.mp empty)

/-- `sessions_.clear()` destroys what removing the sessions would. -/
lemma Twin.clearSessions (accounts : Accounts fds d) (t : Twin gone d c) (same : c.sessions = d.sessions)
    (server : Server) (order : SessionOrder) :
    ∃ e, Accounts fds e ∧ Twin gone e (c.clearSessions server order) ∧
      (c.clearSessions server order).sessions = e.sessions ∧ ∀ fd, e.session? server fd = none := by
  have mem : ∀ fd, fd ∈ order.order (c.sessions server).keys ↔ ∃ owned, c.session? server fd = some owned := by
    intro fd
    rw [(order.perm _).mem_iff]
    exact mem_sessions
  have left : ∀ fd, d.session? server fd =
      if fd ∈ order.order (c.sessions server).keys then c.session? server fd else none := by
    intro fd
    have there : d.session? server fd = c.session? server fd := by
      rw [session?, session?, same]
    rw [there]
    split
    · rfl
    · next notIn =>
      rw [mem] at notIn
      exact Option.eq_none_iff_forall_ne_some.mpr fun owned here => notIn ⟨owned, here⟩
  obtain ⟨e, accounts', t', none, others⟩ := t.foldl_destroyAt accounts
    ((order.perm _).nodup_iff.mpr (AList.keys_nodup _)) (fun fd => (mem fd).mp) left
    (fun _ _ => by rw [same])
  refine ⟨e, accounts', ⟨t'.listenFd, t'.eventBus, t'.allocated, t'.destroyed, t'.openFds⟩, ?_, none⟩
  funext server'
  rcases eq_or_ne server' server with rfl | ne
  · rw [Daemon.clearSessions, sessions_eq_empty none]
    exact Function.update_self _ _ _
  · rw [← others server' ne]
    exact Function.update_of_ne ne _ _

/-! ### The destructor of the AT server -/

/-- `~at::Server` does the same in both. -/
lemma Twin.removeSessions (accounts : Accounts fds d) (t : Twin gone d c) (same : c.sessions = d.sessions)
    (server : Server) (order : SessionOrder) (turns : ℕ) :
    Accounts fds (d.removeSessions server order turns) ∧
      Twin gone (d.removeSessions server order turns) (c.removeSessions server order turns) ∧
      (c.removeSessions server order turns).sessions = (d.removeSessions server order turns).sessions ∧
      ∀ server', server' ≠ server →
        (d.removeSessions server order turns).sessions server' = d.sessions server' := by
  induction turns generalizing d c with
  | zero => exact ⟨accounts, t, same, fun _ _ => rfl⟩
  | succ turns ih =>
    simp only [Daemon.removeSessions, same]
    rcases first : order.order (d.sessions server).keys with _ | ⟨fd, rest⟩
    · exact ⟨accounts, t, same, fun _ _ => rfl⟩
    · have mem : fd ∈ (d.sessions server).keys := by
        rw [← (order.perm _).mem_iff, first]
        exact List.mem_cons_self
      obtain ⟨owned, here⟩ := mem_sessions.mp mem
      have here' : c.session? server fd = some owned := by
        rw [← here, session?, session?, same]
      have there : ({ c with loop := c.loop.removeFd fd } : Daemon σ).session? server fd = some owned := here'
      have c' : Twin gone d (({ c with loop := c.loop.removeFd fd } : Daemon σ).setSessions server
          ((c.sessions server).erase fd)) :=
        ⟨t.listenFd, t.eventBus, t.allocated, t.destroyed, t.openFds⟩
      have t' := c'.removeSession here
      have both : (c.removeSession server fd).sessions = (d.removeSession server fd).sessions := by
        rw [removeSession_update here, removeSession_update here', same]
      obtain ⟨accounts', t'', same', others⟩ := ih (accounts.removeSession here) (c := c.removeSession server fd)
        (by simp only [Daemon.removeSession, there]; exact t') both
      refine ⟨accounts', t'', same', fun server' ne => ?_⟩
      rw [others server' ne, removeSession_update here, Function.update_of_ne ne]

/-! ### Both destructors -/

/-- The socket is closed in one of the two only. -/
lemma Twin.closeListenFd (t : Twin [] d c) (opened : d.listenFd ≠ -1) :
    Twin [d.listenFd] d c.closeListenFd := by
  rw [Daemon.closeListenFd, if_pos (t.listenFd.trans_ne opened)]
  refine ⟨t.listenFd, t.eventBus, t.allocated, t.destroyed, ?_⟩
  simp only [close, t.listenFd]
  refine (t.openFds.filter _).trans (.of_eq ?_)
  rw [List.filter_filter]
  exact List.filter_congr fun fd _ => by simp

/-- There are no sessions and no handlers, each session ever created has been destroyed, no more than once,
and these descriptors are open. -/
structure Unwound (openFds : List Fd) (c : Daemon σ) : Prop where
  sessions : ∀ server, c.sessions server = ∅
  handlers : c.allocated < 2 ^ 64 → c.eventBus.handlers.keys = []
  accounted : ∀ addr < c.allocated, ∃ record ∈ c.destroyed, record.2.addr = addr
  once : c.destroyed.length = c.allocated
  openFds : c.openFds.Perm openFds

/-- Without sessions there is nothing left but the descriptors of the process. -/
lemma unwound_of_twin (accounts : Accounts fds d) (none : ∀ server, d.sessions server = ∅)
    (t : Twin [fds.listenFd] d c) (same : c.sessions = d.sessions) :
    Unwound (fds.all.filter (· ≠ fds.listenFd)) c := by
  obtain ⟨⟨known, accounted, created⟩, -, held⟩ := accounts
  have noFds : d.sessionFds = [] := by
    rw [sessionFds, none, none]
    rfl
  refine ⟨fun server => by rw [same, none], ?_, ?_, ?_, ?_⟩
  · intro bound
    rw [t.allocated] at bound
    have perm := known.1.1.2.handlers_perm bound
    rw [subscriptionIds, serverIds, serverIds, none, none] at perm
    rw [t.eventBus]
    exact perm.eq_nil
  · intro addr lt
    rw [t.allocated] at lt
    rw [t.destroyed]
    rcases accounted addr lt with ⟨server, fd, owned, here, -⟩ | gone
    · rw [session?, none] at here
      cases here
    · exact gone
  · rw [noFds] at created
    rw [t.destroyed, t.allocated, ← created, List.length_nil, Nat.zero_add]
  · rw [Held, noFds, List.append_nil] at held
    refine t.openFds.trans ((held.filter _).trans (.of_eq ?_))
    exact List.filter_congr fun fd _ => by simp

/-- The destructors of the servers, in a state that is balanced but for its event loop. -/
lemma unwind_unwound (accounts : Accounts fds d) (t : Twin [] d c) (same : c.sessions = d.sessions)
    (opened : fds.listenFd ≠ -1) (order : SessionOrder) :
    Unwound (fds.all.filter (· ≠ fds.listenFd)) (c.unwind order) := by
  have listenFd : d.listenFd = fds.listenFd := accounts.1.1.2.listenFd
  have closed := t.closeListenFd (listenFd.trans_ne opened)
  rw [listenFd] at closed
  have same' : c.closeListenFd.sessions = d.sessions := by
    rw [← same, Daemon.closeListenFd]
    split
    · rfl
    · rfl
  obtain ⟨e, accounts', t', equal, none⟩ := closed.clearSessions accounts same' .qmiServer order
  have turns : ((c.closeListenFd.clearSessions .qmiServer order).sessions .atServer).keys.length =
      (e.sessions .atServer).keys.length := by
    rw [equal]
  obtain ⟨last, t', equal, others⟩ := t'.removeSessions accounts' equal .atServer order
    (e.sessions .atServer).keys.length
  have emptied := (removeSessions_emptied order accounts'.1.1.1.1
    (le_refl (e.sessions .atServer).keys.length)).1
  have unwound : c.unwind order = (c.closeListenFd.clearSessions .qmiServer order).removeSessions .atServer
      order (e.sessions .atServer).keys.length := by
    rw [← turns]
    rfl
  rw [unwound]
  refine unwound_of_twin last (fun server => ?_) t' equal
  cases server with
  | atServer => exact sessions_eq_empty emptied.gone
  | qmiServer =>
    rw [others .qmiServer (by decide)]
    exact sessions_eq_empty none

/-! ### Exceptions -/

/-- The accounts are in order when a session has been created. -/
lemma Accounts.of_created (accounts : Accounts fds d) {server : Server} {fd : Fd} (valid : 0 ≤ fd)
    (new : fd ∉ d.openFds) (created : Created server fd d c) : Accounts fds c := by
  obtain ⟨known, valid', held⟩ := accounts
  have w := known.1.1.1.1
  refine ⟨(kept_accounted fds).created _ _ _ _ known new created, ?_, created.held w held new⟩
  exact created.sessions (P := fun _ fd _ => 0 ≤ fd) valid valid'

/-- A session that is created stays, whether its descriptor can be registered or not. -/
lemma Twin.create (accounts : Accounts fds d) (t : Twin [] d c) (same : c.sessions = d.sessions)
    (server : Server) {fd : Fd} (valid : 0 ≤ fd) (new : fd ∉ d.openFds) (loop : EventLoop Callback) :
    ∃ e, d.create server fd true = .returned e ∧ Created server fd d e ∧ Accounts fds e ∧
      Twin [] e { c.withSession server fd with loop } ∧
      ({ c.withSession server fd with loop } : Daemon σ).sessions = e.sessions := by
  have w := accounts.1.1.1.1.1
  have none := w.none_of_not_open new server
  obtain ⟨e, run⟩ := create_returned w server new
  have made := created none run
  rw [create_eq none, Outcome.map_eq_returned] at run
  obtain ⟨loop', run', rfl⟩ := run
  refine ⟨_, ?_, made, accounts.of_created valid new made, ⟨t.listenFd, ?_, ?_, t.destroyed, ?_⟩, ?_⟩
  · rw [create_eq none, run']
    rfl
  · simp only [withSession, t.eventBus, t.allocated]
  · simp only [withSession, t.allocated]
  · simp only [withSession]
    refine (t.openFds.cons fd).trans (.of_eq ?_)
    simp
  · simp only [withSession, newSession, same, t.eventBus, t.allocated]

/-- An exception leaves a state that is balanced but for its event loop. -/
def Recoverable (fds : Descriptors) (c : Daemon σ) : Prop :=
  ∃ e, Accounts fds e ∧ Twin [] e c ∧ c.sessions = e.sessions

/-- A session that cannot be registered is there all the same, and can be destroyed. -/
lemma create_recoverable (accounts : Accounts fds d) {server : Server} {fd : Fd} (valid : 0 ≤ fd)
    (new : fd ∉ d.openFds) {registers : Bool} (run : d.create server fd registers = .threw c) :
    Recoverable fds c := by
  rw [create_eq (accounts.1.1.1.1.1.none_of_not_open new server)] at run
  rcases added : d.loop.addFd registers fd sessionEvents (.session server fd) with loop | loop
  · rw [added] at run
    cases run
  · rw [added] at run
    cases run
    obtain ⟨e, -, -, accounts', t, same⟩ := (Twin.of_loop d d.loop).create accounts rfl server valid new loop
    exact ⟨e, accounts', t, same⟩

/-- So it is with a client that cannot be registered. -/
lemma acceptLoop_recoverable {accepts : List AcceptResult} (accounts : Accounts fds d)
    (new : fresh d.openFds accepts = true) (run : acceptLoop accepts d = .threw c) : Recoverable fds c := by
  induction accepts generalizing d with
  | nil => cases run
  | cons accept accepts ih =>
    cases accept with
    | client fd registers =>
      simp only [fresh, Bool.and_eq_true, decide_eq_true_eq] at new
      obtain ⟨⟨valid, closed⟩, more⟩ := new
      rw [acceptLoop] at run
      rcases first : d.create .qmiServer fd registers with between | thrown
      · have made := created (accounts.1.1.1.1.1.none_of_not_open closed .qmiServer) first
        rw [first] at run
        exact ih (accounts.of_created valid closed made) (by rw [made.openFds]; exact more) run
      · rw [first] at run
        cases run
        exact create_recoverable accounts valid closed first
    | eintr => exact ih accounts new run
    | eagain => cases run
    | error => cases run

/-- Whatever throws, it leaves such a state. -/
lemma perform_recoverable (accounts : Accounts fds d) {step : Step} (possible : d.possible step = true)
    (run : d.perform M step = .threw c) : Recoverable fds c := by
  have w := accounts.1.1.1.1.1
  cases step with
  | createPty pty registers =>
    cases pty with
    | none =>
      cases run
      exact ⟨d, accounts, Twin.of_loop d d.loop, rfl⟩
    | some pty =>
      simp only [Daemon.possible, fresh, Bool.and_eq_true, decide_eq_true_eq] at possible
      exact create_recoverable accounts possible.1.1 possible.1.2 run
  | deliver fd events env =>
    rw [perform] at run
    rcases callback : d.loop.callbacks.lookup fd with _ | called
    · rw [callback] at run
      cases run
    · rw [callback] at run
      cases called with
      | signal => cases run
      | acceptClients =>
        simp only [call, acceptClients] at run
        split at run
        · cases run
        · exact acceptLoop_recoverable accounts possible run
      | networkTimer => cases run
      | session server fd' =>
        obtain ⟨rfl, owned, here⟩ := (w.callback _ _).mp callback
        obtain ⟨d', returned⟩ := handleClient_returned (M := M) w here events env
        simp only [call, returned] at run
        cases run
  | publish order event => cases run

end MiniModem.Daemon
