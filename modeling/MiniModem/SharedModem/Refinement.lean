import MiniModem.At.Fragmentation
import MiniModem.Daemon.Accounts
import MiniModem.Daemon.Isolation
import MiniModem.Daemon.Origins
import MiniModem.Daemon.Output
import MiniModem.SharedModem.Model

/-!
# The daemon is a shared modem

A session stands for the client with its address, and the bytes written for it, sent or not, are what the
client has been told. Each operation of the daemon that changes sessions carries this relation on
(`Represents`), so each step does what its `actions` do to the shared modem, and a run of the daemon is a
run of the shared modem (`daemon_refines`).
-/

namespace MiniModem
open Lib Transport Modem Daemon

namespace Daemon

/-- The bytes by which a server tells something. -/
def Server.wire (server : Server) : Told → Bytes
  | .registered event => server.registrationBytes event
  | .text response => response
  | .message response => Qmi.encodeMessage response

/-- The requests that a session takes while it is served; none if writing has failed before. -/
def requestsTaken (events : Events) (env : Environment) (owned : Owned .qmiServer) : List Qmi.Message :=
  if (owned.onWritable events env.writes).1 then
    Qmi.Session.requestsRead events env.reads owned.session
  else []

end Daemon

namespace SharedModem

section
variable {σ : Type*} (M : MiniModem.Modem σ)

/-- What a session is asked while it is served. -/
def asked (server : Server) (events : Events) (env : Environment) (owned : Owned server) : List Action :=
  match server, owned with
  | .atServer, owned => (linesServed events env owned).map (.line owned.addr)
  | .qmiServer, owned => (requestsTaken events env owned).map (.request owned.addr)

/-- What a step of the daemon is to the shared modem. -/
def actions (d : Daemon σ) : Step → List Action
  | .createPty _ _ => [.connect .atServer]
  | .deliver fd events env =>
    match d.loop.callbacks.lookup fd with
    | some .acceptClients =>
      if has events EPOLLIN then (Daemon.clients env.accepts).map fun _ => .connect .qmiServer else []
    | some .networkTimer => if has events EPOLLIN then [.timer] else []
    | some (.session server fd) =>
      match d.session? server fd with
      | none => []
      | some owned =>
        asked server events env owned ++
          if (d.serve M server fd events env owned).1 then [] else [.disconnect owned.addr]
    | _ => []
  | .publish _ event => [.publish event]

end

section
variable {σ : Type*}

/-- The output of a session is what the client at its address has been told. -/
def Tells (s : SharedModem σ) (present : Bool) {server : Server} (owned : Owned server) : Prop :=
  ∃ told, s.clients[owned.addr]? = some ⟨server, present, told⟩ ∧
    owned.output = told.flatMap server.wire

/-- The clients are the sessions, those that are gone among them. -/
structure Represents (fds : Descriptors) (d : Daemon σ) (s : SharedModem σ) : Prop where
  accounts : Known fds d ∧ Accounted d ∧ d.sessionFds.length + d.destroyed.length = d.allocated
  modem : s.modem = d.modem
  count : s.clients.length = d.allocated
  live : ∀ server fd owned, d.session? server fd = some owned → s.Tells true owned
  gone : ∀ record ∈ d.destroyed, s.Tells false record.2

variable {M : MiniModem.Modem σ} {fds : Descriptors} {d d' : Daemon σ} {s : SharedModem σ}

/-- The registrations of the daemon are in order. -/
lemma Represents.watched (r : Represents fds d s) : Watched d := r.accounts.1.1.1.1

/-- The client of a session that is there is present. -/
lemma Represents.present (r : Represents fds d s) {server : Server} {fd : Fd} {owned : Owned server}
    (here : d.session? server fd = some owned) : s.clients.present? owned.addr = some server := by
  obtain ⟨told, client, -⟩ := r.live server fd owned here
  exact Audience.present?_eq_some.mpr ⟨told, client⟩

/-- The relation needs nothing of the loop. -/
lemma Represents.of_loop (r : Represents fds d s) {loop : EventLoop Callback}
    (accounts : Known fds { d with loop }) : Represents fds { d with loop } s where
  accounts := ⟨accounts, r.accounts.2⟩
  modem := r.modem
  count := r.count
  live := r.live
  gone := r.gone

/-- The modem changes in both. -/
lemma Represents.of_modem (r : Represents fds d s) (modem : σ) :
    Represents fds { d with modem } { s with modem } where
  accounts := (kept_accounted fds).same _ _ r.accounts
    ⟨rfl, rfl, rfl, rfl, rfl, rfl, rfl, rfl, fun _ _ => rfl⟩
  modem := rfl
  count := r.count
  live := r.live
  gone := r.gone

/-- A session queues what its client is told. -/
lemma Represents.of_modify (r : Represents fds d s) (told : List Told) {server : Server} {fd : Fd}
    {owned : Owned server} (here : d.session? server fd = some owned) {f : Owned server → Owned server}
    (keep : (f owned).identity = owned.identity)
    (output : (f owned).output = owned.output ++ told.flatMap server.wire) :
    Represents fds (d.modifySession server fd f) { s with clients := s.clients.tell owned.addr told } := by
  obtain ⟨⟨⟨⟨-, sub⟩, recorded⟩, -⟩, -⟩ := r.accounts
  have same : SameFrame d (d.modifySession server fd f) := by
    refine .modifySession fun owned' there => ?_
    rw [here] at there
    cases there
    exact keep
  refine ⟨(kept_accounted fds).same _ _ r.accounts same, r.modem, ?_, ?_, ?_⟩
  · rw [Audience.length_tell]
    exact r.count
  · intro server' fd' owned' there
    by_cases this : server' = server ∧ fd' = fd
    · obtain ⟨rfl, rfl⟩ := this
      rw [session?_modifySession_self, here] at there
      cases there
      obtain ⟨before, client, e⟩ := r.live server' fd' owned here
      have addr : (f owned).addr = owned.addr := congrArg Prod.fst keep
      refine ⟨before ++ told, ?_, ?_⟩
      · rw [addr, Audience.tell_self, client]
        rfl
      · rw [output, e, List.flatMap_append]
    · rw [session?_modifySession_ne (by tauto)] at there
      have ne : owned'.addr ≠ owned.addr := by
        intro e
        obtain ⟨rfl, rfl⟩ := sub.unique _ _ _ _ _ _ here there e.symm
        exact this ⟨rfl, rfl⟩
      rw [Tells, Audience.tell_ne ne]
      exact r.live server' fd' owned' there
  · intro record mem
    have ne : record.2.addr ≠ owned.addr := (recorded.gone record mem server fd owned here).symm
    rw [Tells, Audience.tell_ne ne]
    exact r.gone record mem

/-- The registrations are told. -/
lemma hear_output {server : Server} (events : List ModemEvent) (owned : Owned server) :
    (owned.hear 1 events).output = owned.output ++ (news events).flatMap server.wire := by
  simp only [Owned.output, Owned.hear, Function.iterate_one]
  generalize owned.session = session
  induction events generalizing session with
  | nil => simp
  | cons event events ih =>
    rw [List.foldl_cons, ih, Server.onEvent_eq, news_cons]
    split
    · simp [Session.queue, Server.wire]
    · rfl

/-- All sessions hear what all clients are told. -/
lemma Represents.of_publishAll (r : Represents fds d s) (bound : d.allocated < 2 ^ 64)
    (order : IterationOrder) (events : List ModemEvent) :
    Represents fds (d.publishAll order events) { s with clients := s.clients.announce (news events) } := by
  have same := SameFrame.publishAll order events d
  refine ⟨(kept_accounted fds).same _ _ r.accounts same, ?_, ?_, ?_, ?_⟩
  · rw [publishAll_modem]
    exact r.modem
  · rw [Audience.length_announce, same.allocated]
    exact r.count
  · intro server fd owned there
    rw [session?_publishAll, Option.map_eq_some_iff] at there
    obtain ⟨before, here, rfl⟩ := there
    obtain ⟨told, client, e⟩ := r.live server fd before here
    rw [r.accounts.1.1.1.2.reach_eq_one bound here]
    refine ⟨told ++ news events, ?_, ?_⟩
    · rw [Audience.announce_get]
      exact congrArg (Option.map _) client
    · rw [hear_output, e, List.flatMap_append]
  · rw [same.destroyed]
    intro record mem
    obtain ⟨told, client, e⟩ := r.gone record mem
    refine ⟨told, ?_, e⟩
    rw [Audience.announce_get, client]
    rfl

/-- A new session stands for a client that has just connected. -/
lemma Represents.of_created (r : Represents fds d s) {server : Server} {fd : Fd} (new : fd ∉ d.openFds)
    (c : Created server fd d d') (modem : d'.modem = d.modem) :
    Represents fds d' { s with clients := s.clients.join server } := by
  refine ⟨(kept_accounted fds).created _ _ _ _ r.accounts new c, r.modem.trans modem.symm, ?_, ?_, ?_⟩
  · rw [Audience.length_join, r.count, c.allocated]
  · refine c.sessions (P := fun _ _ owned => Tells { s with clients := s.clients.join server } true owned)
      ⟨[], ?_, rfl⟩ ?_
    · show (s.clients.join server)[d.allocated]? = _
      rw [← r.count]
      exact Audience.join_self server s.clients
    · intro server' fd' owned here
      obtain ⟨told, client, e⟩ := r.live server' fd' owned here
      exact ⟨told, Audience.join_of_some client, e⟩
  · rw [c.destroyed]
    intro record mem
    obtain ⟨told, client, e⟩ := r.gone record mem
    exact ⟨told, Audience.join_of_some client, e⟩

/-- A session that is removed stands for a client that has left. -/
lemma Represents.of_removed (r : Represents fds d s) {server : Server} {fd : Fd} {owned : Owned server}
    (here : d.session? server fd = some owned) (removed : Removed server fd owned d d')
    (modem : d'.modem = d.modem) :
    Represents fds d' { s with clients := s.clients.leave owned.addr } := by
  obtain ⟨⟨⟨⟨-, sub⟩, recorded⟩, -⟩, -⟩ := r.accounts
  refine ⟨(kept_accounted fds).removed _ _ _ _ _ r.accounts here removed, r.modem.trans modem.symm, ?_, ?_,
    ?_⟩
  · rw [Audience.length_leave, r.count, removed.allocated]
  · intro server' fd' owned' there
    obtain ⟨other, there⟩ := removed.session_iff.mp there
    have ne : owned'.addr ≠ owned.addr := by
      intro e
      obtain ⟨rfl, rfl⟩ := sub.unique _ _ _ _ _ _ here there e.symm
      exact other.elim (fun ne => ne rfl) (fun ne => ne rfl)
    rw [Tells, Audience.leave_ne ne]
    exact r.live server' fd' owned' there
  · rw [removed.destroyed]
    intro record mem
    rw [List.mem_append, List.mem_singleton] at mem
    rcases mem with mem | rfl
    · have ne : record.2.addr ≠ owned.addr := (recorded.gone record mem server fd owned here).symm
      rw [Tells, Audience.leave_ne ne]
      exact r.gone record mem
    · obtain ⟨told, client, e⟩ := r.live server fd owned here
      refine ⟨told, ?_, e⟩
      rw [Audience.leave_self]
      exact congrArg (Option.map _) client

/-! ### A session that is served -/

/-- A change that writes nothing for the client. -/
lemma Represents.of_silent (r : Represents fds d s) {server : Server} {fd : Fd} {owned : Owned server}
    (here : d.session? server fd = some owned) {f : Owned server → Owned server}
    (keep : (f owned).identity = owned.identity) (output : (f owned).output = owned.output) :
    Represents fds (d.modifySession server fd f) s := by
  have silent := r.of_modify [] here keep (by rw [output, List.flatMap_nil, List.append_nil])
  rwa [Audience.tell_nil] at silent

/-- Handling a line is an action of its client. -/
lemma step_line (r : Represents fds d s) (bound : d.allocated < 2 ^ 64) {fd : Fd}
    {owned : Owned .atServer} (here : d.session? .atServer fd = some owned) (order : IterationOrder)
    (line : Bytes) :
    ∃ s', (system M).step s (.line owned.addr line) = some s' ∧
      Represents fds (d.handleLine M order fd line) s' := by
  have told := (r.of_modem (M.handleAt d.modem line).1).of_publishAll bound order
    (M.handleAt d.modem line).2.2
  have there : (publishAll order (M.handleAt d.modem line).2.2
      { d with modem := (M.handleAt d.modem line).1 }).session? .atServer fd =
        some (owned.hear (d.reach order ⟨.atServer, owned.addr⟩) (M.handleAt d.modem line).2.2) := by
    rw [session?_publishAll]
    exact congrArg (Option.map _) here
  have answered := told.of_modify [.text (M.handleAt d.modem line).2.1] there
    (f := fun owned => { owned with session := At.Session.queueText (M.handleAt d.modem line).2.1 owned.session })
    rfl ((queue_output _ _).trans (by simp [Server.wire]))
  refine ⟨_, ?_, answered⟩
  simp only [system, r.present here, if_true, r.modem]
  rfl

/-- Handling several lines is as many actions. -/
lemma exec_lines (r : Represents fds d s) (bound : d.allocated < 2 ^ 64) {fd : Fd}
    {owned : Owned .atServer} (here : d.session? .atServer fd = some owned) (order : IterationOrder)
    (lines : List Bytes) :
    ∃ s', (system M).exec s (lines.map (.line owned.addr)) = some s' ∧
      Represents fds (lines.foldl (fun d line => d.handleLine M order fd line) d) s' := by
  induction lines generalizing d s owned with
  | nil => exact ⟨s, rfl, r⟩
  | cons line lines ih =>
    obtain ⟨between, first, r'⟩ := step_line (M := M) r bound here order line
    have frame := (serves_handleLine (M := M) order fd line d).frame
    obtain ⟨owned', there, identity⟩ := frame.owned here
    obtain ⟨s', rest, r''⟩ := ih r' (by rwa [frame.allocated]) there
    have addr : owned'.addr = owned.addr := congrArg Prod.fst identity
    rw [addr] at rest
    exact ⟨s', ((system M).exec_cons_eq_some).mpr ⟨between, first, rest⟩, r''⟩

/-- Requests leave the modem as it is, so they can all be answered at once. -/
lemma exec_requests {c : ℕ} (present : s.clients.present? c = some .qmiServer)
    (requests : List Qmi.Message) :
    (system M).exec s (requests.map (.request c)) =
      some { s with
        clients :=
          s.clients.tell c (requests.map fun request => .message (Qmi.dispatch M s.modem request)) } := by
  induction requests generalizing s with
  | nil =>
    rw [List.map_nil, List.map_nil, Audience.tell_nil]
    rfl
  | cons request requests ih =>
    have first : (system M).step s (.request c request) =
        some { s with clients := s.clients.tell c [.message (Qmi.dispatch M s.modem request)] } := by
      simp only [system, present, if_true]
    refine ((system M).exec_cons_eq_some).mpr ⟨_, first, ?_⟩
    rw [ih (by rwa [Audience.present?_tell]), Audience.tell_tell]
    rfl

/-- The frames that are queued are those of the responses told. -/
lemma answers_wire (modem : σ) (requests : List Qmi.Message) :
    (Qmi.Session.answers M modem requests).flatten =
      (requests.map fun request => Told.message (Qmi.dispatch M modem request)).flatMap
        Server.qmiServer.wire := by
  rw [List.flatMap_map, Qmi.Session.answers, List.flatMap_def]
  rfl

/-- A session that does not read is asked nothing. -/
lemma asked_eq_nil {server : Server} {events : Events} {env : Environment} {owned : Owned server}
    (reads : ¬ ((owned.onWritable events env.writes).1 && has events EPOLLIN) = true) :
    asked server events env owned = [] := by
  rw [Bool.and_eq_true, not_and] at reads
  cases server with
  | atServer =>
    simp only [asked, linesServed, At.linesRead]
    grind
  | qmiServer =>
    simp only [asked, requestsTaken, Qmi.Session.requestsRead]
    grind

/-- Serving a session does what it is asked. -/
lemma exec_asked (r : Represents fds d s) (bound : d.allocated < 2 ^ 64) {server : Server} {fd : Fd}
    {owned : Owned server} (here : d.session? server fd = some owned) (events : Events)
    (env : Environment) :
    ∃ s', (system M).exec s (asked server events env owned) = some s' ∧
      Represents fds (d.serve M server fd events env owned).2 s' := by
  have written := r.of_silent here (f := fun _ => (owned.onWritable events env.writes).2)
    (onWritable_identity events env.writes owned) (onWritable_written events env.writes owned)
  have there : (d.modifySession server fd fun _ => (owned.onWritable events env.writes).2).session?
      server fd = some (owned.onWritable events env.writes).2 := by
    rw [session?_modifySession_self, here]
    rfl
  have addr : (owned.onWritable events env.writes).2.addr = owned.addr :=
    congrArg Prod.fst (onWritable_identity events env.writes owned)
  have input := onWritable_input events env.writes owned
  rw [serve_eq]
  by_cases reads : ((owned.onWritable events env.writes).1 && has events EPOLLIN) = true
  · have alive := (Bool.and_eq_true _ _ ▸ reads).1
    rw [if_pos reads]
    cases server with
    | atServer =>
      obtain ⟨s', run, r'⟩ := exec_lines (M := M) written bound there env.order
        (At.linesRead events env.reads owned.session.input)
      rw [addr] at run
      rw [← input, ← At.onReadable_world] at r'
      refine ⟨s', ?_, ?_⟩
      · simp only [asked, linesServed, alive, if_true, run]
      · obtain ⟨last, still, -⟩ := (serves_handleLines (M := M) env.order fd
          (At.linesRead events env.reads (owned.onWritable events env.writes).2.session.input) _).frame.owned
            there
        rw [← At.onReadable_world] at still
        exact r'.of_silent still rfl rfl
    | qmiServer =>
      have taken : asked .qmiServer events env owned =
          (Qmi.Session.requestsRead events env.reads owned.session).map (.request owned.addr) := by
        simp only [asked, requestsTaken, alive, if_true]
      have present := written.present there
      rw [addr] at present
      have run := exec_requests (M := M) present
        (Qmi.Session.requestsRead events env.reads owned.session)
      rw [← taken] at run
      refine ⟨_, run, ?_⟩
      rw [onReadable_qmi, ← addr]
      refine written.of_modify _ there ?_ ?_
      · rw [Qmi.Session.onReadable_session]
        rfl
      · rw [Qmi.Session.onReadable_session, written.modem, ← answers_wire]
        simp only [Owned.output, Outbox.pending_pushAll, List.append_assoc, Qmi.Session.requestsRead,
          input]
  · rw [if_neg reads, asked_eq_nil reads]
    exact ⟨s, rfl, written⟩

/-- The callback of a session does what it is asked, and a session that is removed has left. -/
lemma exec_served (r : Represents fds d s) (bound : d.allocated < 2 ^ 64) {server : Server} {fd : Fd}
    {owned : Owned server} (here : d.session? server fd = some owned) {events : Events}
    {env : Environment} (run : d.handleClient M server fd events env = .returned d') :
    ∃ s', (system M).exec s (asked server events env owned ++
        if (d.serve M server fd events env owned).1 then [] else [.disconnect owned.addr]) = some s' ∧
      Represents fds d' s' := by
  obtain ⟨between, first, r'⟩ := exec_asked (M := M) r bound here events env
  obtain ⟨last, there, identity, modem, ⟨dead, removed⟩ | ⟨alive, rfl⟩⟩ :=
    handleClient_inv r.watched here run
  · have addr : last.addr = owned.addr := congrArg Prod.fst identity
    have present := r'.present there
    refine ⟨_, ?_, r'.of_removed there removed modem⟩
    rw [System.exec_append, first, dead]
    refine ((system M).exec_cons_eq_some).mpr ⟨_, ?_, rfl⟩
    simp only [system, ← addr, present, Option.isSome_some, if_true]
  · refine ⟨between, ?_, r'.of_loop ((kept_known fds).updated _ _ _ _ r'.accounts.1 there)⟩
    rw [System.exec_append, first, alive]
    rfl

/-! ### Steps and runs -/

/-- Creating a session leaves the modem alone. -/
lemma create_modem {server : Server} {fd : Fd} {registers : Bool} (free : d.session? server fd = none)
    (run : d.create server fd registers = .returned d') : d'.modem = d.modem := by
  rw [create_eq free, Outcome.map_eq_returned] at run
  obtain ⟨loop, -, rfl⟩ := run
  rfl

/-- Each client that is accepted connects. -/
lemma exec_accepted (r : Represents fds d s) {accepts : List AcceptResult}
    (new : fresh d.openFds accepts = true) (run : acceptLoop accepts d = .returned d') :
    ∃ s', (system M).exec s ((Daemon.clients accepts).map fun _ => .connect .qmiServer) = some s' ∧
      Represents fds d' s' := by
  induction accepts generalizing d s with
  | nil =>
    cases run
    exact ⟨s, rfl, r⟩
  | cons accept accepts ih =>
    cases accept with
    | client fd registers =>
      obtain ⟨between, first, rest⟩ := Outcome.andThen_eq_returned.mp run
      simp only [fresh, Bool.and_eq_true, decide_eq_true_eq] at new
      obtain ⟨⟨-, closed⟩, more⟩ := new
      have free := r.watched.none_of_not_open closed .qmiServer
      have c := created free first
      rw [← c.openFds] at more
      obtain ⟨s', run', r'⟩ := ih (r.of_created closed c (create_modem free first)) more rest
      exact ⟨s', ((system M).exec_cons_eq_some).mpr ⟨_, rfl, run'⟩, r'⟩
    | eintr => exact ih r new run
    | eagain =>
      cases run
      exact ⟨s, rfl, r⟩
    | error =>
      cases run
      exact ⟨s, rfl, r⟩

/-- A step of the daemon is some actions of the shared modem. -/
lemma exec_actions (r : Represents fds d s) (bound : d.allocated < 2 ^ 64) {step : Step}
    (run : (Daemon.system M).step d step = some d') :
    ∃ s', (system M).exec s (actions M d step) = some s' ∧ Represents fds d' s' := by
  have accounts := (kept_accounted fds).step r.accounts run
  cases step_effect run with
  | @createPty master slave registers _ new created =>
    have free := r.watched.none_of_not_open new .atServer
    exact ⟨_, rfl, r.of_created new (Daemon.created free created) (create_modem free created)⟩
  | skipped callback =>
    refine ⟨s, ?_, r⟩
    rw [actions, callback]
    rfl
  | stopped callback =>
    refine ⟨s, ?_, r.of_loop accounts.1⟩
    rw [actions, callback]
    rfl
  | @accepted fd events env accepts _ callback new accepted =>
    obtain ⟨new', called⟩ := step_call run callback
    simp only [call, acceptClients] at called
    simp only [actions, callback]
    by_cases readable : has events EPOLLIN = true
    · simp only [readable, Bool.not_true] at called
      rw [if_pos readable]
      exact exec_accepted r new' called
    · simp only [readable, Bool.not_false] at called
      cases called
      rw [if_neg readable]
      exact ⟨s, rfl, r⟩
  | @timer fd events env callback =>
    simp only [actions, callback, networkTimer]
    by_cases readable : has events EPOLLIN = true
    · have told := (r.of_modem (M.networkSearchComplete d.modem).1).of_publishAll bound env.order
        (M.networkSearchComplete d.modem).2.2
      simp only [readable, Bool.not_true, if_true]
      refine ⟨_, ?_, told⟩
      rw [← r.modem]
      rfl
    · simp only [readable, Bool.not_false, if_true]
      exact ⟨s, rfl, r⟩
  | @served fd fd' events env server _ callback handled =>
    obtain ⟨rfl, owned, here⟩ := (r.watched.callback _ _).mp callback
    simp only [actions, callback, here]
    exact exec_served r bound here handled
  | @published order event => exact ⟨_, rfl, r.of_publishAll bound order [event]⟩

/-- Nobody has connected yet. -/
lemma boot_represents (fds : Descriptors) (modem : σ) : Represents fds (boot fds modem) { modem } where
  accounts := (boot_accounts fds modem).1
  modem := rfl
  count := rfl
  live _ _ _ here := by cases here
  gone _ mem := absurd mem List.not_mem_nil

/-- A run of the daemon is a run of the shared modem that it goes on to represent. -/
lemma exec_represents {modem : σ} {steps : List Step}
    (run : (Daemon.system M).exec (boot fds modem) steps = some d) (bound : d.allocated < 2 ^ 64) :
    ∃ s, (system M).exec { modem } ((Daemon.system M).project (fun d step _ => actions M d step)
        (boot fds modem) steps) = some s ∧
      Represents fds d s := by
  refine System.exec_project (R := Represents fds) (Q := fun d => Watched d → d.allocated < 2 ^ 64)
    ?_ ?_ (boot_represents fds modem) run (fun _ => bound)
  · exact fun d step d' taken last w =>
      (step_allocated w taken).trans_lt (last (kept_watched.step w taken))
  · intro d step d' s r taken last
    have w := r.watched
    exact exec_actions r ((step_allocated w taken).trans_lt (last (kept_watched.step w taken))) taken

/-- Every client is that of a session. -/
lemma Represents.session (r : Represents fds d s) {addr : ℕ} {client : Listener Server Told}
    (there : s.clients[addr]? = some client) :
    (client.present = true ∧
        ∃ fd, ∃ owned : Owned client.kind, d.session? client.kind fd = some owned ∧ owned.addr = addr) ∨
      (client.present = false ∧
        ∃ owned : Owned client.kind, ⟨client.kind, owned⟩ ∈ d.destroyed ∧ owned.addr = addr) := by
  obtain ⟨lt, -⟩ := List.getElem?_eq_some_iff.mp there
  rw [r.count] at lt
  rcases r.accounts.2.1 addr lt with ⟨server, fd, owned, here, rfl⟩ | ⟨⟨server, owned⟩, mem, rfl⟩
  · obtain ⟨told, client', -⟩ := r.live server fd owned here
    rw [there] at client'
    cases client'
    exact .inl ⟨rfl, fd, owned, here, rfl⟩
  · obtain ⟨told, client', -⟩ := r.gone _ mem
    rw [there] at client'
    cases client'
    exact .inr ⟨rfl, owned, mem, rfl⟩

end

/-- A run of the daemon in which fewer than 2^64 sessions are created is a run of the shared modem. At its
end the modem is in the same state, the clients that are there are the sessions, those that have left are
the sessions destroyed, and the bytes written for a session, sent or pending, are those by which its client
has been told what it has been told. -/
theorem daemon_refines {σ : Type*} (M : MiniModem.Modem σ) (fds : Descriptors) (modem : σ) (steps : List Step)
    (d : Daemon σ) (run : (Daemon.system M).exec (boot fds modem) steps = some d)
    (bound : d.allocated < 2 ^ 64) :
    ∃ s, (system M).exec { modem } ((Daemon.system M).project (fun d step _ => actions M d step)
        (boot fds modem) steps) = some s ∧
      s.modem = d.modem ∧
      (∀ server fd owned, d.session? server fd = some owned → s.Tells true owned) ∧
      (∀ record ∈ d.destroyed, s.Tells false record.2) ∧
      ∀ (addr : ℕ) (client : Listener Server Told), s.clients[addr]? = some client →
        (client.present = true ∧
            ∃ fd, ∃ owned : Owned client.kind, d.session? client.kind fd = some owned ∧ owned.addr = addr) ∨
          (client.present = false ∧
            ∃ owned : Owned client.kind, ⟨client.kind, owned⟩ ∈ d.destroyed ∧ owned.addr = addr) := by
  obtain ⟨s, run', r⟩ := exec_represents run bound
  exact ⟨s, run', r.modem, r.live, r.gone, fun _ _ there => r.session there⟩

/-- A terminal and a client of the QMI server. The terminal sends a line and is closed, the search for a network
ends, and the client asks for the signal strength. -/
def lineAndRequest : List Step :=
  [.createPty (some (7, 8)) true, .deliver 6 EPOLLIN { accepts := [.client 8 true] },
    .deliver 7 EPOLLIN { reads := [.bytes At.attention, .error] }, .deliver 5 EPOLLIN {},
    .deliver 8 EPOLLIN { reads := [.bytes Qmi.signalRequest] }]

/-- The run of the daemon has a counterpart. -/
theorem daemon_refines_lineAndRequest :
    ∃ d s, (Daemon.system sampleModem).exec (boot sampleDescriptors false) lineAndRequest = some d ∧
      (system sampleModem).exec { modem := false }
        ((Daemon.system sampleModem).project (fun d step _ => actions sampleModem d step)
          (boot sampleDescriptors false) lineAndRequest) = some s ∧
      s.modem = d.modem ∧ ∀ server fd owned, d.session? server fd = some owned → s.Tells true owned := by
  have ran : ∃ d, (Daemon.system sampleModem).exec (boot sampleDescriptors false) lineAndRequest = some d ∧
      d.allocated < 2 ^ 64 := ⟨_, rfl, by decide⟩
  obtain ⟨d, run, bound⟩ := ran
  obtain ⟨s, run', modem, live, -⟩ :=
    daemon_refines sampleModem sampleDescriptors false lineAndRequest d run bound
  exact ⟨d, s, run, run', modem, live⟩

end SharedModem

end MiniModem
