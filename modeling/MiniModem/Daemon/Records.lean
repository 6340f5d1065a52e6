import MiniModem.Daemon.Sessions

/-!
# Where sessions come from and where they go

A QMI session is created in the loop around `accept4`, for one of the clients that it accepts, and its
address says for which (`acceptLoop_clients`). The record of the sessions destroyed has each session at
most once, and only when it is gone (`Recorded`). The descriptors that the process had when it started stay
open and never belong to a session (`Based`).
-/

namespace MiniModem.Daemon
open Lib Transport Modem

variable {σ : Type*} {M : MiniModem.Modem σ}

/-! ### The sessions destroyed -/

/-- The record of the sessions destroyed: they are gone, and nobody is in it twice. -/
structure Recorded (d : Daemon σ) : Prop where
  lt : ∀ record ∈ d.destroyed, record.2.addr < d.allocated
  gone : ∀ record ∈ d.destroyed, ∀ server fd owned, d.session? server fd = some owned →
    owned.addr ≠ record.2.addr
  unique : ∀ record ∈ d.destroyed, ∀ record' ∈ d.destroyed, record.2.addr = record'.2.addr →
    record = record'

/-- Every operation keeps the records in order. -/
lemma kept_recorded : Kept fun d : Daemon σ => (Watched d ∧ Subscribed d) ∧ Recorded d := by
  refine kept_subscribed.and ?_ ?_ ?_ ?_ ?_
  · intro d d' _ recorded same
    refine ⟨?_, ?_, ?_⟩
    · rw [same.destroyed, same.allocated]
      exact recorded.lt
    · rw [same.destroyed]
      intro record mem server fd owned here
      obtain ⟨before, was, identity⟩ := same.symm.owned here
      have addr : before.addr = owned.addr := congrArg Prod.fst identity
      rw [← addr]
      exact recorded.gone record mem server fd before was
    · rw [same.destroyed]
      exact recorded.unique
  · intro server fd d d' both recorded new c
    refine ⟨?_, ?_, ?_⟩
    · rw [c.destroyed, c.allocated]
      exact fun record mem => Nat.lt_succ_of_lt (recorded.lt record mem)
    · rw [c.destroyed]
      intro record mem
      exact c.sessions (recorded.lt record mem).ne' (recorded.gone record mem)
    · rw [c.destroyed]
      exact recorded.unique
  · intro server fd owned d d' both recorded here r
    have mem_iff : ∀ record, record ∈ d'.destroyed ↔ record ∈ d.destroyed ∨ record = ⟨server, owned⟩ := by
      intro record
      rw [r.destroyed, List.mem_append, List.mem_singleton]
    refine ⟨?_, ?_, ?_⟩
    · intro record mem
      rw [r.allocated]
      rcases (mem_iff record).mp mem with mem | rfl
      · exact recorded.lt record mem
      · exact (both.2.subscription server fd owned here).2
    · intro record mem server' fd' owned' there e
      obtain ⟨other, there⟩ := r.session_iff.mp there
      rcases (mem_iff record).mp mem with mem | rfl
      · exact recorded.gone record mem server' fd' owned' there e
      · obtain ⟨rfl, rfl⟩ := both.2.unique _ _ _ _ _ _ here there e.symm
        simp at other
    · intro record mem record' mem' e
      rcases (mem_iff record).mp mem with mem | rfl
      · rcases (mem_iff record').mp mem' with mem' | rfl
        · exact recorded.unique record mem record' mem' e
        · exact absurd e.symm (recorded.gone record mem server fd owned here)
      · rcases (mem_iff record').mp mem' with mem' | rfl
        · exact absurd e (recorded.gone record' mem' server fd owned here)
        · rfl
  · exact fun d _ recorded => ⟨recorded.lt, recorded.gone, recorded.unique⟩
  · exact fun d recorded => ⟨recorded.lt, recorded.gone, recorded.unique⟩

/-- What a step adds to the record: nothing, or a session that was there before. -/
lemma step_destroyed {d d' : Daemon σ} {step : Step} (w : Watched d)
    (run : (system M).step d step = some d') :
    d'.destroyed = d.destroyed ∨ ∃ server fd, ∃ owned last : Owned server,
      d.session? server fd = some owned ∧ last.addr = owned.addr ∧
        d'.destroyed = d.destroyed ++ [⟨server, last⟩] := by
  cases step_effect run with
  | createPty new run => exact .inl (created (w.none_of_not_open new .atServer) run).destroyed
  | skipped => exact .inl rfl
  | stopped => exact .inl rfl
  | accepted callback new run =>
    refine .inl (acceptLoop_rule (P := fun between => Watched between ∧
      between.destroyed = d.destroyed) (fun _ both => both.1) ?_ ⟨w, rfl⟩ new run).2
    exact fun fd between after both new c => ⟨both.1.of_created new c, c.destroyed.trans both.2⟩
  | timer => exact .inl (Kept.sameFrame_networkTimer (M := M) _ _ d).destroyed
  | @served fd fd' events env server d' callback handled =>
    obtain ⟨rfl, owned, here⟩ := (w.callback _ _).mp callback
    have frame := (serves_serve (M := M) here events env).frame
    obtain ⟨last, -, identity, -, ⟨-, r⟩ | ⟨-, rfl⟩⟩ := handleClient_inv w here handled
    · refine .inr ⟨server, _, owned, last, here, congrArg Prod.fst identity, ?_⟩
      rw [r.destroyed, frame.destroyed]
    · exact .inl frame.destroyed
  | published => exact .inl (SameFrame.publish _ _ d).destroyed

/-- A step leaves a session under its descriptor, or none. -/
lemma step_old {d d' : Daemon σ} {step : Step} (w : Watched d)
    (run : (system M).step d step = some d') {server : Server} {fd : Fd} {owned after : Owned server}
    (here : d.session? server fd = some owned) (there : d'.session? server fd = some after) :
    after.addr = owned.addr := by
  rcases step_owned w run here with ⟨events, env, rfl, handled⟩ | ⟨-, heard, -⟩
  · obtain ⟨last, here', identity, -, ⟨-, r⟩ | ⟨-, rfl⟩⟩ := handleClient_inv w here handled
    · rw [r.gone] at there
      cases there
    · have same : some last = some after := here'.symm.trans there
      cases same
      exact congrArg Prod.fst identity
  · rw [heard, here] at there
    cases there
    rfl

/-- The number of sessions created never falls. -/
lemma step_allocated {d d' : Daemon σ} {step : Step} (w : Watched d)
    (run : (system M).step d step = some d') : d.allocated ≤ d'.allocated := by
  have kept : Kept fun between : Daemon σ => Watched between ∧ d.allocated ≤ between.allocated := by
    refine kept_watched.and ?_ ?_ ?_ ?_ ?_
    · intro between after _ le same
      rw [same.allocated]
      exact le
    · intro server fd between after _ le _ c
      rw [c.allocated]
      exact Nat.le_succ_of_le le
    · intro server fd owned between after _ le _ r
      rw [r.allocated]
      exact le
    · exact fun _ _ le => le
    · exact fun _ le => le
  exact (kept.step ⟨w, le_rfl⟩ run).2

/-! ### The clients accepted -/

/-- The descriptors of the clients that the loop around `accept4` gets. -/
def clients : List AcceptResult → List Fd
  | [] => []
  | .client fd _ :: accepts => fd :: clients accepts
  | .eintr :: accepts => clients accepts
  | .eagain :: _ => []
  | .error :: _ => []

/-- Sessions survive the loop around `accept4`. -/
lemma acceptLoop_still {accepts : List AcceptResult} {d d' : Daemon σ} (w : Watched d)
    (new : fresh d.openFds accepts = true) (run : acceptLoop accepts d = .returned d')
    {server : Server} {fd : Fd} {owned : Owned server} (here : d.session? server fd = some owned) :
    d'.session? server fd = some owned := by
  refine (acceptLoop_rule (P := fun between => Watched between ∧
    between.session? server fd = some owned) (fun _ both => both.1) ?_ ⟨w, here⟩ new run).2
  intro fd' between after both new c
  exact ⟨both.1.of_created new c, c.still (both.1.none_of_not_open new .qmiServer) both.2⟩

/-- Each client gets a session, with the next address. -/
lemma acceptLoop_clients {accepts : List AcceptResult} {d d' : Daemon σ} (w : Watched d)
    (new : fresh d.openFds accepts = true) (run : acceptLoop accepts d = .returned d') {i : ℕ} {fd : Fd}
    (client : (clients accepts)[i]? = some fd) :
    (0 ≤ fd ∧ fd ∉ d.openFds) ∧ ∃ owned, d'.session? .qmiServer fd = some owned ∧ Unused owned ∧
      owned.addr = d.allocated + i := by
  induction accepts generalizing d i with
  | nil => cases client
  | cons accept accepts ih =>
    cases accept with
    | client fd' registers =>
      obtain ⟨d'', first, rest⟩ := Outcome.andThen_eq_returned.mp run
      simp only [fresh, Bool.and_eq_true, decide_eq_true_eq] at new
      obtain ⟨⟨valid, closed⟩, more⟩ := new
      have c := created (w.none_of_not_open closed .qmiServer) first
      have w' := w.of_created closed c
      rw [← c.openFds] at more
      cases i with
      | zero =>
        cases client
        exact ⟨⟨valid, closed⟩, _, acceptLoop_still w' more rest c.here, ⟨rfl, rfl, rfl⟩, rfl⟩
      | succ i =>
        obtain ⟨⟨valid', closed'⟩, owned, here, unused, addr⟩ := ih w' more rest client
        rw [c.openFds, List.mem_cons, not_or] at closed'
        refine ⟨⟨valid', closed'.2⟩, owned, here, unused, ?_⟩
        rw [addr, c.allocated]
        omega
    | eintr => exact ih w new run client
    | eagain => cases client
    | error => cases client

/-- There are no other new sessions. -/
lemma acceptLoop_only {accepts : List AcceptResult} {d d' : Daemon σ} (w : Watched d)
    (new : fresh d.openFds accepts = true) (run : acceptLoop accepts d = .returned d')
    {server : Server} {fd : Fd} {owned : Owned server} (here : d'.session? server fd = some owned) :
    d.session? server fd = some owned ∨
      d.allocated ≤ owned.addr ∧ (clients accepts)[owned.addr - d.allocated]? = some fd := by
  induction accepts generalizing d with
  | nil =>
    cases run
    exact .inl here
  | cons accept accepts ih =>
    cases accept with
    | client fd' registers =>
      obtain ⟨d'', first, rest⟩ := Outcome.andThen_eq_returned.mp run
      simp only [fresh, Bool.and_eq_true, decide_eq_true_eq] at new
      obtain ⟨⟨-, closed⟩, more⟩ := new
      have c := created (w.none_of_not_open closed .qmiServer) first
      rw [← c.openFds] at more
      rcases ih (w.of_created closed c) more rest with was | ⟨le, client⟩
      · refine c.sessions (P := fun server fd owned => d.session? server fd = some owned ∨
          d.allocated ≤ owned.addr ∧
            (clients (.client fd' registers :: accepts))[owned.addr - d.allocated]? = some fd)
          (.inr ⟨le_rfl, ?_⟩) (fun _ _ _ was => .inl was) server fd owned was
        simp [newSession, clients]
      · rw [c.allocated] at le client
        refine .inr ⟨by omega, ?_⟩
        have next : owned.addr - d.allocated = owned.addr - (d.allocated + 1) + 1 := by omega
        rw [next]
        exact client
    | eintr => exact ih w new run
    | eagain =>
      cases run
      exact .inl here
    | error =>
      cases run
      exact .inl here

/-! ### Steps that do not fail -/

/-- With a new descriptor that can be registered a session is created. -/
lemma create_returned {d : Daemon σ} (w : Watched d) (server : Server) {fd : Fd} (new : fd ∉ d.openFds) :
    ∃ d', d.create server fd true = .returned d' := by
  have notIn : fd ∉ d.loop.epoll.interest := fun mem => new (w.isOpen fd ((w.interest fd).mp mem))
  rw [create_eq (w.none_of_not_open new server)]
  simp only [Outcome.map_eq_returned]
  exact ⟨_, _, EventLoop.addFd_returned.mpr ⟨⟨rfl, notIn⟩, rfl⟩, rfl⟩

/-- The callback of a session never throws. -/
lemma handleClient_returned {d : Daemon σ} (w : Watched d) {server : Server} {fd : Fd} {owned : Owned server}
    (here : d.session? server fd = some owned) (events : Events) (env : Environment) :
    ∃ d', d.handleClient M server fd events env = .returned d' := by
  have frame := (serves_serve (M := M) here events env).frame
  obtain ⟨last, here', -⟩ := frame.owned here
  have watched := (w.of_same frame).watched here'
  rw [handleClient, here]
  simp only
  split
  · exact ⟨_, rfl⟩
  · simp only [updateEvents, here', Outcome.map_eq_returned]
    exact ⟨_, _, EventLoop.modifyFd_returned.mpr ⟨watched, rfl⟩, rfl⟩

/-- A client can be accepted under each descriptor that is not open. -/
lemma step_accepts {d : Daemon σ} (w : Watched d) {fd : Fd} (valid : 0 ≤ fd) (closed : fd ∉ d.openFds)
    {events : Events} (readable : has events EPOLLIN = true) :
    ∃ d', (system M).step d (.deliver d.listenFd events { accepts := [.client fd true] }) = some d' ∧
      Created .qmiServer fd d d' := by
  obtain ⟨d', run⟩ := create_returned w .qmiServer closed
  have listening : d.loop.callbacks.lookup d.listenFd = some .acceptClients :=
    (w.callback _ _).mpr rfl
  refine ⟨d', ?_, created (w.none_of_not_open closed .qmiServer) run⟩
  have new : fresh d.openFds [.client fd true] = true := by
    simp only [fresh, Bool.and_true, Bool.and_eq_true, decide_eq_true_eq]
    exact ⟨valid, closed⟩
  simp only [system, possible, new, if_true, perform, listening, call, acceptClients, readable,
    Bool.not_true, acceptLoop, run]
  rfl

/-- An event for a session whose callback returns is a step. -/
lemma step_served {d d' : Daemon σ} (w : Watched d) {server : Server} {fd : Fd} {owned : Owned server}
    (here : d.session? server fd = some owned) {events : Events} {env : Environment}
    (new : fresh d.openFds env.accepts = true)
    (run : d.handleClient M server fd events env = .returned d') :
    (system M).step d (.deliver fd events env) = some d' := by
  simp only [system, possible, new, if_true, perform, w.registered here, call, run]
  rfl

/-! ### The descriptors of the process -/

/-- The descriptors that the process has when it starts. -/
def Descriptors.all (fds : Descriptors) : List Fd :=
  [fds.signalFd, fds.listenFd, fds.timerFd] ++ fds.others

/-- They stay open, and no session gets one of them. -/
structure Based (fds : Descriptors) (d : Daemon σ) : Prop where
  listenFd : d.listenFd = fds.listenFd
  opened : ∀ fd ∈ fds.all, fd ∈ d.openFds
  free : ∀ fd ∈ fds.all, ∀ server, d.session? server fd = none

/-- Everything that is known of the registrations and of the record. -/
def Known (fds : Descriptors) (d : Daemon σ) : Prop :=
  ((Watched d ∧ Subscribed d) ∧ Recorded d) ∧ Based fds d

/-- Every operation keeps what is known. -/
lemma kept_known (fds : Descriptors) : Kept (Known fds : Daemon σ → Prop) := by
  refine kept_recorded.and ?_ ?_ ?_ ?_ ?_
  · intro d d' _ based same
    refine ⟨same.listenFd.trans based.listenFd, ?_, ?_⟩
    · rw [same.openFds]
      exact based.opened
    · intro fd mem server
      have identity := same.identity server fd
      rwa [based.free fd mem server, Option.map_none, Option.map_eq_none_iff] at identity
  · intro server fd d d' _ based new c
    refine ⟨c.fixed.2.1.trans based.listenFd, ?_, ?_⟩
    · intro fd' mem
      rw [c.openFds]
      exact List.mem_cons_of_mem _ (based.opened fd' mem)
    · intro fd' mem server'
      have ne : fd' ≠ fd := by
        rintro rfl
        exact new (based.opened fd' mem)
      rw [c.others server' fd' (.inr ne)]
      exact based.free fd' mem server'
  · intro server fd owned d d' _ based here r
    have ne : ∀ fd' ∈ fds.all, fd' ≠ fd := by
      rintro fd' mem rfl
      rw [based.free fd' mem server] at here
      cases here
    refine ⟨r.fixed.2.1.trans based.listenFd, ?_, ?_⟩
    · exact fun fd' mem => r.openFds fd' (based.opened fd' mem) (ne fd' mem)
    · intro fd' mem server'
      rw [r.others server' fd' (.inr (ne fd' mem))]
      exact based.free fd' mem server'
  · exact fun d _ based => ⟨based.listenFd, based.opened, based.free⟩
  · exact fun d based => ⟨based.listenFd, based.opened, based.free⟩

/-- All of this is so when the loop is entered. -/
lemma boot_known (fds : Descriptors) (modem : σ) : Known fds (boot fds modem) := by
  refine ⟨⟨⟨boot_watched fds modem, boot_subscribed fds modem⟩, ?_, ?_, ?_⟩, rfl, ?_, ?_⟩
  · exact fun record mem => absurd mem List.not_mem_nil
  · exact fun record mem => absurd mem List.not_mem_nil
  · exact fun record mem => absurd mem List.not_mem_nil
  · exact fun fd mem => mem
  · exact fun fd _ server => rfl

end MiniModem.Daemon
