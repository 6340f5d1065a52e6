import MiniModem.Daemon.Clients
import MiniModem.Daemon.HangUp
import MiniModem.Qmi.Fragmentation

/-!
# Isolation of the QMI clients

A run is projected to one client of the QMI server, known by the address of its session: what stays is the
client's accept, its callbacks, the events that are published, and the changes of the state of the modem.
In the projected run the client is alone with the daemon. Its parser, its outbox and the bytes written for
it are the same at the end of both (`clients_isolated`), as long as fewer than 2^64 sessions have been
created. The bound is needed: the client that gets the id of an older one when the counter has wrapped is
not subscribed, and misses the events (`registration_missed`).
-/

namespace MiniModem.Daemon
open Lib Transport Modem

/-- An input of the process that is alone with a client: a step, or a change of the state of the modem. -/
inductive ClientInput (σ : Type*)
  | step (step : Step)
  | modem (modem : σ)

section
variable {σ : Type*}

/-- What is a client's own in a step: its accept, without those of others, or its callback. -/
def ownSteps (c : ℕ) (d : Daemon σ) : Step → List Step
  | .createPty _ _ => []
  | .deliver fd events env =>
    match d.loop.callbacks.lookup fd with
    | some .acceptClients =>
      if has events EPOLLIN = true ∧ d.allocated ≤ c then
        ((clients env.accepts)[c - d.allocated]?).toList.map fun client =>
          .deliver fd events { accepts := [.client client true] }
      else []
    | some (.session .qmiServer fd') =>
      match d.session? .qmiServer fd' with
      | none => []
      | some owned =>
        if owned.addr = c then [.deliver fd events { reads := env.reads, writes := env.writes }] else []
    | _ => []
  | .publish _ _ => []

variable (M : MiniModem.Modem σ)

/-- The steps of one client, with the modem and the events as they come. -/
def clientSystem : System (Daemon σ) (ClientInput σ) where
  step d
    | .step step => (system M).step d step
    | .modem modem => some { d with modem }

/-- What all clients notice of a step: the events, and the state of the modem afterwards. -/
def sharedInputs (d : Daemon σ) (step : Step) (d' : Daemon σ) : List (ClientInput σ) :=
  (published M d step).map (fun event => .step (.publish step.order event)) ++ [.modem d'.modem]

/-- The projection of a step to a client. -/
def clientInputs (c : ℕ) (d : Daemon σ) (step : Step) (d' : Daemon σ) : List (ClientInput σ) :=
  (ownSteps c d step).map .step ++ sharedInputs M d step d'

/-- The client is the same in the run and in the projected run, where its session is the first one: it
has not been accepted, it is connected, or it is gone. -/
inductive Agree (fds : Descriptors) (c : ℕ) (d p : Daemon σ) : Prop
  | absent (start : p = boot fds d.modem) (none : ∀ client, ¬ HasClient d c client)
  | connected {fd : Fd} {owned owned' : Owned .qmiServer} (here : d.session? .qmiServer fd = some owned)
      (this : owned.addr = c) (there : p.session? .qmiServer fd = some owned') (first : owned'.addr = 0)
      (same : owned'.client true = owned.client true)
  | gone {owned owned' : Owned .qmiServer} (mem : ⟨.qmiServer, owned⟩ ∈ d.destroyed)
      (this : owned.addr = c) (mem' : ⟨.qmiServer, owned'⟩ ∈ p.destroyed) (first : owned'.addr = 0)
      (same : owned'.client false = owned.client false)

/-- What carries the comparison along. -/
structure Alone (fds : Descriptors) (c : ℕ) (d p : Daemon σ) : Prop where
  known : Known fds d
  known' : Known fds p
  few : p.allocated ≤ 1
  modem : p.modem = d.modem
  agree : Agree fds c d p

variable {M} {fds : Descriptors} {c : ℕ} {d d' p : Daemon σ} {step : Step}

/-- The comparison gives the same client in both runs. -/
lemma Alone.hasClient_iff (alone : Alone fds c d p) (client : Client) :
    HasClient d c client ↔ HasClient p 0 client := by
  have both : ∀ {client'}, HasClient d c client' → HasClient p 0 client' →
      (HasClient d c client ↔ HasClient p 0 client) := by
    intro client' one one'
    refine ⟨?_, ?_⟩
    · intro other
      rwa [other.unique alone.known one]
    · intro other
      rwa [other.unique alone.known' one']
  cases alone.agree with
  | absent start none =>
    refine iff_of_false (none client) fun there => ?_
    rw [start] at there
    cases there with
    | connected here => cases here
    | gone mem => cases mem
  | connected here this there first same =>
    exact both (.connected here this) (same ▸ .connected there first)
  | gone mem this mem' first same => exact both (.gone mem this) (same ▸ .gone mem' first)

/-! ### What all clients notice -/

/-- The state after the shared inputs of a step. -/
lemma exec_shared (p : Daemon σ) (d : Daemon σ) (step : Step) (d' : Daemon σ) :
    (clientSystem M).exec p (sharedInputs M d step d') =
      some { p.publishAll step.order (published M d step) with modem := d'.modem } := by
  rw [sharedInputs]
  generalize published M d step = events
  induction events generalizing p with
  | nil => rfl
  | cons event events ih =>
    rw [List.map_cons, List.cons_append]
    exact ((clientSystem M).exec_cons_eq_some).mpr ⟨_, rfl, ih _⟩

/-- What is shared changes no registration. -/
lemma shared_frame (p : Daemon σ) (order : IterationOrder) (events : List ModemEvent) (modem : σ) :
    SameFrame p { p.publishAll order events with modem } :=
  (SameFrame.publishAll order events p).trans ⟨rfl, rfl, rfl, rfl, rfl, rfl, rfl, rfl, fun _ _ => rfl⟩

/-- Without subscribers nothing happens. -/
lemma publishAll_boot (order : IterationOrder) (events : List ModemEvent) (modem : σ) :
    (boot fds modem).publishAll order events = boot fds modem := by
  have nobody : (boot fds modem).eventBus.subscribers order = [] := by
    rw [List.eq_nil_iff_forall_not_mem]
    intro ref called
    obtain ⟨id, e⟩ := EventBus.mem_subscribers.mp called
    cases e
  induction events with
  | nil => rfl
  | cons event events ih => rwa [publishAll, List.foldl_cons, ← publishAll, publish_eq_foldl, nobody]

/-- Below the bound an event reaches each session once. -/
lemma Subscribed.reach_eq_one (s : Subscribed d) (bound : d.allocated < 2 ^ 64) {server : Server}
    {fd : Fd} {owned : Owned server} (here : d.session? server fd = some owned)
    (order : IterationOrder) : d.reach order ⟨server, owned.addr⟩ = 1 := by
  have stored : ∀ id, d.eventBus.handlers.lookup id = some ⟨server, owned.addr⟩ ↔
      id = UInt64.ofNat (owned.addr + 1) := by
    intro id
    exact (s.handlers bound id _).trans (and_iff_left ⟨fd, owned, here, rfl⟩)
  have perm := order.perm d.eventBus.handlers.keys
  have mem : UInt64.ofNat (owned.addr + 1) ∈ order.order d.eventBus.handlers.keys :=
    perm.mem_iff.mpr (UnorderedMap.mem_iff_lookup.mpr ⟨_, (stored _).mpr rfl⟩)
  have nodup := perm.nodup_iff.mpr d.eventBus.handlers.keys_nodup
  rw [reach, EventBus.subscribers, List.count, List.countP_filterMap,
    ← List.count_eq_one_of_mem nodup mem, List.count]
  refine List.countP_congr fun id _ => ?_
  rw [beq_iff_eq, ← stored id]
  rcases d.eventBus.handlers.lookup id with _ | ref
  · simp
  · simp

/-! ### The client's own steps -/

/-- A client that has been accepted has no part in a step that is not its callback. -/
lemma ownSteps_eq_nil (w : Watched d) (lt : c < d.allocated)
    (other : ∀ fd owned, step.target = some fd → d.session? .qmiServer fd = some owned →
      owned.addr ≠ c) : ownSteps c d step = [] := by
  cases step with
  | createPty pty registers => rfl
  | deliver fd events env =>
    rw [ownSteps]
    rcases found : d.loop.callbacks.lookup fd with _ | _ | _ | _ | ⟨_ | _, fd'⟩
    · rfl
    · rfl
    · exact if_neg fun both => Nat.not_le.mpr lt both.2
    · rfl
    · rfl
    · obtain ⟨rfl, owned, here⟩ := (w.callback _ _).mp found
      simp only [here]
      exact if_neg (other fd' owned rfl here)
  | publish order event => rfl

/-- The callback of the client's session is a step of its own. -/
lemma ownSteps_served (w : Watched d) {fd : Fd} {owned : Owned .qmiServer}
    (here : d.session? .qmiServer fd = some owned) (this : owned.addr = c) (events : Events)
    (env : Environment) :
    ownSteps c d (.deliver fd events env) =
      [.deliver fd events { reads := env.reads, writes := env.writes }] := by
  simp only [ownSteps, w.registered here, here, this, if_true]

/-- A QMI session that is there after a step and was not before is that of a client that the step
accepts. -/
lemma ownSteps_accepted (w : Watched d) (run : (system M).step d step = some d') {fd : Fd}
    {owned : Owned .qmiServer} (none : d.session? .qmiServer fd = none)
    (here : d'.session? .qmiServer fd = some owned) :
    ∃ fd' events, ownSteps owned.addr d step =
      [.deliver fd' events { accepts := [.client fd true] }] := by
  cases step_effect run with
  | createPty new run =>
    have c := created (w.none_of_not_open new .atServer) run
    rw [c.others .qmiServer fd (.inl (by simp)), none] at here
    cases here
  | skipped => cases none.symm.trans here
  | stopped => cases none.symm.trans here
  | @accepted fd' events env accepts d' callback new accepted =>
    obtain ⟨new, called⟩ := step_call run callback
    by_cases readable : has events EPOLLIN = true
    · simp only [call, acceptClients, readable] at called
      rcases acceptLoop_only w new called here with was | ⟨le, client⟩
      · rw [none] at was
        cases was
      · refine ⟨fd', events, ?_⟩
        simp only [ownSteps, callback, readable, le, client, and_self, if_true, Option.toList_some,
          List.map_cons, List.map_nil]
    · simp only [call, acceptClients, readable] at called
      cases called
      cases none.symm.trans here
  | timer callback =>
    rw [(networkTimer_heard callback .qmiServer fd).1, none] at here
    cases here
  | served callback handled =>
    obtain ⟨rfl, owned', there⟩ := (w.callback _ _).mp callback
    obtain ⟨before, was⟩ := handleClient_old w there handled here
    cases none.symm.trans was
  | published =>
    rw [session?_publish, none] at here
    cases here

/-! ### One step -/

/-- The end of the projection of a step, once the client's own part is done. -/
lemma Alone.of_own {between : Daemon σ} (alone : Alone fds c d p)
    (run : (system M).step d step = some d')
    (own : (clientSystem M).exec p ((ownSteps c d step).map .step) = some between)
    (known : Known fds between) (few : between.allocated ≤ 1)
    (agree : ∀ p', SameFrame between p' →
      (∀ fd, p'.session? .qmiServer fd = (between.session? .qmiServer fd).map fun owned =>
        owned.hear (between.reach step.order ⟨.qmiServer, owned.addr⟩) (published M d step)) →
      Agree fds c d' p') :
    ∃ p', (clientSystem M).exec p (clientInputs M c d step d') = some p' ∧ Alone fds c d' p' := by
  have same := shared_frame between step.order (published M d step) d'.modem
  refine ⟨_, ?_, (kept_known fds).step alone.known run, (kept_known fds).same _ _ known same, ?_, rfl,
    agree _ same fun fd => session?_publishAll step.order (published M d step) between .qmiServer fd⟩
  · rw [clientInputs, System.exec_append, own]
    exact exec_shared between d step d'
  · rw [same.allocated]
    exact few

/-- Nobody else gets the address of a client that has not been accepted. -/
lemma absent_step (known : Known fds d) (run : (system M).step d step = some d')
    (none : ∀ client, ¬ HasClient d c client) (own : ownSteps c d step = []) (client : Client) :
    ¬ HasClient d' c client := by
  obtain ⟨⟨⟨w, -⟩, -⟩, -⟩ := known
  intro there
  cases there with
  | @connected fd owned here this =>
    rcases was : d.session? .qmiServer fd with _ | before
    · obtain ⟨fd', events, accepted⟩ := ownSteps_accepted w run was here
      rw [this, own] at accepted
      cases accepted
    · exact none _ (.connected was ((step_old w run was here).symm.trans this))
  | gone mem this =>
    rcases step_destroyed w run with same | ⟨server, fd, owned, last, here, addr, added⟩
    · rw [same] at mem
      exact none _ (.gone mem this)
    · rw [added, List.mem_append, List.mem_singleton] at mem
      rcases mem with mem | e
      · exact none _ (.gone mem this)
      · cases e
        exact none _ (.connected here (addr.symm.trans this))

/-- Before the client is accepted the process that is alone with it does nothing. -/
lemma exec_absent (start : p = boot fds d.modem) (own : ownSteps c d step = []) :
    (clientSystem M).exec p (clientInputs M c d step d') = some (boot fds d'.modem) := by
  rw [clientInputs, own, List.map_nil, List.nil_append, exec_shared, start, publishAll_boot]
  rfl

/-- A client that is gone stays as it was. -/
lemma gone_step (w : Watched d) (run : (system M).step d step = some d') {record}
    (mem : record ∈ d.destroyed) : record ∈ d'.destroyed := by
  rcases step_destroyed w run with same | ⟨_, _, _, _, -, -, added⟩
  · rwa [same]
  · rw [added]
    exact List.mem_append_left _ mem

/-- The own part of a step for a client that has not been accepted is its accept. -/
lemma absent_own (w : Watched d) (none : ∀ client, ¬ HasClient d c client)
    (own : ownSteps c d step ≠ []) :
    ∃ fd events env client, step = .deliver fd events env ∧
      d.loop.callbacks.lookup fd = some .acceptClients ∧ has events EPOLLIN = true ∧ d.allocated ≤ c ∧
      (clients env.accepts)[c - d.allocated]? = some client := by
  cases step with
  | createPty pty registers => exact absurd rfl own
  | deliver fd events env =>
    rw [ownSteps] at own
    rcases found : d.loop.callbacks.lookup fd with _ | _ | _ | _ | ⟨_ | _, fd'⟩
    · simp [found] at own
    · simp [found] at own
    · simp only [found] at own
      split at own
      · next both =>
        rcases client : (clients env.accepts)[c - d.allocated]? with _ | client'
        · simp [client] at own
        · exact ⟨fd, events, env, client', rfl, found, both.1, both.2, client⟩
      · exact absurd rfl own
    · simp [found] at own
    · simp [found] at own
    · obtain ⟨rfl, owned, here⟩ := (w.callback _ _).mp found
      simp only [found, here] at own
      split at own
      · next this => exact absurd (.connected here this) (none _)
      · exact absurd rfl own
  | publish order event => exact absurd rfl own

/-- In such a step the client gets its session. -/
lemma accepted_session (w : Watched d) (none : ∀ client, ¬ HasClient d c client)
    (run : (system M).step d step = some d') (own : ownSteps c d step ≠ []) :
    ∃ fd events client, ownSteps c d step = [.deliver fd events { accepts := [.client client true] }] ∧
      published M d step = [] ∧ (fd = d.listenFd ∧ has events EPOLLIN = true) ∧
      (0 ≤ client ∧ client ∉ d.openFds) ∧
      ∃ owned, d'.session? .qmiServer client = some owned ∧ Unused owned ∧ owned.addr = c := by
  obtain ⟨fd, events, env, client, rfl, found, readable, le, accepts⟩ := absent_own w none own
  obtain ⟨new, called⟩ := step_call run found
  simp only [call, acceptClients, readable] at called
  obtain ⟨fresh, owned, here, unused, addr⟩ := acceptLoop_clients w new called accepts
  refine ⟨fd, events, client, ?_, ?_, ⟨(w.callback _ _).mp found, readable⟩, fresh, owned, here, unused, ?_⟩
  · simp only [ownSteps, found, readable, le, accepts, and_self, if_true, Option.toList_some,
      List.map_cons, List.map_nil]
  · simp only [published, found]
  · omega

/-- The step that accepts the client. -/
lemma accepted_step (alone : Alone fds c d p) (start : p = boot fds d.modem)
    (none : ∀ client, ¬ HasClient d c client) (run : (system M).step d step = some d')
    (own : ownSteps c d step ≠ []) :
    ∃ p', (clientSystem M).exec p (clientInputs M c d step d') = some p' ∧ Alone fds c d' p' := by
  obtain ⟨⟨⟨w, -⟩, -⟩, based⟩ := alone.known
  obtain ⟨fd, events, client, accept, silent, ⟨rfl, readable⟩, ⟨valid, closed⟩, owned, here, unused,
    addr⟩ := accepted_session w none run own
  have closed' : client ∉ p.openFds := by
    rw [start]
    exact fun mem => closed (based.opened client mem)
  obtain ⟨between, first, created⟩ := step_accepts (M := M) alone.known'.1.1.1 valid closed' readable
  have same : p.listenFd = d.listenFd := by
    rw [start, based.listenFd]
    rfl
  rw [same] at first
  have few : between.allocated ≤ 1 := by
    rw [created.allocated, start]
    exact le_rfl
  refine alone.of_own run ?_ ((kept_known fds).step alone.known' first) few ?_
  · rw [accept]
    exact ((clientSystem M).exec_cons_eq_some).mpr ⟨between, first, rfl⟩
  · intro p' _ heard
    have there : p'.session? .qmiServer client = some (p.newSession .qmiServer client) := by
      rw [heard, created.here, silent]
      rfl
    refine .connected here addr there ?_ (unused.client ⟨rfl, rfl, rfl⟩ true)
    show p.allocated = 0
    rw [start]
    rfl

/-- The callback of a client does the same in both runs. -/
lemma callback_step (alone : Alone fds c d p) {fd : Fd} {owned owned' : Owned .qmiServer}
    (here : d.session? .qmiServer fd = some owned) (this : owned.addr = c)
    (there : p.session? .qmiServer fd = some owned') (first : owned'.addr = 0)
    (same : owned'.client true = owned.client true) {events : Events} {env : Environment}
    (run : (system M).step d (.deliver fd events env) = some d') :
    ∃ p', (clientSystem M).exec p (clientInputs M c d (.deliver fd events env) d') = some p' ∧
      Alone fds c d' p' := by
  have w := alone.known.1.1.1
  have w' := alone.known'.1.1.1
  obtain ⟨between, handled⟩ := handleClient_returned (M := M) w' there events
    { reads := env.reads, writes := env.writes }
  have taken := step_served w' there rfl handled
  obtain ⟨-, after⟩ := handleClient_qmi w here (w.served here run)
  obtain ⟨allocated, after'⟩ := handleClient_qmi w' there handled
  rw [alone.modem] at after'
  obtain ⟨alive, client⟩ := servedQmi_client (M := M) d.modem events env same
  have addr := servedQmi_addr (M := M) d.modem events env owned
  have addr' := servedQmi_addr (M := M) d.modem events env owned'
  refine alone.of_own run ?_ ((kept_known fds).step alone.known' taken) ?_ ?_
  · rw [ownSteps_served w here this]
    exact ((clientSystem M).exec_cons_eq_some).mpr ⟨between, taken, rfl⟩
  · rw [allocated]
    exact alone.few
  · intro p' frame heard
    have silent : published M d (.deliver fd events env) = [] := by
      simp only [published, w.registered here, here, publishedServing, publishedReading, ite_self]
    rcases after with ⟨lives, here'⟩ | ⟨dies, mem⟩
    · rcases after' with ⟨-, there'⟩ | ⟨dies, -⟩
      · refine .connected here' (addr.trans this) ?_ (addr'.trans first) (client true)
        rw [heard, there', silent]
        rfl
      · cases (alive.trans lives).symm.trans dies
    · rcases after' with ⟨lives, -⟩ | ⟨-, mem'⟩
      · cases (alive.trans dies).symm.trans lives
      · refine .gone mem (addr.trans this) ?_ (addr'.trans first) (client false)
        rw [frame.destroyed]
        exact mem'

/-- A step of a client that is connected. -/
lemma connected_step (alone : Alone fds c d p) (bound : d.allocated < 2 ^ 64) {fd : Fd}
    {owned owned' : Owned .qmiServer} (here : d.session? .qmiServer fd = some owned)
    (this : owned.addr = c) (there : p.session? .qmiServer fd = some owned') (first : owned'.addr = 0)
    (same : owned'.client true = owned.client true) (run : (system M).step d step = some d') :
    ∃ p', (clientSystem M).exec p (clientInputs M c d step d') = some p' ∧ Alone fds c d' p' := by
  obtain ⟨⟨⟨w, s⟩, -⟩, -⟩ := alone.known
  obtain ⟨⟨⟨-, s'⟩, -⟩, -⟩ := alone.known'
  rcases step_owned w run here with ⟨events, env, rfl, -⟩ | ⟨other, heard, -⟩
  · exact callback_step alone here this there first same run
  · -- the client hears the events of the step
    have own : ownSteps c d step = [] := by
      refine ownSteps_eq_nil w ?_ ?_
      · rw [← this]
        exact (s.subscription _ _ _ here).2
      · intro fd' owned'' target there' e
        obtain ⟨-, rfl⟩ := s.unique _ _ _ _ _ _ here there' (this.trans e.symm)
        exact other target
    refine alone.of_own run ?_ alone.known' alone.few ?_
    · rw [own]
      rfl
    · intro p' _ heard'
      have few : p.allocated < 2 ^ 64 := by
        have := alone.few
        omega
      have there' := heard' fd
      rw [there, Option.map_some, s'.reach_eq_one few there] at there'
      rw [here, Option.map_some, s.reach_eq_one bound here] at heard
      exact .connected heard this there' first (hear_client same)

/-- The comparison is carried along by each step. -/
lemma alone_step (alone : Alone fds c d p) (run : (system M).step d step = some d')
    (bound : d'.allocated < 2 ^ 64) :
    ∃ p', (clientSystem M).exec p (clientInputs M c d step d') = some p' ∧ Alone fds c d' p' := by
  have w := alone.known.1.1.1
  cases alone.agree with
  | absent start none =>
    by_cases own : ownSteps c d step = []
    · exact ⟨_, exec_absent start own, (kept_known fds).step alone.known run, boot_known fds _,
        Nat.zero_le 1, rfl, .absent rfl (absent_step alone.known run none own)⟩
    · exact accepted_step alone start none run own
  | connected here this there first same =>
    exact connected_step alone ((step_allocated w run).trans_lt bound) here this there first same run
  | gone mem this mem' first same =>
    have own : ownSteps c d step = [] := by
      obtain ⟨⟨-, recorded⟩, -⟩ := alone.known
      refine ownSteps_eq_nil w (this ▸ recorded.lt _ mem) fun fd owned _ here e => ?_
      exact recorded.gone _ mem _ _ _ here (e.trans this.symm)
    refine alone.of_own run ?_ alone.known' alone.few ?_
    · rw [own]
      rfl
    · intro p' frame _
      refine .gone (gone_step w run mem) this ?_ first same
      rw [frame.destroyed]
      exact mem'

end

/-- In every run, each client of the QMI server is the same as in the projected run, in which it is alone
with the daemon: it has the same parser and outbox, the same bytes have been written for it, and it is
connected or gone in both, as long as fewer than 2^64 sessions have been created. -/
theorem clients_isolated {σ : Type*} (M : MiniModem.Modem σ) (fds : Descriptors) (modem : σ)
    (steps : List Step) (d : Daemon σ) (run : (system M).exec (boot fds modem) steps = some d)
    (bound : d.allocated < 2 ^ 64) (c : ℕ) :
    ∃ p, (clientSystem M).exec (boot fds modem)
        ((system M).project (clientInputs M c) (boot fds modem) steps) = some p ∧
      ∀ client, HasClient d c client ↔ HasClient p 0 client := by
  have start : Alone fds c (boot fds modem) (boot fds modem) := by
    refine ⟨boot_known fds modem, boot_known fds modem, Nat.zero_le 1, rfl, .absent rfl ?_⟩
    intro client there
    exact absurd (there.lt (boot_known fds modem)) (Nat.not_lt_zero c)
  -- the bound holds all along the run
  obtain ⟨p, projected, alone⟩ := System.exec_project (T := clientSystem M) (f := clientInputs M c)
    (R := Alone fds c) (Q := fun d => Watched d → d.allocated < 2 ^ 64)
    (fun d step d' taken last w => (step_allocated w taken).trans_lt (last (kept_watched.step w taken)))
    (fun d step d' p alone taken last =>
      alone_step alone taken (last (kept_watched.step alone.known.1.1.1 taken)))
    start run (fun _ => bound)
  exact ⟨p, projected, alone.hasClient_iff⟩

/-- Two clients connect. One sends something that is no frame and leaves, the other asks for the signal
strength and reads the response. -/
def twoClients : List Step :=
  [.deliver 6 EPOLLIN { accepts := [.client 7 true, .client 8 true] },
    .deliver 7 EPOLLIN { reads := [.bytes [0, 0, 0, 0, 0, 0, 0, 0]] },
    .deliver 8 EPOLLIN { reads := [.bytes Qmi.signalRequest] },
    .deliver 7 EPOLLIN { reads := [.bytes []] },
    .deliver 8 EPOLLOUT { writes := [.room 4096] }]

/-- The other one gets what it would get if it were alone. -/
theorem clients_isolated_two :
    ∃ d p client, (system sampleModem).exec (boot sampleDescriptors false) twoClients = some d ∧
      (clientSystem sampleModem).exec (boot sampleDescriptors false)
        ((system sampleModem).project (clientInputs sampleModem 1) (boot sampleDescriptors false)
          twoClients) = some p ∧
      (HasClient d 1 client ∧ HasClient p 0 client) ∧ client.sent ≠ [] := by
  have ran : ∃ d, ∃ owned : Owned .qmiServer,
      (system sampleModem).exec (boot sampleDescriptors false) twoClients = some d ∧
        d.allocated < 2 ^ 64 ∧ d.session? .qmiServer 8 = some owned ∧ owned.addr = 1 ∧
        owned.sent ≠ [] := ⟨_, _, rfl, by decide, rfl, rfl, by decide⟩
  obtain ⟨d, owned, run, bound, here, this, sent⟩ := ran
  obtain ⟨p, projected, same⟩ :=
    clients_isolated sampleModem sampleDescriptors false twoClients d run bound 1
  have there : HasClient d 1 (owned.client true) := .connected here this
  exact ⟨d, p, _, run, projected, ⟨there, (same _).mp there⟩, sent⟩

/-! ### The bound -/

section
variable {σ : Type*} {M : MiniModem.Modem σ} {fds : Descriptors} {c : ℕ}

/-- As long as the client has not been accepted, the process that is alone with it does nothing. -/
lemma exec_unaccepted {modem : σ} {steps : List Step} {d : Daemon σ}
    (run : (system M).exec (boot fds modem) steps = some d) (later : d.allocated ≤ c) :
    (clientSystem M).exec (boot fds modem)
        ((system M).project (clientInputs M c) (boot fds modem) steps) = some (boot fds d.modem) := by
  have unaccepted : ∀ d step d', Known fds d → (system M).step d step = some d' → d'.allocated ≤ c →
      ownSteps c d step = [] := by
    intro d step d' known taken le
    have w := known.1.1.1
    have known' := (kept_known fds).step known taken
    by_contra own
    have none : ∀ client, ¬ HasClient d c client := fun client there =>
      Nat.not_le.mpr (there.lt known) ((step_allocated w taken).trans le)
    -- the session of the client would be there afterwards
    obtain ⟨-, -, client, -, -, -, -, owned, here, -, addr⟩ := accepted_session w none taken own
    have lt := (known'.1.1.2.subscription _ _ _ here).2
    omega
  obtain ⟨p, projected, -, rfl⟩ := System.exec_project (T := clientSystem M) (f := clientInputs M c)
    (R := fun d p => Known fds d ∧ p = boot fds d.modem) (Q := fun d => Watched d → d.allocated ≤ c)
    (fun d step d' taken last w => (step_allocated w taken).trans (last (kept_watched.step w taken)))
    (fun d step d' p both taken last =>
      have known' := (kept_known fds).step both.1 taken
      ⟨_, exec_absent both.2 (unaccepted d step d' both.1 taken (last known'.1.1.1)), known', rfl⟩)
    ⟨boot_known fds modem, rfl⟩ run (fun _ => later)
  exact projected

end

/-- A client connects and leaves. -/
def guest : List Step :=
  [.deliver 6 EPOLLIN { accepts := [.client 8 true] }, .deliver 8 EPOLLIN { reads := [.bytes []] }]

/-- There is a client with the id 1, and there have been `n` guests. -/
structure Visited (n : ℕ) (d : Daemon Bool) : Prop where
  known : Known sampleDescriptors d
  allocated : d.allocated = n + 1
  first : d.eventBus.handlers.lookup 1 = some ⟨.qmiServer, 0⟩
  closed : 8 ∉ d.openFds

/-- The ids from 2 on are not 1. -/
lemma id_ne_one {n : ℕ} (two : 2 ≤ n) (bound : n ≤ 2 ^ 64) : UInt64.ofNat n ≠ 1 := by
  intro e
  have toNat := congrArg UInt64.toNat e
  rw [UInt64.toNat_ofNat'] at toNat
  have one : (1 : UInt64).toNat = 1 := rfl
  omega

/-- The new handler leaves that of the first client alone. -/
lemma Visited.created {n : ℕ} {d d' : Daemon Bool} (visited : Visited n d) (bound : n + 2 ≤ 2 ^ 64)
    {fd : Fd} (c : Created .qmiServer fd d d') :
    d'.eventBus.handlers.lookup 1 = some ⟨.qmiServer, 0⟩ := by
  have ne : (1 : UInt64) ≠ d.eventBus.nextId := by
    rw [visited.known.1.1.2.counter, visited.allocated]
    exact (id_ne_one (by omega) bound).symm
  rw [c.eventBus]
  exact (UnorderedMap.lookup_emplace_ne ne).trans visited.first

/-- The descriptor of a session that is removed is closed. -/
lemma removeSession_closed {d : Daemon Bool} {server : Server} {fd : Fd} {owned : Owned server}
    (here : d.session? server fd = some owned) (own : owned.session.fd = fd) (valid : fd ≠ -1) :
    fd ∉ (d.removeSession server fd).openFds := by
  have there : ({ d with loop := d.loop.removeFd fd } : Daemon Bool).session? server fd = some owned :=
    here
  simp only [removeSession, there, destroy, own, if_pos valid]
  simp [close]

/-- A guest leaves the first client subscribed. -/
lemma exec_guest {n : ℕ} {d : Daemon Bool} (visited : Visited n d) (bound : n + 2 ≤ 2 ^ 64) :
    ∃ d', (system sampleModem).exec d guest = some d' ∧ Visited (n + 1) d' := by
  obtain ⟨⟨⟨w, s⟩, -⟩, based⟩ := visited.known
  obtain ⟨between, first, c⟩ := step_accepts (M := sampleModem) w (by decide) visited.closed
    (by decide : has EPOLLIN EPOLLIN = true)
  have w' := w.of_created visited.closed c
  obtain ⟨d', handled⟩ := handleClient_returned (M := sampleModem) w' c.here EPOLLIN
    { reads := [.bytes []] }
  have last := step_served w' c.here rfl handled
  have known := (kept_known _).step ((kept_known _).step visited.known first) last
  have same := (serves_serve (M := sampleModem) c.here EPOLLIN { reads := [.bytes []] }).frame
  obtain ⟨alive, there, -⟩ := serve_qmi (M := sampleModem) c.here EPOLLIN { reads := [.bytes []] }
  have s' := (s.of_created (w.none_of_not_open visited.closed .qmiServer) c).of_same same
  obtain ⟨subscription, -⟩ := s'.subscription _ _ _ there
  have addr : (d.newSession .qmiServer 8).addr = n + 1 := visited.allocated
  rw [servedQmi_addr, addr] at subscription
  rcases handleClient_cases c.here handled with ⟨-, rfl⟩ | ⟨lives, -⟩
  · have r := removed there rfl
    refine ⟨_, ?_, known, ?_, ?_, removeSession_closed there rfl (by decide)⟩
    · rw [based.listenFd] at first
      exact ((system sampleModem).exec_cons_eq_some).mpr
        ⟨between, first, ((system sampleModem).exec_cons_eq_some).mpr ⟨_, last, rfl⟩⟩
    · rw [r.allocated, same.allocated, c.allocated, visited.allocated]
    · rw [r.eventBus]
      refine (lookup_reset (by simp [subscription]) _ _).mpr ⟨?_, ?_⟩
      · rw [subscription]
        exact fun both => id_ne_one (by omega) bound both.1.symm
      · rw [same.eventBus]
        exact visited.created bound c
  · rw [alive] at lives
    cases lives

/-- The first client connects, and then `n` guests come and go. -/
def guests (n : ℕ) : List Step :=
  .deliver 6 EPOLLIN { accepts := [.client 7 true] } :: (List.replicate n guest).flatten

/-- Any number of guests can come and go. -/
lemma exec_guests (n : ℕ) (bound : n + 1 ≤ 2 ^ 64) :
    ∃ d, (system sampleModem).exec (boot sampleDescriptors false) (guests n) = some d ∧
      Visited n d := by
  induction n with
  | zero =>
    have known := boot_known sampleDescriptors false
    obtain ⟨d, first, c⟩ := step_accepts (M := sampleModem) known.1.1.1
      (by decide : (0 : Fd) ≤ 7) (by decide) (by decide : has EPOLLIN EPOLLIN = true)
    refine ⟨d, ((system sampleModem).exec_cons_eq_some).mpr ⟨d, first, rfl⟩,
      (kept_known _).step known first, c.allocated, ?_, ?_⟩
    · rw [c.eventBus]
      rfl
    · rw [c.openFds]
      decide
  | succ n ih =>
    obtain ⟨d, run, visited⟩ := ih (by omega)
    obtain ⟨d', last, visited'⟩ := exec_guest visited (by omega)
    refine ⟨d', ?_, visited'⟩
    have split : guests (n + 1) = guests n ++ guest := by
      rw [guests, List.replicate_succ', List.flatten_append, List.flatten_singleton]
      rfl
    rw [split, System.exec_append, run]
    exact last

/-- A client that is alone hears of every registration. -/
lemma heard_alone {fds : Descriptors} {p : Daemon Bool} (known : Known fds p) (few : p.allocated ≤ 1)
    {order : IterationOrder} {event : ModemEvent} (registers : event.type = .NetworkRegistered)
    {modem : Bool} {client : Client} (connected : client.connected = true)
    (there : HasClient { p.publishAll order [event] with modem } 0 client) : client.outbox ≠ {} := by
  cases there with
  | @connected fd owned here this =>
    have after : (p.publishAll order [event]).session? .qmiServer fd = some owned := here
    rw [session?_publishAll, Option.map_eq_some_iff] at after
    obtain ⟨before, was, rfl⟩ := after
    have pending := (pending_hear 1 [event] before).mpr (.inr ⟨Nat.one_pos, event, by simp, registers⟩)
    rw [known.1.1.2.reach_eq_one (by omega) was]
    intro empty
    rw [Session.hasPendingOutput] at pending
    simp only [Owned.client] at empty
    rw [empty] at pending
    cases pending
  | gone mem this => cases connected

/-- After 2^64 - 1 guests the next client gets the id of the first one, and no event reaches it. -/
lemma exec_unheard :
    ∃ d between, (system sampleModem).exec (boot sampleDescriptors false) (guests (2 ^ 64 - 1)) = some d ∧
      Visited (2 ^ 64 - 1) d ∧
      (system sampleModem).step d (.deliver d.listenFd EPOLLIN { accepts := [.client 8 true] }) =
        some between ∧
      Created .qmiServer 8 d between ∧
      ∀ order, between.reach order ⟨.qmiServer, (d.newSession .qmiServer 8).addr⟩ = 0 := by
  obtain ⟨d, run, visited⟩ := exec_guests (2 ^ 64 - 1) (by omega)
  have allocated : d.allocated = 2 ^ 64 := visited.allocated
  obtain ⟨⟨⟨w, s⟩, -⟩, based⟩ := visited.known
  obtain ⟨between, first, c⟩ := step_accepts (M := sampleModem) w (by decide : (0 : Fd) ≤ 8)
    visited.closed (by decide : has EPOLLIN EPOLLIN = true)
  have run' : (system sampleModem).exec (boot sampleDescriptors false) (guests (2 ^ 64 - 1) ++
      [.deliver d.listenFd EPOLLIN { accepts := [.client 8 true] }]) = some between := by
    rw [System.exec_append, run]
    exact ((system sampleModem).exec_cons_eq_some).mpr ⟨between, first, rfl⟩
  refine ⟨d, between, run, visited, first, c, fun order => ?_⟩
  have addr : (d.newSession .qmiServer 8).addr = d.allocated := rfl
  rw [addr, reach, List.count_eq_zero, EventBus.mem_subscribers]
  intro stored
  obtain ⟨id, e⟩ := stored
  have counter : d.eventBus.nextId = 1 := by
    rw [s.counter, allocated]
    rfl
  have id_eq : id = 1 := by
    have filed := (reachable_filed run').2 id _ e
    rw [filed, allocated]
    rfl
  have taken : d.eventBus.nextId ∈ d.eventBus.handlers :=
    UnorderedMap.mem_iff_lookup.mpr ⟨_, counter ▸ visited.first⟩
  rw [c.eventBus, EventBus.subscribe, UnorderedMap.emplace_of_mem taken, id_eq, visited.first,
    allocated] at e
  cases e

/-- After 2^64 - 1 guests the next client is not subscribed. It misses a registration that it would hear of
if it were alone. -/
theorem registration_missed :
    ∃ steps d p client, (system sampleModem).exec (boot sampleDescriptors false) steps = some d ∧
      (clientSystem sampleModem).exec (boot sampleDescriptors false)
        ((system sampleModem).project (clientInputs sampleModem (2 ^ 64)) (boot sampleDescriptors false)
          steps) = some p ∧
      HasClient d (2 ^ 64) client ∧ ¬ HasClient p 0 client := by
  obtain ⟨d, between, run, visited, first, c, unheard⟩ := exec_unheard
  have allocated : d.allocated = 2 ^ 64 := visited.allocated
  have w := visited.known.1.1.1
  have none : ∀ client, ¬ HasClient d (2 ^ 64) client := by
    intro client there
    have lt := there.lt visited.known
    omega
  have alone : Alone sampleDescriptors (2 ^ 64) d (boot sampleDescriptors d.modem) :=
    ⟨visited.known, boot_known _ _, Nat.zero_le 1, rfl, .absent rfl none⟩
  -- the client connects
  obtain ⟨fd, events, own⟩ := ownSteps_accepted w first (w.none_of_not_open visited.closed .qmiServer)
    c.here
  have addr : (d.newSession .qmiServer 8).addr = 2 ^ 64 := allocated
  rw [addr] at own
  obtain ⟨p, projected, alone'⟩ := accepted_step alone rfl none first (by rw [own]; simp)
  -- and a registration is published
  obtain ⟨event, registers⟩ : ∃ event : ModemEvent, event.type = .NetworkRegistered :=
    ⟨{ type := .NetworkRegistered }, rfl⟩
  have last : (system sampleModem).step between (.publish .entries event) =
      some (between.publish .entries event) := rfl
  have projected' := exec_shared (M := sampleModem) p between (.publish .entries event)
    (between.publish .entries event)
  refine ⟨guests (2 ^ 64 - 1) ++ [.deliver d.listenFd EPOLLIN { accepts := [.client 8 true] },
      .publish .entries event], between.publish .entries event,
    { p.publishAll .entries [event] with modem := (between.publish .entries event).modem },
    (d.newSession .qmiServer 8).client true, ?_, ?_, ?_, fun there =>
      heard_alone alone'.known' alone'.few registers rfl there rfl⟩
  · rw [System.exec_append, run]
    exact ((system sampleModem).exec_cons_eq_some).mpr
      ⟨between, first, ((system sampleModem).exec_cons_eq_some).mpr ⟨_, last, rfl⟩⟩
  · rw [System.project_append run, System.exec_append, exec_unaccepted run allocated.le,
      System.project_cons first, System.project_cons last, Option.bind_some, System.exec_append,
      projected]
    exact projected'
  · have there : (between.publish .entries event).session? .qmiServer 8 =
        some (d.newSession .qmiServer 8) := by
      rw [session?_publish, c.here, Option.map_some, unheard]
      rfl
    exact .connected there addr

end MiniModem.Daemon
