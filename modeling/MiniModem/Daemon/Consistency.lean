import MiniModem.Daemon.Registration

/-!
# Consistency of the registrations

`Subscribed` relates the sessions to the handlers of the event bus. Together with `Watched` it gives
that the callbacks, the interest list, the sessions and the handlers agree at every point between two
callbacks, in every run in which fewer than 2^64 sessions are created (`always_consistent`). The bound is
needed: the id of the next subscription is a 64-bit counter, the id 0 means that there is nothing to
unsubscribe, and the session that gets it leaves its handler behind (`not_consistent_after_wrap`).
-/

namespace MiniModem.Daemon
open Lib Transport Modem

variable {σ : Type*} {M : MiniModem.Modem σ}

/-- A pointer to a session that there is. -/
def Live (d : Daemon σ) (ref : SessionRef) : Prop :=
  ∃ fd owned, d.session? ref.server fd = some owned ∧ owned.addr = ref.addr

/-- The sessions are subscribed under ids that count them, and nobody else is. -/
structure Subscribed (d : Daemon σ) : Prop where
  counter : d.eventBus.nextId = UInt64.ofNat (d.allocated + 1)
  subscription : ∀ server fd owned, d.session? server fd = some owned →
    owned.session.subscription = ⟨some busPtr, UInt64.ofNat (owned.addr + 1)⟩ ∧
      owned.addr < d.allocated
  unique : ∀ server fd owned server' fd' owned', d.session? server fd = some owned →
    d.session? server' fd' = some owned' → owned.addr = owned'.addr → server' = server ∧ fd' = fd
  handlers : d.allocated < 2 ^ 64 → ∀ id ref, d.eventBus.handlers.lookup id = some ref ↔
    id = UInt64.ofNat (ref.addr + 1) ∧ d.Live ref

/-- Input and output destroy no session. -/
lemma SameFrame.live {d d' : Daemon σ} (same : SameFrame d d') {ref : SessionRef} (alive : d.Live ref) :
    d'.Live ref := by
  obtain ⟨fd, owned, here, e⟩ := alive
  obtain ⟨owned', here', identity⟩ := same.owned here
  exact ⟨fd, owned', here', (congrArg Prod.fst identity).trans e⟩

/-- Nor do they bring one about. -/
lemma SameFrame.live_iff {d d' : Daemon σ} (same : SameFrame d d') {ref : SessionRef} :
    d'.Live ref ↔ d.Live ref :=
  ⟨same.symm.live, same.live⟩

/-- The pointers after a creation: the new one and the old ones. -/
lemma Created.live_iff {server : Server} {fd : Fd} {d d' : Daemon σ} (c : Created server fd d d')
    (free : d.session? server fd = none) {ref : SessionRef} :
    d'.Live ref ↔ ref = ⟨server, d.allocated⟩ ∨ d.Live ref := by
  obtain ⟨server', addr⟩ := ref
  refine ⟨?_, ?_⟩
  · intro alive
    obtain ⟨fd', owned, there, e⟩ := alive
    refine c.sessions (P := fun server' _ owned => owned.addr = addr →
      (⟨server', addr⟩ : SessionRef) = ⟨server, d.allocated⟩ ∨ d.Live ⟨server', addr⟩) ?_ ?_
      server' fd' owned there e
    · intro e
      exact .inl (by rw [← e]; rfl)
    · intro server' fd' owned here e
      exact .inr ⟨fd', owned, here, e⟩
  · intro either
    rcases either with e | ⟨fd', owned, here, e⟩
    · cases e
      exact ⟨fd, _, c.here, rfl⟩
    · exact ⟨fd', owned, c.still free here, e⟩

namespace Subscribed
variable {d d' : Daemon σ}

/-- The pointers after a removal: all but that to the session removed. -/
lemma removed_live_iff (s : Subscribed d) {server : Server} {fd : Fd} {owned : Owned server}
    (here : d.session? server fd = some owned) (r : Removed server fd owned d d') {ref : SessionRef} :
    d'.Live ref ↔ ref ≠ ⟨server, owned.addr⟩ ∧ d.Live ref := by
  obtain ⟨server', addr⟩ := ref
  refine ⟨?_, ?_⟩
  · intro alive
    obtain ⟨fd', owned', there, e⟩ := alive
    obtain ⟨other, there⟩ := r.session_iff.mp there
    refine ⟨?_, fd', owned', there, e⟩
    intro same
    cases same
    obtain ⟨same, same'⟩ := s.unique _ _ _ _ _ _ here there e.symm
    exact other.elim (fun ne => ne same) (fun ne => ne same')
  · intro alive
    obtain ⟨ne, fd', owned', there, e⟩ := alive
    refine ⟨fd', owned', r.session_iff.mpr ⟨?_, there⟩, e⟩
    by_contra this
    push Not at this
    obtain ⟨rfl, rfl⟩ := this
    rw [here] at there
    cases there
    exact ne (congrArg (SessionRef.mk server') e.symm)

/-- A session has an address that has been given. -/
lemma live_lt (s : Subscribed d) {ref : SessionRef} (live : d.Live ref) : ref.addr < d.allocated := by
  obtain ⟨fd, owned, here, e⟩ := live
  rw [← e]
  exact (s.subscription ref.server fd owned here).2

/-- Input and output leave the subscriptions alone. -/
lemma of_same (s : Subscribed d) (same : SameFrame d d') : Subscribed d' := by
  refine ⟨?_, ?_, ?_, ?_⟩
  · rw [same.eventBus, same.allocated]
    exact s.counter
  · intro server fd owned' here'
    obtain ⟨owned, here, identity⟩ := same.symm.owned here'
    obtain ⟨subscription, lt⟩ := s.subscription server fd owned here
    have addr : owned.addr = owned'.addr := congrArg Prod.fst identity
    have kept : owned.session.subscription = owned'.session.subscription :=
      congrArg (fun i => i.2.2) identity
    rw [same.allocated, ← addr, ← kept]
    exact ⟨subscription, lt⟩
  · intro server fd owned server' fd' owned' here here' e
    obtain ⟨before, there, identity⟩ := same.symm.owned here
    obtain ⟨before', there', identity'⟩ := same.symm.owned here'
    apply s.unique server fd before server' fd' before' there there'
    exact (congrArg Prod.fst identity).trans (e.trans (congrArg Prod.fst identity').symm)
  · rw [same.eventBus, same.allocated]
    intro bound id ref
    rw [same.live_iff]
    exact s.handlers bound id ref

/-- The address of a new session is greater than those of the old ones. -/
lemma created_unique (s : Subscribed d) {server : Server} {fd : Fd} (c : Created server fd d d') :
    ∀ server' fd' owned server'' fd'' owned', d'.session? server' fd' = some owned →
      d'.session? server'' fd'' = some owned' → owned.addr = owned'.addr →
        server'' = server' ∧ fd'' = fd' := by
  have less : ∀ server' fd' owned, d.session? server' fd' = some owned → owned.addr < d.allocated :=
    fun server' fd' owned here => (s.subscription server' fd' owned here).2
  intro server' fd' owned server'' fd'' owned' there
  refine c.sessions (P := fun server' fd' owned => d'.session? server'' fd'' = some owned' →
    owned.addr = owned'.addr → server'' = server' ∧ fd'' = fd') ?_ ?_ server' fd' owned there
  · refine c.sessions (P := fun server'' fd'' owned' => d.allocated = owned'.addr →
      server'' = server ∧ fd'' = fd) (fun _ => ⟨rfl, rfl⟩) ?_ server'' fd'' owned'
    intro server'' fd'' owned' here e
    exact absurd e.symm (less server'' fd'' owned' here).ne
  · intro server' fd' owned here
    refine c.sessions (P := fun server'' fd'' owned' => owned.addr = owned'.addr →
      server'' = server' ∧ fd'' = fd') ?_ ?_ server'' fd'' owned'
    · intro e
      exact absurd e (less server' fd' owned here).ne
    · intro server'' fd'' owned' here'
      exact s.unique server' fd' owned server'' fd'' owned' here here'

/-- A new session is subscribed under the next id. -/
lemma of_created (s : Subscribed d) {server : Server} {fd : Fd}
    (free : d.session? server fd = none) (c : Created server fd d d') : Subscribed d' := by
  refine ⟨?_, ?_, ?_, ?_⟩
  · rw [c.eventBus, c.allocated]
    simp only [EventBus.subscribe, s.counter]
    exact (UInt64.ofNat_add (d.allocated + 1) 1).symm
  · rw [c.allocated]
    refine c.sessions ⟨?_, Nat.lt_succ_self _⟩ ?_
    · simp only [newSession, s.counter]
    · intro server' fd' owned here
      obtain ⟨subscription, lt⟩ := s.subscription server' fd' owned here
      exact ⟨subscription, Nat.lt_succ_of_lt lt⟩
  · exact s.created_unique c
  · intro bound id ref
    rw [c.allocated] at bound
    have handlers := s.handlers (by omega)
    -- the id of the new subscription is not in use
    have unused : d.eventBus.nextId ∉ d.eventBus.handlers := by
      rw [UnorderedMap.mem_iff_lookup]
      intro used
      obtain ⟨ref', e⟩ := used
      obtain ⟨e, alive⟩ := (handlers _ _).mp e
      have lt := s.live_lt alive
      rw [s.counter] at e
      have := id_inj (by omega) (by omega) e
      omega
    rw [c.eventBus, c.live_iff free, and_or_left]
    refine (UnorderedMap.lookup_emplace_iff unused).trans (or_congr ?_ (handlers id ref))
    refine ⟨?_, ?_⟩
    · intro new
      obtain ⟨rfl, rfl⟩ := new
      exact ⟨s.counter, rfl⟩
    · intro new
      obtain ⟨e, rfl⟩ := new
      exact ⟨e.trans s.counter.symm, rfl⟩

/-- The id 0 is given to a subscription only after 2^64 others. -/
lemma id_ne_zero (s : Subscribed d) (bound : d.allocated < 2 ^ 64)
    {server : Server} {fd : Fd} {owned : Owned server} (here : d.session? server fd = some owned) :
    owned.session.subscription.id ≠ 0 := by
  obtain ⟨subscription, lt⟩ := s.subscription server fd owned here
  rw [subscription]
  intro e
  have := id_inj (n := owned.addr + 1) (m := 0) (by omega) (by omega) e
  omega

/-- A session that is removed is unsubscribed, and the others are not. -/
lemma of_removed (s : Subscribed d) {server : Server} {fd : Fd} {owned : Owned server}
    (here : d.session? server fd = some owned) (r : Removed server fd owned d d') : Subscribed d' := by
  obtain ⟨subscription, lt⟩ := s.subscription server fd owned here
  refine ⟨?_, ?_, ?_, ?_⟩
  · rw [r.eventBus, r.allocated, ← s.counter, Subscription.reset]
    split
    · rfl
    · rfl
  · intro server' fd' owned' there
    rw [r.allocated]
    exact s.subscription server' fd' owned' (r.session_iff.mp there).2
  · intro server' fd' owned' server'' fd'' owned'' there there' e
    exact s.unique _ _ _ _ _ _ (r.session_iff.mp there).2 (r.session_iff.mp there').2 e
  · intro bound id ref
    rw [r.allocated] at bound
    have handlers := s.handlers bound
    have nonzero := s.id_ne_zero bound here
    have bus : owned.session.subscription.bus ≠ none := by
      rw [subscription]
      simp
    rw [r.eventBus, lookup_reset bus, s.removed_live_iff here r, and_iff_left nonzero, subscription]
    rw [handlers]
    refine ⟨?_, ?_⟩
    · intro old
      obtain ⟨ne, e, alive⟩ := old
      refine ⟨e, ?_, alive⟩
      intro same
      subst same
      exact ne e
    · intro old
      obtain ⟨e, ne, alive⟩ := old
      refine ⟨?_, e, alive⟩
      -- the only handler under the id of the session was that of the session
      intro e'
      have was := (handlers id ⟨server, owned.addr⟩).mpr ⟨e', fd, owned, here, rfl⟩
      rw [(handlers id ref).mpr ⟨e, alive⟩] at was
      exact ne (Option.some.inj was)

end Subscribed

/-- Every operation keeps the subscriptions in order. -/
lemma kept_subscribed : Kept fun d : Daemon σ => Watched d ∧ Subscribed d where
  watched _ both := both.1
  same _ _ both same := ⟨both.1.of_same same, both.2.of_same same⟩
  created server _ _ _ both new c :=
    ⟨both.1.of_created new c, both.2.of_created (both.1.none_of_not_open new server) c⟩
  removed _ _ _ _ _ both here r := ⟨both.1.of_removed here r, both.2.of_removed here r⟩
  updated _ _ _ _ both here :=
    ⟨both.1.of_updated (both.1.watched here) _,
      both.2.counter, both.2.subscription, both.2.unique, both.2.handlers⟩
  stopped _ both :=
    ⟨both.1.of_stopped, both.2.counter, both.2.subscription, both.2.unique, both.2.handlers⟩

/-- When the loop is entered its own descriptors are registered, and no others. -/
lemma boot_watched (fds : Descriptors) (modem : σ) : Watched (boot fds modem) := by
  have distinct := fds.distinct
  simp only [List.nodup_cons, List.mem_cons, List.not_mem_nil, or_false, not_or] at distinct
  obtain ⟨⟨ne, ne'⟩, ne'', -⟩ := distinct
  have signal_new : fds.signalFd ∉ (∅ : UnorderedMap Fd Callback) := AList.notMem_empty _
  have listen_new : fds.listenFd ∉ UnorderedMap.emplace fds.signalFd Callback.signal ∅ := by
    rw [UnorderedMap.mem_emplace, not_or]
    exact ⟨Ne.symm ne, AList.notMem_empty _⟩
  have timer_new : fds.timerFd ∉ UnorderedMap.emplace fds.listenFd Callback.acceptClients
      (UnorderedMap.emplace fds.signalFd Callback.signal ∅) := by
    rw [UnorderedMap.mem_emplace, UnorderedMap.mem_emplace, not_or, not_or]
    exact ⟨Ne.symm ne'', Ne.symm ne', AList.notMem_empty _⟩
  have entries : ∀ fd callback, (boot fds modem).loop.callbacks.lookup fd = some callback ↔
      (fd = fds.timerFd ∧ callback = .networkTimer) ∨ (fd = fds.listenFd ∧ callback = .acceptClients) ∨
        (fd = fds.signalFd ∧ callback = .signal) := by
    intro fd callback
    refine (UnorderedMap.lookup_emplace_iff timer_new).trans (or_congr_right ?_)
    refine (UnorderedMap.lookup_emplace_iff listen_new).trans (or_congr_right ?_)
    refine (UnorderedMap.lookup_emplace_iff signal_new).trans (or_iff_left ?_)
    rw [AList.lookup_empty]
    simp
  have keys : ∀ fd, fd ∈ (boot fds modem).loop.callbacks ↔
      fd = fds.timerFd ∨ fd = fds.listenFd ∨ fd = fds.signalFd := by
    intro fd
    show fd ∈ UnorderedMap.emplace _ _ _ ↔ _
    simp only [UnorderedMap.mem_emplace, AList.notMem_empty, or_false]
  refine ⟨?_, ?_, ?_, ?_⟩
  · intro fd
    rw [keys]
    show fd ∈ AList.insert _ _ _ ↔ _
    simp only [AList.mem_insert, AList.notMem_empty, or_false]
  · intro fd callback
    rw [entries]
    cases callback with
    | signal => simp [CallbackFor, boot]
    | acceptClients => simp [CallbackFor, boot]
    | networkTimer => simp [CallbackFor, boot]
    | session server fd' => simp [CallbackFor, boot, session?]
  · intro server fd owned here
    cases here
  · intro fd mem
    rw [keys] at mem
    show fd ∈ [fds.signalFd, fds.listenFd, fds.timerFd] ++ fds.others
    simp only [List.mem_append, List.mem_cons, List.not_mem_nil, or_false]
    tauto

/-- When the loop is entered nobody is subscribed. -/
lemma boot_subscribed (fds : Descriptors) (modem : σ) : Subscribed (boot fds modem) := by
  have none : ∀ server fd owned, (boot fds modem).session? server fd ≠ some owned := by
    intro server fd owned e
    cases e
  refine ⟨rfl, ?_, ?_, ?_⟩
  · intro server fd owned here
    exact absurd here (none server fd owned)
  · intro server fd owned server' fd' owned' here
    exact absurd here (none server fd owned)
  · intro _ id ref
    refine ⟨?_, ?_⟩
    · intro e
      cases e
    · intro entry
      obtain ⟨-, fd, owned, here, -⟩ := entry
      exact absurd here (none ref.server fd owned)

/-- Registrations and subscriptions are in order in every reachable state. -/
lemma reachable_subscribed {fds : Descriptors} {modem : σ} {steps : List Step} {d : Daemon σ}
    (run : (system M).exec (boot fds modem) steps = some d) : Watched d ∧ Subscribed d :=
  System.invariant (fun _ _ _ holds step => kept_subscribed.step holds step)
    ⟨boot_watched fds modem, boot_subscribed fds modem⟩ run

/-- The four containers agree. -/
structure Consistent (d : Daemon σ) : Prop where
  interest : ∀ fd, fd ∈ d.loop.callbacks ↔ fd ∈ d.loop.epoll.interest
  union : d.loop.callbacks.keys.Perm
    ([d.signalFd, d.listenFd, d.timerFd] ++ (d.sessions .atServer).keys ++
      (d.sessions .qmiServer).keys)
  own : ∀ server fd owned, d.session? server fd = some owned → owned.session.fd = fd
  handler : ∀ server fd owned, d.session? server fd = some owned →
    ∃! id, d.eventBus.handlers.lookup id = some ⟨server, owned.addr⟩
  distinct : ∀ server fd owned server' fd' owned', d.session? server fd = some owned →
    d.session? server' fd' = some owned' → owned.addr = owned'.addr → server' = server ∧ fd' = fd
  live : ∀ id ref, d.eventBus.handlers.lookup id = some ref → d.Live ref

/-- A key of the container is the descriptor of a session. -/
lemma mem_sessions {d : Daemon σ} {server : Server} {fd : Fd} :
    fd ∈ (d.sessions server).keys ↔ ∃ owned, d.session? server fd = some owned := by
  rw [← AList.mem_keys]
  exact UnorderedMap.mem_iff_lookup

/-- Which descriptors have a callback. -/
lemma Watched.mem_keys_iff {d : Daemon σ} (w : Watched d) (fd : Fd) :
    fd ∈ d.loop.callbacks.keys ↔
      fd ∈ [d.signalFd, d.listenFd, d.timerFd] ++ (d.sessions .atServer).keys ++
        (d.sessions .qmiServer).keys := by
  rw [← AList.mem_keys, UnorderedMap.mem_iff_lookup]
  simp only [List.mem_append, List.mem_cons, List.not_mem_nil, or_false, w.callback, mem_sessions]
  refine ⟨?_, ?_⟩
  · intro there
    obtain ⟨callback, for_⟩ := there
    cases callback with
    | signal => exact .inl (.inl (.inl for_))
    | acceptClients => exact .inl (.inl (.inr (.inl for_)))
    | networkTimer => exact .inl (.inl (.inr (.inr for_)))
    | session server fd' =>
      obtain ⟨rfl, there⟩ := for_
      cases server with
      | atServer => exact .inl (.inr there)
      | qmiServer => exact .inr there
  · intro mem
    rcases mem with ((e | e | e) | there) | there
    · exact ⟨.signal, e⟩
    · exact ⟨.acceptClients, e⟩
    · exact ⟨.networkTimer, e⟩
    · exact ⟨.session .atServer fd, rfl, there⟩
    · exact ⟨.session .qmiServer fd, rfl, there⟩

/-- Two descriptors with different callbacks are different. -/
lemma Watched.nodup {d : Daemon σ} (w : Watched d) :
    ([d.signalFd, d.listenFd, d.timerFd] ++ (d.sessions .atServer).keys ++
      (d.sessions .qmiServer).keys).Nodup := by
  have signal : d.CallbackFor d.signalFd .signal := rfl
  have listen : d.CallbackFor d.listenFd .acceptClients := rfl
  have timer : d.CallbackFor d.timerFd .networkTimer := rfl
  have session : ∀ {server fd}, fd ∈ (d.sessions server).keys →
      d.CallbackFor fd (.session server fd) := by
    intro server fd mem
    exact ⟨rfl, mem_sessions.mp mem⟩
  have apart : ∀ {server fd}, fd ∈ [d.signalFd, d.listenFd, d.timerFd] →
      fd ∉ (d.sessions server).keys := by
    intro server fd mem mem'
    simp only [List.mem_cons, List.not_mem_nil, or_false] at mem
    rcases mem with rfl | rfl | rfl
    · cases w.callback_unique signal (session mem')
    · cases w.callback_unique listen (session mem')
    · cases w.callback_unique timer (session mem')
  rw [List.nodup_append', List.nodup_append']
  refine ⟨⟨?_, (d.sessions .atServer).keys_nodup, fun fd => apart⟩,
    (d.sessions .qmiServer).keys_nodup, ?_⟩
  · simp only [List.nodup_cons, List.mem_cons, List.not_mem_nil, or_false, not_or,
      not_false_eq_true, List.nodup_nil, and_true]
    refine ⟨⟨fun e => ?_, fun e => ?_⟩, fun e => ?_⟩
    · cases w.callback_unique signal (e ▸ listen)
    · cases w.callback_unique signal (e ▸ timer)
    · cases w.callback_unique listen (e ▸ timer)
  · intro fd mem mem'
    rcases List.mem_append.mp mem with mem | mem
    · exact apart mem mem'
    · cases w.callback_unique (session mem) (session mem')

/-- The descriptors with a callback are the disjoint union of those of the process and of the sessions. -/
lemma Watched.union {d : Daemon σ} (w : Watched d) :
    d.loop.callbacks.keys.Perm
      ([d.signalFd, d.listenFd, d.timerFd] ++ (d.sessions .atServer).keys ++
        (d.sessions .qmiServer).keys) :=
  (List.perm_ext_iff_of_nodup d.loop.callbacks.keys_nodup w.nodup).mpr w.mem_keys_iff

/-- In every run the registrations are consistent at every point between two callbacks, as long as
fewer than 2^64 sessions have been created. -/
theorem always_consistent (M : MiniModem.Modem σ) (fds : Descriptors) (modem : σ)
    (steps : List Step) :
    (system M).Always (fun d => d.allocated < 2 ^ 64 → Consistent d) (boot fds modem) steps := by
  intro before _ d run bound
  obtain ⟨w, s⟩ := reachable_subscribed run
  refine ⟨fun fd => (w.interest fd).symm, w.union, w.own, ?_, s.unique, ?_⟩
  · intro server fd owned here
    refine ⟨UInt64.ofNat (owned.addr + 1), ?_, ?_⟩
    · exact (s.handlers bound _ _).mpr ⟨rfl, fd, owned, here, rfl⟩
    · intro id e
      exact ((s.handlers bound _ _).mp e).1
  · intro id ref e
    exact ((s.handlers bound id ref).mp e).2

/-! ### The bound -/

/-- A client connects, and closes the connection again. -/
def visit : List Step :=
  [.deliver 6 EPOLLIN { accepts := [.client 7 true] }, .deliver 7 EPOLLIN { reads := [.bytes []] }]

/-- There are no sessions, after `n` that are gone. -/
structure Quiet (n : ℕ) (d : Daemon Bool) : Prop where
  openFds : d.openFds = [4, 6, 5, 0, 1, 2, 3]
  loop : d.loop = sampleDescriptors.loop
  sessions : d.sessions = fun _ => ∅
  allocated : d.allocated = n
  nextId : d.eventBus.nextId = UInt64.ofNat (n + 1)

/-- A visitor leaves nothing behind, unless the id 0 was given to its subscription. -/
lemma exec_visit {n : ℕ} {d : Daemon Bool} (quiet : Quiet n d) (empty : d.eventBus.handlers = ∅) :
    ∃ d', (system sampleModem).exec d visit = some d' ∧ Quiet (n + 1) d' ∧
      d'.eventBus.handlers =
        if UInt64.ofNat (n + 1) ≠ 0 then ∅
        else UnorderedMap.emplace (UInt64.ofNat (n + 1)) ⟨.qmiServer, n⟩ ∅ := by
  obtain ⟨openFds, loop, sessions, allocated, nextId⟩ := quiet
  obtain ⟨signalFd, listenFd, timerFd, fds, loop', bus, modem, sessions', allocated', destroyed⟩ := d
  obtain ⟨nextId', handlers⟩ := bus
  simp only at openFds loop sessions allocated nextId empty
  subst openFds loop sessions allocated nextId empty
  refine ⟨_, rfl, ⟨rfl, rfl, ?_, rfl, ?_⟩, ?_⟩
  · funext server
    cases server with
    | atServer => rfl
    | qmiServer => rfl
  · show (Subscription.reset ⟨some busPtr, UInt64.ofNat (allocated' + 1)⟩
      (EventBus.subscribe busPtr (⟨.qmiServer, allocated'⟩ : SessionRef)
        { nextId := UInt64.ofNat (allocated' + 1) }).2).2.nextId = _
    have next : UInt64.ofNat (allocated' + 1) + 1 = UInt64.ofNat (allocated' + 1 + 1) :=
      (UInt64.ofNat_add (allocated' + 1) 1).symm
    rw [Subscription.reset]
    split
    · exact next
    · exact next
  · show (Subscription.reset ⟨some busPtr, UInt64.ofNat (allocated' + 1)⟩
      (EventBus.subscribe busPtr (⟨.qmiServer, allocated'⟩ : SessionRef)
        { nextId := UInt64.ofNat (allocated' + 1) }).2).2.handlers = _
    rw [Subscription.reset]
    by_cases zero : UInt64.ofNat (allocated' + 1) = 0
    · rw [if_neg (by simp [zero]), if_neg (by simp [zero])]
      rfl
    · rw [if_pos ⟨by simp, zero⟩, if_pos zero]
      exact UnorderedMap.erase_emplace (AList.notMem_empty _)

/-- Below the bound all visitors leave nothing behind. -/
lemma exec_visits (n : ℕ) (bound : n < 2 ^ 64) :
    ∃ d, (system sampleModem).exec (boot sampleDescriptors false) (List.replicate n visit).flatten =
      some d ∧ Quiet n d ∧ d.eventBus.handlers = ∅ := by
  induction n with
  | zero => exact ⟨_, rfl, ⟨rfl, rfl, rfl, rfl, rfl⟩, rfl⟩
  | succ n ih =>
    obtain ⟨d, run, quiet, empty⟩ := ih (by omega)
    obtain ⟨d', last, quiet', handlers⟩ := exec_visit quiet empty
    have nonzero : UInt64.ofNat (n + 1) ≠ 0 := by
      intro e
      have := id_inj (n := n + 1) (m := 0) bound (by omega) e
      omega
    rw [if_pos nonzero] at handlers
    refine ⟨d', ?_, quiet', handlers⟩
    rw [List.replicate_succ', List.flatten_append, System.exec_append, run, List.flatten_singleton]
    exact last

/-- After 2^64 visitors, one after the other, the handler of the last one is still there. -/
theorem not_consistent_after_wrap :
    ∃ d, (system sampleModem).exec (boot sampleDescriptors false)
        (List.replicate (2 ^ 64) visit).flatten = some d ∧ ¬ Consistent d := by
  obtain ⟨d, run, quiet, empty⟩ := exec_visits (2 ^ 64 - 1) (by omega)
  obtain ⟨d', last, quiet', handlers⟩ := exec_visit quiet empty
  have count : 2 ^ 64 = 2 ^ 64 - 1 + 1 := by omega
  refine ⟨d', ?_, fun consistent => ?_⟩
  · rw [count, List.replicate_succ', List.flatten_append, System.exec_append, run,
      List.flatten_singleton]
    exact last
  · have zero : UInt64.ofNat (2 ^ 64 - 1 + 1) = 0 := by decide
    rw [zero, if_neg (by simp)] at handlers
    have left : d'.eventBus.handlers.lookup 0 = some ⟨.qmiServer, 2 ^ 64 - 1⟩ := by
      rw [handlers]
      exact UnorderedMap.lookup_emplace_self (AList.notMem_empty _)
    obtain ⟨fd, owned, here, -⟩ := consistent.live _ _ left
    rw [session?, quiet'.sessions] at here
    cases here

end MiniModem.Daemon
