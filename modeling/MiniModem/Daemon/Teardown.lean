import MiniModem.Daemon.Batch
import MiniModem.Daemon.HangUp

/-!
# The destructors of the servers

`at::Server::~Server` removes its sessions one by one with `removeSession`, which also takes them out of
the event loop. `qmi::Server::~Server` takes out its listening descriptor and clears the container of its
sessions, whose callbacks stay behind. As `emplace` keeps what it finds, the next owner of the descriptor
is then called through the callback of the destroyed server. So a destructor leaves nothing behind exactly
if it is the one of the AT server or there are no QMI sessions (`leavesNothing_iff`).
-/

namespace MiniModem.Daemon
open Lib Transport Modem

/-- The order in which a container of sessions is iterated. -/
structure SessionOrder where
  order : List Fd → List Fd
  perm : ∀ fds, (order fds).Perm fds

/-- Iteration in the order of the entries. -/
def SessionOrder.entries : SessionOrder := ⟨id, fun fds => .refl fds⟩

/-- The callbacks that a server registers. -/
def Server.Registers : Server → Callback → Prop
  | server, .session server' _ => server' = server
  | .qmiServer, .acceptClients => True
  | _, _ => False

section
variable {σ : Type*}

/-- The loop of `at::Server::~Server`, for at most so many turns. -/
def removeSessions (server : Server) (order : SessionOrder) : ℕ → Daemon σ → Daemon σ
  | 0, d => d
  | turns + 1, d =>
    match order.order (d.sessions server).keys with
    | [] => d
    | fd :: _ => removeSessions server order turns (d.removeSession server fd)

/-- The destructor of the session under a descriptor. -/
def destroyAt (server : Server) (d : Daemon σ) (fd : Fd) : Daemon σ :=
  match d.session? server fd with
  | none => d
  | some owned => d.destroy server owned

/-- `sessions_.clear()` -/
def clearSessions (server : Server) (order : SessionOrder) (d : Daemon σ) : Daemon σ :=
  ((order.order (d.sessions server).keys).foldl (destroyAt server) d).setSessions server ∅

/-- The QMI server lets go of its listening descriptor. -/
def closeListenFd (d : Daemon σ) : Daemon σ :=
  if d.listenFd ≠ -1 then ({ d with loop := d.loop.removeFd d.listenFd }).close d.listenFd else d

/-- `~Server`, of either server. A turn of the first loop removes a session, so there are as many as there
are sessions. -/
def destructor (server : Server) (order : SessionOrder) (d : Daemon σ) : Daemon σ :=
  match server with
  | .atServer => d.removeSessions .atServer order (d.sessions .atServer).keys.length
  | .qmiServer => d.closeListenFd.clearSessions .qmiServer order

/-- After the destructor, in the state `d'`, the callbacks and the handlers are those that were there
before and do not belong to the server or its sessions, and whoever registers a descriptor that is not
open gets its own callback. -/
structure LeavesNothing (server : Server) (d d' : Daemon σ) : Prop where
  callbacks : ∀ fd callback, d'.loop.callbacks.lookup fd = some callback ↔
    ¬ server.Registers callback ∧ d.loop.callbacks.lookup fd = some callback
  handlers : ∀ id ref, d'.eventBus.handlers.lookup id = some ref ↔
    ¬ (ref.server = server ∧ d.Live ref) ∧ d.eventBus.handlers.lookup id = some ref
  recycled : ∀ fd events callback loop, fd ∉ d'.openFds →
    d'.loop.addFd true fd events callback = .returned loop → loop.callbacks.lookup fd = some callback

/-- The subscription of a session of the server has this id, and it is not 0. -/
def Holds (server : Server) (d : Daemon σ) (id : SubscriptionId) : Prop :=
  id ≠ 0 ∧ ∃ fd owned, d.session? server fd = some owned ∧ owned.session.subscription.id = id

/-- The handlers under the ids of the sessions of the server are those of these sessions. -/
def HoldsOwn (server : Server) (d : Daemon σ) : Prop :=
  ∀ id ref, d.eventBus.handlers.lookup id = some ref →
    (d.Holds server id ↔ ref.server = server ∧ d.Live ref)

/-- What the removal of all sessions of a server does, except to the callbacks. -/
structure Emptied (server : Server) (d d' : Daemon σ) : Prop where
  gone : ∀ fd, d'.session? server fd = none
  handlers : ∀ id ref, d'.eventBus.handlers.lookup id = some ref ↔
    ¬ d.Holds server id ∧ d.eventBus.handlers.lookup id = some ref
  openFds : ∀ fd ∈ d.openFds, d.session? server fd = none → fd ∈ d'.openFds

variable {M : MiniModem.Modem σ}

/-! ### Removing the sessions one by one -/

/-- The session is taken out of its container. -/
lemma removeSession_sessions {server : Server} {fd : Fd} {owned : Owned server} {d : Daemon σ}
    (here : d.session? server fd = some owned) :
    (d.removeSession server fd).sessions server = (d.sessions server).erase fd := by
  have there : ({ d with loop := d.loop.removeFd fd } : Daemon σ).session? server fd = some owned :=
    here
  simp only [removeSession, there, destroy]
  split
  · simp [setSessions, close]
  · simp [setSessions]

/-- One session, and then the others. -/
lemma Removed.emptied {server : Server} {fd : Fd} {owned : Owned server} {d between d' : Daemon σ}
    (s : Subscribed d) (here : d.session? server fd = some owned)
    (r : Removed server fd owned d between) (rest : Emptied server between d') :
    Emptied server d d' := by
  have bus : owned.session.subscription.bus ≠ none := by
    rw [(s.subscription server fd owned here).1]
    simp
  -- the ids held by the session and by the others
  have held : ∀ id, d.Holds server id ↔
      (id = owned.session.subscription.id ∧ owned.session.subscription.id ≠ 0) ∨
        between.Holds server id := by
    intro id
    refine ⟨?_, ?_⟩
    · intro holds
      obtain ⟨nonzero, fd', owned', there, rfl⟩ := holds
      rcases eq_or_ne fd' fd with rfl | ne
      · rw [here] at there
        cases there
        exact .inl ⟨rfl, nonzero⟩
      · exact .inr ⟨nonzero, fd', owned', r.session_iff.mpr ⟨.inr ne, there⟩, rfl⟩
    · intro either
      rcases either with ⟨rfl, nonzero⟩ | ⟨nonzero, fd', owned', there, e⟩
      · exact ⟨nonzero, fd, owned, here, rfl⟩
      · exact ⟨nonzero, fd', owned', (r.session_iff.mp there).2, e⟩
  refine ⟨rest.gone, ?_, ?_⟩
  · intro id ref
    rw [rest.handlers, r.eventBus, lookup_reset bus, held, not_or]
    tauto
  · intro fd' opened none
    have ne : fd' ≠ fd := by
      rintro rfl
      rw [here] at none
      cases none
    apply rest.openFds fd' (r.openFds fd' opened ne)
    rw [r.others server fd' (.inr ne), none]

/-- `~at::Server` leaves no session and no callback of one. -/
lemma removeSessions_emptied {server : Server} (order : SessionOrder) {turns : ℕ} {d : Daemon σ}
    (both : Watched d ∧ Subscribed d) (enough : (d.sessions server).keys.length ≤ turns) :
    Emptied server d (d.removeSessions server order turns) ∧
      ∀ fd callback, (d.removeSessions server order turns).loop.callbacks.lookup fd = some callback ↔
        (∀ fd', callback ≠ .session server fd') ∧ d.loop.callbacks.lookup fd = some callback := by
  -- without sessions there is nothing to do
  have finished : ∀ d : Daemon σ, Watched d → (d.sessions server).keys = [] → Emptied server d d ∧
      ∀ fd callback, d.loop.callbacks.lookup fd = some callback ↔
        (∀ fd', callback ≠ .session server fd') ∧ d.loop.callbacks.lookup fd = some callback := by
    intro d w empty
    have none : ∀ fd owned, d.session? server fd ≠ some owned := by
      intro fd owned here
      have mem := mem_sessions.mpr ⟨owned, here⟩
      rw [empty] at mem
      cases mem
    refine ⟨⟨fun fd => Option.eq_none_iff_forall_ne_some.mpr (none fd), ?_, fun _ opened _ => opened⟩, ?_⟩
    · intro id ref
      refine (and_iff_right ?_).symm
      intro holds
      obtain ⟨-, fd, owned, here, -⟩ := holds
      exact none fd owned here
    · intro fd callback
      refine (and_iff_right_of_imp ?_).symm
      intro found fd' e
      subst e
      obtain ⟨-, owned, here⟩ := (w.callback _ _).mp found
      exact none fd owned here
  induction turns generalizing d with
  | zero => exact finished d both.1 (List.length_eq_zero_iff.mp (Nat.le_zero.mp enough))
  | succ turns ih =>
    rw [removeSessions]
    rcases first : order.order (d.sessions server).keys with _ | ⟨fd, fds⟩
    · have empty := order.perm (d.sessions server).keys
      rw [first] at empty
      exact finished d both.1 empty.nil_eq.symm
    · have mem : fd ∈ (d.sessions server).keys := by
        rw [← (order.perm _).mem_iff, first]
        exact List.mem_cons_self
      obtain ⟨owned, here⟩ := mem_sessions.mp mem
      have r := removed here (both.1.own server fd owned here)
      have fewer : ((d.removeSession server fd).sessions server).keys.length ≤ turns := by
        rw [removeSession_sessions here, AList.keys_erase, List.length_erase_of_mem mem]
        omega
      obtain ⟨emptied, callbacks⟩ := ih (kept_subscribed.removed _ _ _ _ _ both here r) fewer
      refine ⟨r.emptied both.2 here emptied, ?_⟩
      intro fd' callback
      apply (callbacks fd' callback).trans
      rw [r.callbacks, UnorderedMap.lookup_erase_iff]
      refine ⟨?_, ?_⟩
      · exact fun kept => ⟨kept.1, kept.2.2⟩
      · intro kept
        refine ⟨kept.1, ?_, kept.2⟩
        rintro rfl
        rw [both.1.registered here] at kept
        exact kept.1 fd' (Option.some.inj kept.2).symm

/-! ### Clearing the container -/

/-- `sessions_.clear()` leaves the callbacks. -/
lemma destroyAt_loop (server : Server) (d : Daemon σ) (fd : Fd) :
    (d.destroyAt server fd).sessions = d.sessions ∧
      (d.destroyAt server fd).loop.callbacks = d.loop.callbacks := by
  rw [destroyAt]
  split
  · exact ⟨rfl, rfl⟩
  · rw [destroy]
    split
    · exact ⟨rfl, rfl⟩
    · exact ⟨rfl, rfl⟩

/-- The handlers after the destructor of a session. -/
lemma destroyAt_handlers {server : Server} {d : Daemon σ} {fd : Fd} {owned : Owned server}
    (here : d.session? server fd = some owned) (bus : owned.session.subscription.bus ≠ none)
    (id : SubscriptionId) (ref : SessionRef) :
    (d.destroyAt server fd).eventBus.handlers.lookup id = some ref ↔
      ¬ (id = owned.session.subscription.id ∧ owned.session.subscription.id ≠ 0) ∧
        d.eventBus.handlers.lookup id = some ref := by
  rw [← lookup_reset bus, destroyAt, here]
  simp only [destroy]
  split
  · rfl
  · rfl

/-- Only the descriptor of the session is closed. -/
lemma destroyAt_openFds {server : Server} {d : Daemon σ} {fd : Fd} {owned : Owned server}
    (here : d.session? server fd = some owned) (own : owned.session.fd = fd) {fd' : Fd} (ne : fd' ≠ fd)
    (opened : fd' ∈ d.openFds) : fd' ∈ (d.destroyAt server fd).openFds := by
  rw [destroyAt, here]
  simp only [destroy, own]
  split
  · simp [close, opened, ne]
  · exact opened

/-- What the destructors of some of the sessions do. -/
lemma foldl_destroyAt {server : Server} {fds : List Fd} {d : Daemon σ}
    (there : ∀ fd ∈ fds, ∃ owned, d.session? server fd = some owned)
    (session : ∀ fd owned, d.session? server fd = some owned →
      owned.session.subscription.bus ≠ none ∧ owned.session.fd = fd) :
    (fds.foldl (destroyAt server) d).loop.callbacks = d.loop.callbacks ∧
      (∀ id ref, (fds.foldl (destroyAt server) d).eventBus.handlers.lookup id = some ref ↔
        ¬ (id ≠ 0 ∧ ∃ fd ∈ fds, ∃ owned, d.session? server fd = some owned ∧
            owned.session.subscription.id = id) ∧ d.eventBus.handlers.lookup id = some ref) ∧
      ∀ fd ∈ d.openFds, fd ∉ fds → fd ∈ (fds.foldl (destroyAt server) d).openFds := by
  induction fds generalizing d with
  | nil => simp
  | cons fd fds ih =>
    obtain ⟨sessions, callbacks⟩ := destroyAt_loop server d fd
    obtain ⟨owned, here⟩ := there fd List.mem_cons_self
    obtain ⟨bus, own⟩ := session fd owned here
    have same : ∀ fd', (d.destroyAt server fd).session? server fd' = d.session? server fd' := by
      intro fd'
      rw [session?, session?, sessions]
    obtain ⟨callbacks', handlers', openFds'⟩ := ih (d := d.destroyAt server fd)
      (fun fd' mem => by rw [same]; exact there fd' (List.mem_cons_of_mem _ mem))
      (fun fd' owned' here' => session fd' owned' ((same fd').symm.trans here'))
    rw [List.foldl_cons]
    refine ⟨callbacks'.trans callbacks, ?_, ?_⟩
    · intro id ref
      rw [handlers', destroyAt_handlers here bus]
      simp only [same, List.mem_cons, exists_eq_or_imp, here, Option.some.injEq, exists_eq_left']
      grind
    · intro fd' opened notIn
      rw [List.mem_cons, not_or] at notIn
      exact openFds' fd' (destroyAt_openFds here own notIn.1 opened) notIn.2

/-- What clearing the container does; the callbacks stay. -/
lemma clearSessions_emptied (server : Server) (order : SessionOrder) {d : Daemon σ}
    (session : ∀ fd owned, d.session? server fd = some owned →
      owned.session.subscription.bus ≠ none ∧ owned.session.fd = fd) :
    Emptied server d (d.clearSessions server order) ∧
      (d.clearSessions server order).loop.callbacks = d.loop.callbacks := by
  have keys : ∀ fd, fd ∈ order.order (d.sessions server).keys ↔
      ∃ owned, d.session? server fd = some owned := by
    intro fd
    rw [(order.perm _).mem_iff]
    exact mem_sessions
  obtain ⟨callbacks, handlers, openFds⟩ := foldl_destroyAt (fun fd mem => (keys fd).mp mem) session
  refine ⟨⟨?_, ?_, ?_⟩, callbacks⟩
  · intro fd
    rw [clearSessions, session?_setSessions_self]
    rfl
  · intro id ref
    refine (handlers id ref).trans (and_congr_left' (not_congr (and_congr_right' ?_)))
    refine ⟨?_, ?_⟩
    · intro held
      obtain ⟨fd, -, owned, here, e⟩ := held
      exact ⟨fd, owned, here, e⟩
    · intro held
      obtain ⟨fd, owned, here, e⟩ := held
      exact ⟨fd, (keys fd).mpr ⟨owned, here⟩, owned, here, e⟩
  · intro fd opened none
    apply openFds fd opened
    rw [keys, none]
    simp

/-! ### The destructors -/

/-- What both destructors do; that of the QMI server leaves the callbacks of its sessions. -/
lemma destructor_spec {d : Daemon σ} (both : Watched d ∧ Subscribed d) (opened : d.listenFd ≠ -1)
    (server : Server) (order : SessionOrder) :
    (∀ id ref, (d.destructor server order).eventBus.handlers.lookup id = some ref ↔
        ¬ d.Holds server id ∧ d.eventBus.handlers.lookup id = some ref) ∧
      (∀ fd ∈ d.openFds, (∀ callback, d.loop.callbacks.lookup fd = some callback →
        ¬ server.Registers callback) → fd ∈ (d.destructor server order).openFds) ∧
      ∀ fd callback, (d.destructor server order).loop.callbacks.lookup fd = some callback ↔
        ¬ (server.Registers callback ∧ (server = .qmiServer → callback = .acceptClients)) ∧
          d.loop.callbacks.lookup fd = some callback := by
  have session : ∀ server fd owned, d.session? server fd = some owned →
      owned.session.subscription.bus ≠ none ∧ owned.session.fd = fd := by
    intro server fd owned here
    rw [(both.2.subscription server fd owned here).1]
    exact ⟨by simp, both.1.own server fd owned here⟩
  have free : ∀ server fd, (∀ callback, d.loop.callbacks.lookup fd = some callback →
      ¬ server.Registers callback) → d.session? server fd = none := by
    intro server fd other
    rcases here : d.session? server fd with _ | owned
    · rfl
    · exact absurd rfl (other _ (both.1.registered here))
  cases server with
  | atServer =>
    obtain ⟨emptied, callbacks⟩ := removeSessions_emptied order both le_rfl
    refine ⟨emptied.handlers, fun fd opened other => emptied.openFds fd opened (free _ fd other), ?_⟩
    intro fd callback
    refine (callbacks fd callback).trans (and_congr_left' ?_)
    cases callback with
    | signal => simp [Server.Registers]
    | acceptClients => simp [Server.Registers]
    | networkTimer => simp [Server.Registers]
    | session server fd' => cases server <;> simp [Server.Registers]
  | qmiServer =>
    have closed : d.closeListenFd =
        ({ d with loop := d.loop.removeFd d.listenFd }).close d.listenFd := if_pos opened
    have sessions : ∀ server fd, d.closeListenFd.session? server fd = d.session? server fd := by
      intro server fd
      rw [closed]
      rfl
    obtain ⟨emptied, callbacks⟩ := clearSessions_emptied .qmiServer order (d := d.closeListenFd)
      (fun fd owned here => session .qmiServer fd owned (sessions _ _ ▸ here))
    have listening : d.loop.callbacks.lookup d.listenFd = some .acceptClients :=
      (both.1.callback _ _).mpr rfl
    refine ⟨?_, ?_, ?_⟩
    · intro id ref
      apply (emptied.handlers id ref).trans
      simp only [Holds, sessions]
      rw [closed]
      rfl
    · intro fd was other
      refine emptied.openFds fd ?_ ((sessions _ _).trans (free _ fd other))
      have ne : fd ≠ d.listenFd := by
        rintro rfl
        exact other _ listening trivial
      rw [closed]
      simp [close, was, ne]
    · intro fd callback
      have erased : d.closeListenFd.loop.callbacks = d.loop.callbacks.erase d.listenFd := by
        rw [closed]
        rfl
      rw [destructor, callbacks, erased, UnorderedMap.lookup_erase_iff]
      refine and_congr_left fun found => not_congr ?_
      refine ⟨?_, ?_⟩
      · rintro rfl
        rw [listening] at found
        cases found
        exact ⟨trivial, fun _ => rfl⟩
      · intro removed
        have accepts := removed.2 rfl
        subst accepts
        exact (both.1.callback _ _).mp found

/-- When a destructor leaves nothing behind, in terms of what it does to callbacks and handlers. -/
lemma leavesNothing_spec {d : Daemon σ} (both : Watched d ∧ Subscribed d) (opened : d.listenFd ≠ -1)
    (server : Server) (order : SessionOrder) :
    LeavesNothing server d (d.destructor server order) ↔
      (server = .qmiServer → ∀ fd, d.session? .qmiServer fd = none) ∧ HoldsOwn server d := by
  obtain ⟨handlers, openFds, callbacks⟩ := destructor_spec both opened server order
  refine ⟨?_, ?_⟩
  · intro leaves
    refine ⟨?_, ?_⟩
    · intro e fd
      subst e
      rcases here : d.session? .qmiServer fd with _ | owned
      · rfl
      · -- its callback is still there
        have still := (callbacks fd (.session .qmiServer fd)).mpr
          ⟨by simp, both.1.registered here⟩
        exact absurd rfl ((leaves.callbacks fd _).mp still).1
    · intro id ref stored
      have same := (handlers id ref).symm.trans (leaves.handlers id ref)
      simp only [stored, and_true] at same
      exact not_iff_not.mp same
  · intro condition
    obtain ⟨none, own⟩ := condition
    have gone : ∀ fd callback, (d.destructor server order).loop.callbacks.lookup fd = some callback ↔
        ¬ server.Registers callback ∧ d.loop.callbacks.lookup fd = some callback := by
      intro fd callback
      refine (callbacks fd callback).trans (and_congr_left fun found => not_congr ?_)
      refine and_iff_left_of_imp fun registers e => ?_
      subst e
      cases callback with
      | acceptClients => rfl
      | signal | networkTimer => cases registers
      | session server' fd' =>
        cases registers
        obtain ⟨-, owned, here⟩ := (both.1.callback _ _).mp found
        rw [none rfl] at here
        cases here
    refine ⟨gone, ?_, ?_⟩
    · intro id ref
      refine (handlers id ref).trans (and_congr_left fun stored => not_congr ?_)
      exact own id ref stored
    · intro fd events callback loop closed added
      obtain ⟨-, rfl⟩ := EventLoop.addFd_returned.mp added
      refine UnorderedMap.lookup_emplace_self fun mem => closed ?_
      obtain ⟨other, found⟩ := UnorderedMap.mem_iff_lookup.mp mem
      obtain ⟨foreign, was⟩ := (gone fd other).mp found
      refine openFds fd (both.1.isOpen fd (UnorderedMap.mem_iff_lookup.mpr ⟨other, was⟩)) ?_
      intro callback' found'
      rw [was] at found'
      cases found'
      exact foreign

/-- Ids are held by the sessions they were given to, before the counter wraps. -/
lemma Subscribed.holdsOwn {d : Daemon σ} (s : Subscribed d) (bound : d.allocated < 2 ^ 64)
    (server : Server) : HoldsOwn server d := by
  intro id ref stored
  obtain ⟨e, alive⟩ := (s.handlers bound id ref).mp stored
  refine ⟨?_, ?_⟩
  · intro holds
    obtain ⟨-, fd, owned, here, e'⟩ := holds
    obtain ⟨subscription, -⟩ := s.subscription server fd owned here
    have own := (s.handlers bound id ⟨server, owned.addr⟩).mpr
      ⟨by rw [← e', subscription], fd, owned, here, rfl⟩
    rw [stored] at own
    cases own
    exact ⟨rfl, fd, owned, here, rfl⟩
  · intro own
    obtain ⟨rfl, fd, owned, here, addr⟩ := own
    obtain ⟨subscription, -⟩ := s.subscription _ fd owned here
    have id_eq : owned.session.subscription.id = id := by rw [subscription, e, addr]
    exact ⟨id_eq ▸ s.id_ne_zero bound here, fd, owned, here, id_eq⟩

end

/-- In every reachable state, the destructor of a server leaves nothing behind in the event loop and on the
bus exactly if it is not the QMI server with live sessions, and the handlers under the ids of the server's
sessions are those of these sessions. The latter is so as long as fewer than 2^64 sessions have been
created. -/
theorem leavesNothing_iff {σ : Type*} (M : MiniModem.Modem σ) (fds : Descriptors) (modem : σ)
    (opened : fds.listenFd ≠ -1) (steps : List Step) (d : Daemon σ)
    (run : (system M).exec (boot fds modem) steps = some d) (server : Server) (order : SessionOrder) :
    (LeavesNothing server d (d.destructor server order) ↔
        (server = .qmiServer → ∀ fd, d.session? .qmiServer fd = none) ∧ HoldsOwn server d) ∧
      (d.allocated < 2 ^ 64 → HoldsOwn server d) := by
  have both := reachable_subscribed run
  have fixed := (System.invariant (fun _ _ _ holds step => (kept_fixed _).step holds step)
    ⟨boot_watched fds modem, rfl⟩ run).2
  simp only [Prod.mk.injEq] at fixed
  have opened' : d.listenFd ≠ -1 := by
    rw [fixed.2.1]
    exact opened
  exact ⟨leavesNothing_spec both opened' server order, fun bound => both.2.holdsOwn bound server⟩

/-- The destructor of the AT server leaves nothing of its session behind. -/
theorem leavesNothing_atServer :
    ∃ d, (system sampleModem).exec (boot sampleDescriptors false) twoSessions = some d ∧
      LeavesNothing .atServer d (d.destructor .atServer .entries) := by
  have run : ∃ d, (system sampleModem).exec (boot sampleDescriptors false) twoSessions = some d ∧
      d.allocated < 2 ^ 64 := ⟨_, rfl, by decide⟩
  obtain ⟨d, run, bound⟩ := run
  obtain ⟨leaves, own⟩ := leavesNothing_iff sampleModem sampleDescriptors false (by decide) twoSessions d
    run .atServer .entries
  exact ⟨d, run, leaves.mpr ⟨by simp, own bound⟩⟩

/-- That of the QMI server leaves the callback of its session behind, and the next owner of the descriptor
does not get its own. -/
theorem callback_left :
    ∃ d loop, (system sampleModem).exec (boot sampleDescriptors false) twoSessions = some d ∧
      ¬ LeavesNothing .qmiServer d (d.destructor .qmiServer .entries) ∧
      8 ∉ (d.destructor .qmiServer .entries).openFds ∧
      (d.destructor .qmiServer .entries).loop.addFd true 8 EPOLLIN .networkTimer = .returned loop ∧
      loop.callbacks.lookup 8 = some (.session .qmiServer 8) := by
  have run : ∃ d loop, (system sampleModem).exec (boot sampleDescriptors false) twoSessions = some d ∧
      8 ∉ (d.destructor .qmiServer .entries).openFds ∧
      (d.destructor .qmiServer .entries).loop.addFd true 8 EPOLLIN .networkTimer = .returned loop ∧
      loop.callbacks.lookup 8 = some (.session .qmiServer 8) := ⟨_, _, rfl, by decide, rfl, rfl⟩
  obtain ⟨d, loop, run, closed, added, found⟩ := run
  refine ⟨d, loop, run, fun leaves => ?_, closed, added, found⟩
  have own := leaves.recycled 8 EPOLLIN .networkTimer loop closed added
  rw [found] at own
  cases own

end MiniModem.Daemon
