import MiniModem.Daemon.Sessions

/-!
# Hang-ups

A session is registered for EPOLLHUP and EPOLLERR, and its `onReadable` and `onWritable` report a session
as dead when they see one of them. The servers call these only for EPOLLIN and EPOLLOUT. So a hang-up
ends its session exactly if it is delivered together with one of these two (`hangUp_removes_iff`).
-/

namespace MiniModem.Transport

/-- One of several flags is set. -/
lemma has_or (events flags flags' : Events) :
    has events (flags ||| flags') = (has events flags || has events flags') := by
  have split : events &&& (flags ||| flags') = events &&& flags ||| events &&& flags' :=
    UInt32.toBitVec_inj.mp BitVec.and_or_distrib_left
  rw [Bool.eq_iff_iff]
  simp only [has, split, bne_iff_ne, ne_eq, UInt32.or_eq_zero_iff, Bool.or_eq_true]
  tauto

end MiniModem.Transport

namespace MiniModem.Daemon
open Lib Transport Modem

variable {σ : Type*} {M : MiniModem.Modem σ}

/-- The daemon has let go of a session that it had under the descriptor. -/
structure Released {server : Server} (fd : Fd) (owned : Owned server) (d : Daemon σ) : Prop where
  sessions : ∀ server, d.session? server fd = none
  callbacks : fd ∉ d.loop.callbacks
  interest : fd ∉ d.loop.epoll.interest
  subscription : ∀ id, d.eventBus.handlers.lookup id ≠ some ⟨server, owned.addr⟩

/-- If the bus has the handler of the session, the destructor of its subscription removes a handler. -/
def Unsubscribes {server : Server} (owned : Owned server) (d : Daemon σ) : Prop :=
  (∃ id, d.eventBus.handlers.lookup id = some ⟨server, owned.addr⟩) →
    owned.session.subscription.id ≠ 0

/-- A handler is stored under the id that its session got, also after the counter has wrapped. -/
def Filed (d : Daemon σ) : Prop :=
  ∀ id ref, d.eventBus.handlers.lookup id = some ref → id = UInt64.ofNat (ref.addr + 1)

/-- Every operation keeps the handlers under the ids of their sessions. -/
lemma kept_filed : Kept fun d : Daemon σ => (Watched d ∧ Subscribed d) ∧ Filed d := by
  refine kept_subscribed.and ?_ ?_ ?_ ?_ ?_
  · intro d d' _ filed same
    rw [Filed, same.eventBus]
    exact filed
  · intro server fd d d' both filed _ c id ref e
    rw [c.eventBus] at e
    by_cases taken : d.eventBus.nextId ∈ d.eventBus.handlers
    · exact filed id ref (by rwa [EventBus.subscribe, UnorderedMap.emplace_of_mem taken] at e)
    · rcases (UnorderedMap.lookup_emplace_iff taken).mp e with ⟨rfl, rfl⟩ | e
      · exact both.2.counter
      · exact filed id ref e
  · intro server fd owned d d' _ filed _ r id ref e
    rw [r.eventBus, Subscription.reset] at e
    split at e
    · exact filed id ref (UnorderedMap.lookup_erase_iff.mp e).2
    · exact filed id ref e
  · intro d interest filed
    exact filed
  · intro d filed
    exact filed

/-- Everything that is known of the registrations, in every reachable state. -/
lemma reachable_filed {fds : Descriptors} {modem : σ} {steps : List Step} {d : Daemon σ}
    (run : (system M).exec (boot fds modem) steps = some d) :
    (Watched d ∧ Subscribed d) ∧ Filed d := by
  refine System.invariant (fun _ _ _ holds step => kept_filed.step holds step) ?_ run
  refine ⟨⟨boot_watched fds modem, boot_subscribed fds modem⟩, ?_⟩
  intro id ref e
  cases e

/-- A removed session has no handler left exactly if its subscription has an id to unsubscribe. -/
lemma Removed.released_iff {d d' : Daemon σ} {server : Server} {fd : Fd} {owned : Owned server}
    (s : Subscribed d) (filed : Filed d) (w' : Watched d') (here : d.session? server fd = some owned)
    (r : Removed server fd owned d d') : Released fd owned d' ↔ Unsubscribes owned d := by
  obtain ⟨subscription, -⟩ := s.subscription server fd owned here
  have bus : owned.session.subscription.bus ≠ none := by simp [subscription]
  have gone : fd ∉ d'.loop.callbacks := by
    rw [r.callbacks, AList.mem_erase]
    simp
  refine ⟨?_, ?_⟩
  · intro released stored zero
    obtain ⟨id, e⟩ := stored
    apply released.subscription id
    rw [r.eventBus, lookup_reset bus]
    exact ⟨by simp [zero], e⟩
  · intro unsubscribes
    refine ⟨?_, gone, fun there => gone ((w'.interest fd).mp there), ?_⟩
    · intro server'
      rcases there : d'.session? server' fd with _ | other
      · rfl
      · exact absurd ((w'.interest fd).mp (w'.watched there)) gone
    · intro id e
      rw [r.eventBus, lookup_reset bus] at e
      obtain ⟨other, e⟩ := e
      refine other ⟨?_, unsubscribes ⟨id, e⟩⟩
      rw [filed id _ e, subscription]

/-- The session does not look at its input or output after a hang-up; it stays as it is, and whether it
is dead is only noticed with EPOLLIN or EPOLLOUT. -/
lemma serve_hangUp {d : Daemon σ} {server : Server} {fd : Fd} {owned : Owned server}
    (here : d.session? server fd = some owned) {events : Events} (env : Environment)
    (hangUp : has events (EPOLLHUP ||| EPOLLERR) = true) :
    (d.serve M server fd events env owned).1 = !has events (EPOLLIN ||| EPOLLOUT) ∧
      (d.serve M server fd events env owned).2.modem = d.modem ∧
      (d.serve M server fd events env owned).2.session? server fd = some owned := by
  have written : owned.onWritable events env.writes = (!has events EPOLLOUT, owned) := by
    rw [Owned.onWritable]
    split
    · next out => simp [Session.onWritable, hangUp, out]
    · next out => simp [out]
  have same : (d.modifySession server fd fun _ => owned).session? server fd = some owned := by
    rw [session?_modifySession_self, here]
    rfl
  rw [serve_eq, written, has_or]
  simp only
  split
  · next readable =>
    rw [Bool.and_eq_true] at readable
    rw [readable.2]
    cases server with
    | atServer =>
      have nothing : At.onReadable (handleLine M env.order fd) events env.reads owned.session.input
          (d.modifySession .atServer fd fun _ => owned) =
            (false, owned.session.input, d.modifySession .atServer fd fun _ => owned) := by
        rw [At.onReadable, Modem.onReadable, if_pos hangUp]
      simp only [onReadable, nothing]
      refine ⟨rfl, rfl, ?_⟩
      rw [session?_modifySession_self, same]
      rfl
    | qmiServer =>
      have nothing : Qmi.Session.onReadable M d.modem events env.reads owned.session =
          (false, owned.session) := by
        rw [Qmi.Session.onReadable, Modem.onReadable, if_pos hangUp]
      rw [onReadable_qmi]
      have nothing' : Qmi.Session.onReadable M (d.modifySession .qmiServer fd fun _ => owned).modem
          events env.reads owned.session = (false, owned.session) := nothing
      rw [nothing']
      refine ⟨rfl, rfl, ?_⟩
      rw [session?_modifySession_self, same]
      rfl
  · next unreadable =>
    refine ⟨?_, rfl, same⟩
    rw [Bool.and_eq_true, not_and] at unreadable
    by_cases out : has events EPOLLOUT = true
    · simp [out]
    · rw [Bool.not_eq_true] at out
      have unreadable := unreadable (by simp [out])
      rw [Bool.not_eq_true] at unreadable
      rw [out, unreadable]
      rfl

/-- The callback of a session after a hang-up, if it returns: the session is removed as it is, or it is
still there. -/
lemma handleClient_hangUp {d d' : Daemon σ} (w : Watched d) {server : Server} {fd : Fd}
    {owned : Owned server} (here : d.session? server fd = some owned) {events : Events}
    {env : Environment} (hangUp : has events (EPOLLHUP ||| EPOLLERR) = true)
    (run : d.handleClient M server fd events env = .returned d') :
    ∃ between, SameFrame d between ∧ between.modem = d.modem ∧
      between.session? server fd = some owned ∧
      ((has events (EPOLLIN ||| EPOLLOUT) = true ∧ Removed server fd owned between d' ∧
          d'.modem = d.modem) ∨
        (has events (EPOLLIN ||| EPOLLOUT) = false ∧ d'.session? server fd = some owned)) := by
  obtain ⟨alive, modem, there⟩ := serve_hangUp (M := M) here env hangUp
  refine ⟨(d.serve M server fd events env owned).2, (serves_serve here events env).frame, modem, there,
    ?_⟩
  obtain ⟨last, there', -, modem', ended⟩ := handleClient_inv w here run
  rw [there] at there'
  cases there'
  rcases ended with ⟨dead, r⟩ | ⟨lives, rfl⟩
  · exact .inl ⟨by simpa [alive] using dead, r, modem'.trans modem⟩
  · exact .inr ⟨by simpa [alive] using lives, there⟩

/-- After the callback of a hang-up the descriptor of the session is in no container, and its handler has
left the bus, exactly if the hang-up is delivered with EPOLLIN or EPOLLOUT and the subscription has an
id to unsubscribe. The latter is so as long as fewer than 2^64 sessions have been created. -/
theorem hangUp_removes_iff (M : MiniModem.Modem σ) (fds : Descriptors) (modem : σ) (steps : List Step)
    (d d' : Daemon σ) (run : (system M).exec (boot fds modem) steps = some d) (server : Server) (fd : Fd)
    (owned : Owned server) (here : d.session? server fd = some owned) (events : Events)
    (env : Environment) (hangUp : has events (EPOLLHUP ||| EPOLLERR) = true)
    (next : (system M).step d (.deliver fd events env) = some d') :
    (Released fd owned d' ↔ has events (EPOLLIN ||| EPOLLOUT) = true ∧ Unsubscribes owned d) ∧
      (d.allocated < 2 ^ 64 → Unsubscribes owned d) := by
  have known := reachable_filed run
  obtain ⟨⟨w, s⟩, filed⟩ := known
  refine ⟨?_, fun bound _ => s.id_ne_zero bound here⟩
  have w' := kept_watched.step w next
  obtain ⟨between, same, -, there, removal⟩ := handleClient_hangUp w here hangUp (w.served here next)
  rcases removal with ⟨noticed, r, -⟩ | ⟨unnoticed, still⟩
  · obtain ⟨⟨-, s'⟩, filed'⟩ := kept_filed.same d between ⟨⟨w, s⟩, filed⟩ same
    rw [r.released_iff s' filed' w' there, and_iff_right noticed, Unsubscribes, Unsubscribes,
      same.eventBus]
  · refine ⟨?_, ?_⟩
    · intro released
      rw [released.sessions server] at still
      cases still
    · intro both
      rw [unnoticed] at both
      cases both.1

/-- A client connects. -/
def connected : List Step := [.deliver 6 EPOLLIN { accepts := [.client 7 true] }]

/-- With EPOLLIN its hang-up is noticed. -/
theorem hangUp_removes_readable :
    ∃ d d' owned, (system sampleModem).exec (boot sampleDescriptors false) connected = some d ∧
      d.session? .qmiServer 7 = some owned ∧
      (system sampleModem).step d (.deliver 7 (EPOLLIN ||| EPOLLHUP) {}) = some d' ∧
      Released 7 owned d' := by
  obtain ⟨released, unsubscribes⟩ :=
    hangUp_removes_iff sampleModem sampleDescriptors false connected _ _ rfl .qmiServer 7 _ rfl
      (EPOLLIN ||| EPOLLHUP) {} (by decide) rfl
  exact ⟨_, _, _, rfl, rfl, rfl, released.mpr ⟨by decide, unsubscribes (by decide)⟩⟩

/-- The process has an AT session, and nobody has opened the slave of its PTY. -/
def listening : List Step := [.createPty (some (7, 8)) true]

/-- Without it the session stays, and so does its registration. The master of a PTY reports EPOLLHUP alone as
long as nobody has the slave open. -/
theorem hangUp_ignored :
    ∃ d d' owned, (system sampleModem).exec (boot sampleDescriptors false) listening = some d ∧
      d.session? .atServer 7 = some owned ∧
      (system sampleModem).step d (.deliver 7 EPOLLHUP {}) = some d' ∧
      7 ∈ d'.loop.epoll.interest ∧ ¬ Released 7 owned d' := by
  refine ⟨_, _, _, rfl, rfl, rfl, by decide, fun released => ?_⟩
  cases released.sessions .atServer

end MiniModem.Daemon
