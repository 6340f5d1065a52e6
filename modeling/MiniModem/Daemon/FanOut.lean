import MiniModem.Daemon.Isolation
import MiniModem.Qmi.SessionOutput

/-!
# Fan-out of an event

One `publish` to the sessions there are. Calls of handlers commute, so the order in which the bus iterates
over them does not matter (`publish_order`). Below the bound on subscriptions each session has one handler
and each handler is that of a session, so every session queues its news once (`always_fansOut`). A session
that got the id of another one has no handler and hears nothing (`registration_unheard`).
-/

namespace MiniModem.Daemon
open Lib Transport Modem

variable {σ : Type*} {M : MiniModem.Modem σ}

/-- Events of all other kinds change nothing. -/
lemma onEvent_ignored (ref : SessionRef) {event : ModemEvent} (other : event.type ≠ .NetworkRegistered)
    (d : Daemon σ) : d.onEvent ref event = d := by
  rw [onEvent, UnorderedMap.mapValues_eq_self]
  · rw [setSessions, Function.update_eq_self]
  · intro owned
    rw [Server.onEvent_eq, if_neg other, ite_self]

/-- Two handlers can be called in either order. -/
lemma onEvent_comm (ref ref' : SessionRef) (event : ModemEvent) (d : Daemon σ) :
    (d.onEvent ref event).onEvent ref' event = (d.onEvent ref' event).onEvent ref event := by
  obtain ⟨server, addr⟩ := ref
  obtain ⟨server', addr'⟩ := ref'
  rcases eq_or_ne server server' with rfl | ne
  · simp only [onEvent, setSessions, Function.update_self, Function.update_idem,
      UnorderedMap.mapValues_mapValues]
    congr 3
    funext owned
    -- no object is reached through two different pointers
    rcases eq_or_ne addr addr' with rfl | ne
    · rfl
    · by_cases this : owned.addr = addr
      · simp only [this, if_pos, if_neg ne]
      · simp only [if_neg this]
        split
        · rfl
        · rfl
  · simp only [onEvent, setSessions, Function.update_of_ne ne, Function.update_of_ne ne.symm]
    rw [Function.update_comm ne]

/-- The order of the iteration does not matter. -/
lemma publish_order (order order' : IterationOrder) (event : ModemEvent) (d : Daemon σ) :
    d.publish order event = d.publish order' event := by
  rw [publish_eq_foldl, publish_eq_foldl]
  have perm : (d.eventBus.subscribers order).Perm (d.eventBus.subscribers order') :=
    ((order.perm _).trans (order'.perm _).symm).filterMap _
  exact perm.foldl_eq' (fun ref _ ref' _ d => onEvent_comm ref ref' event d) d

/-- An event that is no registration changes nothing. -/
lemma publish_ignored (order : IterationOrder) {event : ModemEvent}
    (other : event.type ≠ .NetworkRegistered) (d : Daemon σ) : d.publish order event = d := by
  rw [publish_eq_foldl]
  induction d.eventBus.subscribers order with
  | nil => rfl
  | cons ref refs ih => rw [List.foldl_cons, onEvent_ignored ref other, ih]

/-- The session has so many more bytes to write, and is otherwise the same. -/
structure Queued {server : Server} (data : Bytes) (owned owned' : Owned server) : Prop where
  pending : owned'.session.outbox.pending = owned.session.outbox.pending ++ data
  same : owned' = { owned with session := { owned.session with outbox := owned'.session.outbox } }

/-- What one `publish` does. At a registration every AT session queues the line with the operator code, and
every QMI session one frame, which decodes to the indication; other events change nothing. The handlers
called are those of live sessions, in an order that does not matter. -/
structure FansOut (event : ModemEvent) (d : Daemon σ) : Prop where
  atSessions : event.type = .NetworkRegistered → ∀ order fd owned, d.session? .atServer fd = some owned →
    ∃ owned', (d.publish order event).session? .atServer fd = some owned' ∧
      Queued (At.Session.copsPrefix ++ event.operatorCode ++ At.Session.copsSuffix) owned owned'
  qmiSessions : event.type = .NetworkRegistered → ∀ order fd owned,
    d.session? .qmiServer fd = some owned →
      ∃ owned' frame, (d.publish order event).session? .qmiServer fd = some owned' ∧
        Qmi.ValidFrame frame Qmi.Session.indication.filled ∧ Queued frame owned owned'
  others : event.type ≠ .NetworkRegistered → ∀ order, d.publish order event = d
  ordered : ∀ order order', d.publish order event = d.publish order' event
  live : ∀ order, ∀ ref ∈ d.eventBus.subscribers order, d.Live ref
  frame : ∀ order, SameFrame d (d.publish order event)

/-- The indication is a valid frame. -/
lemma validFrame_indication :
    Qmi.ValidFrame (Qmi.encodeMessage Qmi.Session.indication) Qmi.Session.indication.filled := by
  rw [Qmi.validFrame_iff]
  exact ⟨Qmi.Message.filled_wellSized (by decide), (Qmi.encodeMessage_filled _).symm⟩

/-- Below the bound every session hears of a registration once. -/
lemma Subscribed.queued {d : Daemon σ} (s : Subscribed d) (bound : d.allocated < 2 ^ 64)
    {event : ModemEvent} (registers : event.type = .NetworkRegistered) (order : IterationOrder)
    {server : Server} {fd : Fd} {owned : Owned server} (here : d.session? server fd = some owned) :
    ∃ owned', (d.publish order event).session? server fd = some owned' ∧
      Queued (server.registrationBytes event) owned owned' := by
  refine ⟨{ owned with session := owned.session.queue (server.registrationBytes event) }, ?_,
    Outbox.pending_push _ _, rfl⟩
  simp only [session?_publish, here, Option.map_some, s.reach_eq_one bound here, Owned.hear,
    List.foldl_cons, List.foldl_nil, Function.iterate_one, Server.onEvent_eq, if_pos registers]

/-- Where the subscriptions are in order an event reaches all sessions. -/
lemma Subscribed.fansOut {d : Daemon σ} (s : Subscribed d) (bound : d.allocated < 2 ^ 64)
    (event : ModemEvent) : FansOut event d where
  atSessions registers order _ _ here := s.queued bound registers order here
  qmiSessions registers order _ _ here := by
    obtain ⟨owned', there, queued⟩ := s.queued bound registers order here
    exact ⟨owned', _, there, validFrame_indication, queued⟩
  others other order := publish_ignored order other d
  ordered order order' := publish_order order order' event d
  live order ref called := by
    obtain ⟨id, e⟩ := EventBus.mem_subscribers.mp called
    exact ((s.handlers bound id ref).mp e).2
  frame order := SameFrame.publish order event d

/-- In every run an event reaches the sessions there are between two callbacks, and likewise within one,
when their inputs and outputs have changed; as long as fewer than 2^64 sessions have been created. -/
theorem always_fansOut (M : MiniModem.Modem σ) (fds : Descriptors) (modem : σ) (steps : List Step) :
    (system M).Always (fun d => d.allocated < 2 ^ 64 → ∀ d' event, SameFrame d d' → FansOut event d')
      (boot fds modem) steps := by
  intro before _ d run bound d' event same
  have s := (reachable_subscribed run).2.of_same same
  exact s.fansOut (same.allocated ▸ bound) event

/-- After 2^64 - 1 guests the session of the next client queues nothing when a registration is published. -/
theorem registration_unheard :
    ∃ steps d owned, (system sampleModem).exec (boot sampleDescriptors false) steps = some d ∧
      d.session? .qmiServer 8 = some owned ∧
      (d.publish .entries { type := .NetworkRegistered }).session? .qmiServer 8 = some owned ∧
      ¬ FansOut { type := .NetworkRegistered } d := by
  obtain ⟨d, between, run, visited, first, c, unheard⟩ := exec_unheard
  have missed : (between.publish .entries { type := .NetworkRegistered }).session? .qmiServer 8 =
      some (d.newSession .qmiServer 8) := by
    rw [session?_publish, c.here, Option.map_some, unheard]
    rfl
  refine ⟨guests (2 ^ 64 - 1) ++ [.deliver d.listenFd EPOLLIN { accepts := [.client 8 true] }], between,
    d.newSession .qmiServer 8, ?_, c.here, missed, fun fansOut => ?_⟩
  · rw [System.exec_append, run]
    exact ((system sampleModem).exec_cons_eq_some).mpr ⟨between, first, rfl⟩
  · obtain ⟨owned', frame, there, valid, queued⟩ := fansOut.qmiSessions rfl .entries 8 _ c.here
    rw [missed, Option.some.injEq] at there
    have pending := queued.pending
    rw [← there, List.self_eq_append_right] at pending
    -- no frame is empty
    have header := valid.1.1
    rw [pending] at header
    exact absurd header (by decide)

end MiniModem.Daemon
