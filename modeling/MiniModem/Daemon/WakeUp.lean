import MiniModem.Daemon.Consistency

/-!
# Wake-ups for pending output

A session with pending output must be registered for EPOLLOUT, or nobody writes it. The servers see to
this at the end of the callback of a session, for that session. The handlers of the event bus queue
output too, in the callback of another descriptor, and nobody updates the events then. `step_spec` says
for each session and each step which of the two it is. So no wake-up is lost exactly in the runs in
which every registration finds the other sessions with output pending already
(`noLostWakeup_iff`). In the other direction nothing goes wrong: whatever empties an outbox, the events
are updated before the callback ends (`no_idle_wakeup`).
-/

namespace MiniModem.Daemon
open Lib Transport Modem

variable {σ : Type*} {M : MiniModem.Modem σ}

/-- Every session with pending output is registered for EPOLLOUT. -/
def NoLostWakeup (d : Daemon σ) : Prop :=
  ∀ server fd owned, d.session? server fd = some owned → owned.session.hasPendingOutput = true →
    ∃ events, d.loop.epoll.interest.lookup owned.session.fd = some events ∧
      has events EPOLLOUT = true

/-- Every session that is registered for EPOLLOUT has pending output. -/
def NoIdleWakeup (d : Daemon σ) : Prop :=
  ∀ server fd owned events, d.session? server fd = some owned →
    d.loop.epoll.interest.lookup fd = some events → has events EPOLLOUT = true →
      owned.session.hasPendingOutput = true

/-- The descriptor that a step delivers an event for. -/
def Step.target : Step → Option Fd
  | createPty _ _ => none
  | deliver fd _ _ => some fd
  | publish _ _ => none

/-- The iteration order of the bus in a step. -/
def Step.order : Step → IterationOrder
  | createPty _ _ => .entries
  | deliver _ _ env => env.order
  | publish order _ => order

/-- The events that are published in a step. -/
def published (M : MiniModem.Modem σ) (d : Daemon σ) : Step → List ModemEvent
  | .createPty _ _ => []
  | .deliver fd events env =>
    match d.loop.callbacks.lookup fd with
    | some .networkTimer =>
      if !has events EPOLLIN then [] else (M.networkSearchComplete d.modem).2.2
    | some (.session server fd) =>
      match d.session? server fd with
      | none => []
      | some owned => publishedServing M server events env owned d
    | _ => []
  | .publish _ event => [event]

/-- If the step publishes a registration, every subscribed session other than the one whose callback
it is has output pending already. -/
def Attended (M : MiniModem.Modem σ) (d : Daemon σ) (step : Step) : Prop :=
  (∃ event ∈ published M d step, event.type = .NetworkRegistered) →
    ∀ server fd owned, d.session? server fd = some owned → step.target ≠ some fd →
      (∃ id, d.eventBus.handlers.lookup id = some ⟨server, owned.addr⟩) →
        owned.session.hasPendingOutput = true

/-- The session under a descriptor, if there is one, is registered for what it needs. -/
def Tracked (d : Daemon σ) (server : Server) (fd : Fd) : Prop :=
  ∀ owned, d.session? server fd = some owned →
    d.loop.epoll.interest.lookup fd = some (eventsFor owned)

/-- The session under a descriptor only hears the events of the step. -/
def Heard (M : MiniModem.Modem σ) (d : Daemon σ) (step : Step) (d' : Daemon σ) (server : Server)
    (fd : Fd) : Prop :=
  d'.session? server fd =
      (d.session? server fd).map (fun owned =>
        owned.hear (d.reach step.order ⟨server, owned.addr⟩) (published M d step)) ∧
    d'.loop.epoll.interest.lookup fd = d.loop.epoll.interest.lookup fd

/-- EPOLLOUT is asked for exactly if there is something left to send. -/
lemma eventsFor_out {server : Server} (owned : Owned server) :
    has (eventsFor owned) EPOLLOUT = owned.session.hasPendingOutput := by
  rw [eventsFor]
  split
  · next pending => rw [pending, has_sessionEvents_or]
  · next idle =>
    rw [Bool.not_eq_true] at idle
    rw [idle, has_sessionEvents]

/-- There is nothing to track without a session. -/
lemma tracked_of_none {d : Daemon σ} {server : Server} {fd : Fd}
    (none : d.session? server fd = none) : Tracked d server fd := by
  intro owned here
  rw [none] at here
  cases here

/-- Where sessions are created: under a descriptor nothing changes, or there is a new session. -/
def Settled (d d' : Daemon σ) (server : Server) (fd : Fd) : Prop :=
  (d'.session? server fd = d.session? server fd ∧
      d'.loop.epoll.interest.lookup fd = d.loop.epoll.interest.lookup fd) ∨
    (Tracked d' server fd ∧ d.session? server fd = none)

/-- What has not changed is settled. -/
lemma Settled.refl (d : Daemon σ) (server : Server) (fd : Fd) : Settled d d server fd :=
  .inl ⟨rfl, rfl⟩

/-- Two changes that settle a session settle it. -/
lemma Settled.trans {d d' d'' : Daemon σ} {server : Server} {fd : Fd}
    (first : Settled d d' server fd) (second : Settled d' d'' server fd) :
    Settled d d'' server fd := by
  rcases second with ⟨same', interest'⟩ | ⟨tracked', none'⟩
  · rcases first with ⟨same, interest⟩ | ⟨tracked, none⟩
    · exact .inl ⟨same'.trans same, interest'.trans interest⟩
    · refine .inr ⟨?_, none⟩
      intro owned here
      rw [same'] at here
      rw [interest']
      exact tracked owned here
  · rcases first with ⟨same, -⟩ | ⟨-, none⟩
    · exact .inr ⟨tracked', same.symm.trans none'⟩
    · exact .inr ⟨tracked', none⟩

/-- A new session has nothing to send. -/
lemma Created.settled {d d' : Daemon σ} {server : Server} {fd : Fd} (w : Watched d)
    (new : fd ∉ d.openFds) (c : Created server fd d d') (server' : Server) (fd' : Fd) :
    Settled d d' server' fd' := by
  rcases eq_or_ne fd' fd with rfl | ne
  · refine .inr ⟨?_, w.none_of_not_open new server'⟩
    rcases eq_or_ne server' server with rfl | ne
    · intro owned here
      rw [c.here] at here
      cases here
      rw [c.interest, AList.lookup_insert]
      rfl
    · apply tracked_of_none
      rw [c.others server' fd' (.inl ne)]
      exact w.none_of_not_open new server'
  · refine .inl ⟨c.others server' fd' (.inr ne), ?_⟩
    rw [c.interest, AList.lookup_insert_ne ne]

/-- Nor have the clients that are accepted. -/
lemma acceptLoop_settled {accepts : List AcceptResult} {d d' : Daemon σ} (w : Watched d)
    (new : fresh d.openFds accepts = true) (run : acceptLoop accepts d = .returned d')
    (server : Server) (fd : Fd) : Settled d d' server fd := by
  refine (acceptLoop_rule (P := fun between => Watched between ∧ Settled d between server fd)
    (fun _ both => both.1) ?_ ⟨w, .refl d server fd⟩ new run).2
  intro fd' between after both new c
  exact ⟨both.1.of_created new c, both.2.trans (c.settled both.1 new server fd)⟩

/-- What the callback of a session does to each session. -/
lemma handleClient_spec {d d' : Daemon σ} (w : Watched d) {server : Server} {fd : Fd}
    {owned : Owned server} (here : d.session? server fd = some owned) {events : Events}
    {env : Environment} (run : d.handleClient M server fd events env = .returned d')
    (server' : Server) (fd' : Fd) :
    (fd' ≠ fd ∧
        d'.session? server' fd' =
          (d.session? server' fd').map (fun other =>
            other.hear (d.reach env.order ⟨server', other.addr⟩)
              (publishedServing M server events env owned d)) ∧
        d'.loop.epoll.interest.lookup fd' = d.loop.epoll.interest.lookup fd') ∨
      (fd' = fd ∧ Tracked d' server' fd') := by
  have served := serves_serve (M := M) here events env
  have w' := w.of_same served.frame
  obtain ⟨last, here', -, -, ended⟩ := handleClient_inv w here run
  -- the other server has no session under the descriptor
  have alone : ∀ server', server' ≠ server →
      (d.serve M server fd events env owned).2.session? server' fd = none := by
    intro server' ne
    rcases there : (d.serve M server fd events env owned).2.session? server' fd with _ | other
    · rfl
    · exact absurd (w'.server_unique here' there) ne
  rcases ended with ⟨-, r⟩ | ⟨-, rfl⟩
  · rcases eq_or_ne fd' fd with rfl | ne
    · refine .inr ⟨rfl, tracked_of_none ?_⟩
      rcases eq_or_ne server' server with rfl | ne
      · exact r.gone
      · rw [r.others server' fd' (.inl ne)]
        exact alone server' ne
    · refine .inl ⟨ne, ?_, ?_⟩
      · rw [r.others server' fd' (.inr ne), served.others server' fd' (.inr ne)]
      · rw [r.interest fd' ne, served.frame.loop]
  · rcases eq_or_ne fd' fd with rfl | ne
    · refine .inr ⟨rfl, ?_⟩
      rcases eq_or_ne server' server with rfl | ne
      · intro other there
        have same : some last = some other := here'.symm.trans there
        cases same
        exact AList.lookup_insert _
      · exact tracked_of_none (alone server' ne)
    · refine .inl ⟨ne, served.others server' fd' (.inr ne), ?_⟩
      rw [← served.frame.loop]
      exact AList.lookup_insert_ne ne

/-- A descriptor whose callback is not that of a session has no session. -/
lemma Watched.none_of_callback {d : Daemon σ} (w : Watched d) {fd : Fd} {callback : Option Callback}
    (found : d.loop.callbacks.lookup fd = callback)
    (other : ∀ server, callback ≠ some (.session server fd)) (server : Server) :
    d.session? server fd = none := by
  rcases here : d.session? server fd with _ | owned
  · rfl
  · exact absurd (found.symm.trans (w.registered here)) (other server)

/-- An event for a descriptor without a session, if no event is published. -/
lemma Settled.spec {d d' : Daemon σ} {fd : Fd} {events : Events} {env : Environment} {server : Server}
    {fd' : Fd} (settled : Settled d d' server fd') (free : d.session? server fd = none)
    (silent : published M d (.deliver fd events env) = []) :
    (Step.target (.deliver fd events env) ≠ some fd' ∧
        Heard M d (.deliver fd events env) d' server fd') ∨
      (Tracked d' server fd' ∧
        (Step.target (.deliver fd events env) = some fd' ∨ d.session? server fd' = none)) := by
  rcases settled with ⟨same, interest⟩ | ⟨tracked, none'⟩
  · rcases eq_or_ne fd' fd with rfl | ne
    · exact .inr ⟨tracked_of_none (same.trans free), .inl rfl⟩
    · refine .inl ⟨fun target => ne (Option.some.inj target).symm, ?_, interest⟩
      rw [silent, same]
      simp
  · exact .inr ⟨tracked, .inr none'⟩

/-- The callback of the timer only publishes. -/
lemma networkTimer_heard {d : Daemon σ} {fd : Fd} {events : Events} {env : Environment}
    (callback : d.loop.callbacks.lookup fd = some .networkTimer) (server : Server) (fd' : Fd) :
    Heard M d (.deliver fd events env) (d.networkTimer M events env.order) server fd' := by
  simp only [Heard, published, callback, networkTimer, Step.order]
  split
  · simp
  · refine ⟨?_, ?_⟩
    · rw [session?_publishAll]
      rfl
    · rw [(SameFrame.publishAll env.order _ _).loop]

/-- For each session, a step leaves its registration alone and lets it hear the events that are
published, or it is the callback of the session or creates it, and then the registration is right. -/
lemma step_spec {d d' : Daemon σ} {step : Step} (w : Watched d)
    (run : (system M).step d step = some d') (server : Server) (fd : Fd) :
    (step.target ≠ some fd ∧ Heard M d step d' server fd) ∨
      (Tracked d' server fd ∧ (step.target = some fd ∨ d.session? server fd = none)) := by
  cases step_effect run with
  | createPty new run =>
    have c := created (w.none_of_not_open new .atServer) run
    rcases c.settled w new server fd with ⟨same, interest⟩ | ⟨tracked, none⟩
    · refine .inl ⟨by simp [Step.target], ?_, interest⟩
      rw [same]
      simp [published]
    · exact .inr ⟨tracked, .inr none⟩
  | skipped callback =>
    have none := w.none_of_callback callback (by simp) server
    exact Settled.spec (.refl _ server fd) none (by simp [published, callback])
  | stopped callback =>
    have none := w.none_of_callback callback (by simp) server
    have settled : Settled d { d with loop := d.loop.stop } server fd := .inl ⟨rfl, rfl⟩
    exact settled.spec none (by simp [published, callback])
  | accepted callback new run =>
    have none := w.none_of_callback callback (by simp) server
    exact (acceptLoop_settled w new run server fd).spec none (by simp [published, callback])
  | @timer fd' events env callback =>
    have none := w.none_of_callback callback (by simp) server
    have heard : Heard M d (.deliver fd' events env) (d.networkTimer M events env.order) server fd :=
      networkTimer_heard callback server fd
    rcases eq_or_ne fd fd' with rfl | ne
    · refine .inr ⟨tracked_of_none ?_, .inl rfl⟩
      rw [heard.1, none]
      rfl
    · exact .inl ⟨fun target => ne (Option.some.inj target).symm, heard⟩
  | served callback handled =>
    obtain ⟨rfl, owned, here⟩ := (w.callback _ _).mp callback
    rcases handleClient_spec w here handled server fd with ⟨ne, heard, same⟩ | ⟨rfl, tracked⟩
    · refine .inl ⟨fun target => ne (Option.some.inj target).symm, ?_, same⟩
      simp only [published, callback, here]
      exact heard
    · exact .inr ⟨tracked, .inl rfl⟩
  | @published order event =>
    refine .inl ⟨by simp [Step.target], session?_publish order event d server fd, ?_⟩
    rw [(SameFrame.publish order event d).loop]

/-- Whether the events of a step give a session something to write. -/
lemma pending_heard {d : Daemon σ} {step : Step} {server : Server} (owned : Owned server) :
    (owned.hear (d.reach step.order ⟨server, owned.addr⟩) (published M d step)).session.hasPendingOutput
        = true ↔
      owned.session.hasPendingOutput = true ∨
        (∃ id, d.eventBus.handlers.lookup id = some ⟨server, owned.addr⟩) ∧
          ∃ event ∈ published M d step, event.type = .NetworkRegistered := by
  rw [pending_hear, reach, List.count_pos_iff, EventBus.mem_subscribers]

/-- A session that is registered for EPOLLOUT has something to write: an invariant. -/
lemma noIdleWakeup_step {d d' : Daemon σ} {step : Step} (w : Watched d) (idle : NoIdleWakeup d)
    (run : (system M).step d step = some d') : NoIdleWakeup d' := by
  intro server fd owned events here watched out
  rcases step_spec w run server fd with ⟨-, heard, same⟩ | ⟨tracked, -⟩
  · rw [here, eq_comm, Option.map_eq_some_iff] at heard
    obtain ⟨before, there, rfl⟩ := heard
    rw [same] at watched
    rw [pending_heard]
    exact .inl (idle server fd before events there watched out)
  · rw [tracked owned here, Option.some.injEq] at watched
    rw [← eventsFor_out, watched]
    exact out

/-- The two invariants together. -/
lemma idle_step {d d' : Daemon σ} {step : Step} (both : Watched d ∧ NoIdleWakeup d)
    (run : (system M).step d step = some d') : Watched d' ∧ NoIdleWakeup d' := by
  obtain ⟨w, idle⟩ := both
  exact ⟨kept_watched.step w run, noIdleWakeup_step w idle run⟩

/-- When the loop is entered nobody waits. -/
lemma boot_idle (fds : Descriptors) (modem : σ) :
    Watched (boot fds modem) ∧ NoIdleWakeup (boot fds modem) := by
  refine ⟨boot_watched fds modem, ?_⟩
  intro server fd owned events here
  cases here

/-- At no point between two callbacks is a session registered for EPOLLOUT that has nothing to write. -/
theorem no_idle_wakeup (M : MiniModem.Modem σ) (fds : Descriptors) (modem : σ) (steps : List Step) :
    (system M).Always NoIdleWakeup (boot fds modem) steps := by
  have always : (system M).Always (fun d => Watched d ∧ NoIdleWakeup d) (boot fds modem) steps :=
    System.always_of_step (fun _ _ _ both next => idle_step both next) (boot_idle fds modem) steps
  intro before sub d run
  exact (always before sub d run).2

/-- One step loses no wake-up exactly if it is attended. -/
lemma noLostWakeup_step {d d' : Daemon σ} {step : Step} (w : Watched d) (idle : NoIdleWakeup d)
    (awake : NoLostWakeup d) (run : (system M).step d step = some d') :
    NoLostWakeup d' ↔ Attended M d step := by
  have w' : Watched d' := kept_watched.step w run
  refine ⟨?_, ?_⟩
  · intro awake' registers server fd owned here other subscribed
    rcases step_spec w run server fd with ⟨-, heard, same⟩ | ⟨-, target | none⟩
    · -- the session has output pending afterwards, and is registered as it was
      rw [here, Option.map_some] at heard
      have pending := (pending_heard owned).mpr (.inr ⟨subscribed, registers⟩)
      obtain ⟨events, watched, out⟩ := awake' server fd _ heard pending
      rw [w'.own server fd _ heard, same] at watched
      exact idle server fd owned events here watched out
    · exact absurd target other
    · rw [none] at here
      cases here
  · intro attended server fd owned here pending
    rw [w'.own server fd owned here]
    rcases step_spec w run server fd with ⟨other, heard, same⟩ | ⟨tracked, -⟩
    · rw [here, eq_comm, Option.map_eq_some_iff] at heard
      obtain ⟨before, there, rfl⟩ := heard
      -- the session had output pending before, with or without the events of the step
      have pending' : before.session.hasPendingOutput = true := by
        rcases (pending_heard before).mp pending with pending' | ⟨subscribed, registers⟩
        · exact pending'
        · exact attended registers server fd before there other subscribed
      obtain ⟨events, watched, out⟩ := awake server fd before there pending'
      rw [w.own server fd before there] at watched
      exact ⟨events, same.trans watched, out⟩
    · exact ⟨eventsFor owned, tracked owned here, (eventsFor_out owned).trans pending⟩

/-- No wake-up for pending output is lost in a run, at any point between two callbacks, exactly if every
step of the run that publishes a registration finds every other subscribed session with output pending
already. -/
theorem noLostWakeup_iff (M : MiniModem.Modem σ) (fds : Descriptors) (modem : σ) (steps : List Step) :
    (system M).Always NoLostWakeup (boot fds modem) steps ↔
      (system M).Each (Attended M) (boot fds modem) steps := by
  refine System.always_iff_each (I := fun d => Watched d ∧ NoIdleWakeup d) ?_ ?_ ?_ ?_ steps
  · intro d step d' both run
    exact idle_step both run
  · intro d step d' both awake run
    obtain ⟨w, idle⟩ := both
    exact noLostWakeup_step w idle awake run
  · exact boot_idle fds modem
  · intro server fd owned here
    cases here

/-- A client connects, and the search for the network ends. -/
def registration : List Step :=
  [.createPty (some (7, 8)) true, .deliver 6 EPOLLIN { accepts := [.client 8 true] },
    .deliver 5 EPOLLIN {}]

/-- The sessions have the news to write, and nobody waits until they can. -/
theorem wakeup_lost :
    ∃ d, (system sampleModem).exec (boot sampleDescriptors false) registration = some d ∧
      ¬ NoLostWakeup d := by
  refine ⟨_, rfl, fun awake => ?_⟩
  obtain ⟨events, watched, out⟩ := awake .qmiServer 8 _ rfl rfl
  cases watched
  cases out

end MiniModem.Daemon
