import MiniModem.Daemon.Sessions

/-!
# Batches of events

`epoll_wait` reports events in batches, by descriptor. While a batch is worked off, the callbacks close
descriptors and accept clients, and the kernel may give a client a number that a later event of the batch
carries. Only the callback of a session closes its descriptor, and a batch has one event for it. So a
descriptor whose event is still to come keeps its callback and its session (`receiver?_step`), and every
event goes where it was meant to go when `epoll_wait` returned (`batches_delivered`).
-/

namespace MiniModem.Daemon
open Lib Transport Modem

/-- An event that `epoll_wait` reports, with what the kernel does in the course of its callback. -/
structure Event where
  fd : Fd
  events : Events
  env : Environment := {}

/-- Delivering the event. -/
def Event.step (event : Event) : Step := .deliver event.fd event.events event.env

/-- What receives an event: a callback, and the session that it finds if it is that of a session. -/
structure Receiver where
  callback : Callback
  session : Option SessionRef
  deriving DecidableEq, Repr

/-- A call of a callback. -/
structure Call where
  event : Event
  receiver : Receiver

section
variable {σ : Type*}

/-- The session that a callback finds. -/
def sessionRef? (d : Daemon σ) : Callback → Option SessionRef
  | .session server fd => (d.session? server fd).map fun owned => ⟨server, owned.addr⟩
  | _ => none

/-- What an event for a descriptor would be received by. -/
def receiver? (d : Daemon σ) (fd : Fd) : Option Receiver :=
  (d.loop.callbacks.lookup fd).map fun callback => ⟨callback, d.sessionRef? callback⟩

/-- `epoll_wait` reports descriptors of the interest list, each of them once. -/
structure Reported (d : Daemon σ) (batch : List Event) : Prop where
  watched : ∀ event ∈ batch, event.fd ∈ d.loop.epoll.interest
  once : (batch.map Event.fd).Nodup

instance (d : Daemon σ) (batch : List Event) : Decidable (Reported d batch) :=
  decidable_of_iff ((∀ event ∈ batch, event.fd ∈ d.loop.epoll.interest) ∧ (batch.map Event.fd).Nodup)
    ⟨fun both => ⟨both.1, both.2⟩, fun reported => ⟨reported.watched, reported.once⟩⟩

variable (M : MiniModem.Modem σ)

/-- The inner loop of `EventLoop::run`: the calls it makes, and the process afterwards. An event for a
descriptor without a callback is skipped. -/
def dispatch : List Event → Daemon σ → Option (List Call × Daemon σ)
  | [], d => some ([], d)
  | event :: batch, d =>
    ((system M).step d event.step).bind fun d' =>
      (dispatch batch d').map fun rest =>
        match d.receiver? event.fd with
        | none => rest
        | some receiver => (⟨event, receiver⟩ :: rest.1, rest.2)

/-- `EventLoop::run`: a step is a turn of the outer loop. There is none once the loop has been stopped,
or if a callback throws. -/
def eventLoop : System (Daemon σ) (List Event) where
  step d batch :=
    if d.loop.running = true ∧ Reported d batch then (dispatch M batch d).map Prod.snd else none

/-- The state in which `EventLoop::run` enters its loop. -/
def entered (d : Daemon σ) : Daemon σ := { d with loop := { d.loop with running := true } }

/-- An event is received by what it is meant for in the state `d`; if this is a session, it is there. -/
structure ReceivedAs (d : Daemon σ) (event : Event) (call : Call) : Prop where
  same : call.event = event
  receiver : d.receiver? event.fd = some call.receiver
  live : ∀ server fd, call.receiver.callback = .session server fd →
    ∃ ref, call.receiver.session = some ref ∧ d.Live ref

/-- The calls made for a batch that is reported in the state `d` correspond to its events, one by one. -/
def Delivered (d : Daemon σ) (batch : List Event) : Prop :=
  ∀ calls d', dispatch M batch d = some (calls, d') → List.Forall₂ (ReceivedAs d) batch calls

variable {M}

/-- Entering the loop leaves the registrations alone. -/
lemma Watched.entered {d : Daemon σ} (w : Watched d) : Watched d.entered :=
  ⟨w.interest, w.callback, w.own, w.isOpen⟩

/-- Something receives the event of a descriptor that is watched. -/
lemma Watched.receiver {d : Daemon σ} (w : Watched d) {fd : Fd}
    (watched : fd ∈ d.loop.epoll.interest) :
    ∃ receiver, d.receiver? fd = some receiver ∧
      ∀ server fd', receiver.callback = .session server fd' →
        ∃ ref, receiver.session = some ref ∧ d.Live ref := by
  obtain ⟨callback, found⟩ := UnorderedMap.mem_iff_lookup.mp ((w.interest fd).mp watched)
  refine ⟨⟨callback, d.sessionRef? callback⟩, by rw [receiver?, found]; rfl, ?_⟩
  intro server fd' e
  cases e
  obtain ⟨rfl, owned, here⟩ := (w.callback _ _).mp found
  exact ⟨⟨server, owned.addr⟩, by rw [sessionRef?, here]; rfl, fd', owned, here, rfl⟩

/-- What receives the events of a descriptor changes only in the callback of this descriptor. -/
lemma receiver?_step {d d' : Daemon σ} {step : Step} (w : Watched d)
    (run : (system M).step d step = some d') {fd : Fd} (other : step.target ≠ some fd)
    (watched : fd ∈ d.loop.epoll.interest) : d'.receiver? fd = d.receiver? fd := by
  have w' := kept_watched.step w run
  obtain ⟨signal, listen, timer⟩ := step_fixed w run
  obtain ⟨callback, found⟩ := UnorderedMap.mem_iff_lookup.mp ((w.interest fd).mp watched)
  have for_ := (w.callback fd callback).mp found
  have same : d'.CallbackFor fd callback ∧ d'.sessionRef? callback = d.sessionRef? callback := by
    cases callback with
    | signal => exact ⟨for_.trans signal.symm, rfl⟩
    | acceptClients => exact ⟨for_.trans listen.symm, rfl⟩
    | networkTimer => exact ⟨for_.trans timer.symm, rfl⟩
    | session server fd' =>
      obtain ⟨rfl, owned, here⟩ := for_
      rcases step_owned w run here with ⟨events, env, rfl, -⟩ | ⟨-, heard, -⟩
      · exact absurd rfl other
      · rw [here] at heard
        refine ⟨⟨rfl, _, heard⟩, ?_⟩
        rw [sessionRef?, sessionRef?, heard, here]
        rfl
  rw [receiver?, receiver?, found, (w'.callback fd callback).mpr same.1, Option.map_some,
    Option.map_some, same.2]

/-- The first event of a batch and the others. -/
lemma dispatch_cons {event : Event} {batch : List Event} {calls : List Call} {d d' : Daemon σ}
    (run : dispatch M (event :: batch) d = some (calls, d')) :
    ∃ between rest, (system M).step d event.step = some between ∧
      dispatch M batch between = some (rest, d') ∧
      ∀ receiver, d.receiver? event.fd = some receiver → calls = ⟨event, receiver⟩ :: rest := by
  rw [dispatch, Option.bind_eq_some_iff] at run
  obtain ⟨between, first, run⟩ := run
  rw [Option.map_eq_some_iff] at run
  obtain ⟨⟨rest, last⟩, more, e⟩ := run
  rcases found : d.receiver? event.fd with _ | receiver
  · rw [found] at e
    cases e
    exact ⟨between, _, first, more, fun _ some => by cases some⟩
  · rw [found] at e
    cases e
    exact ⟨between, rest, first, more, fun _ some => by cases some; rfl⟩

/-- The rest of a batch is received as it was to be in the state `d` in which it was reported. -/
lemma dispatch_received {d : Daemon σ} {batch : List Event} {calls : List Call}
    {between d' : Daemon σ} (w : Watched between) (reported : Reported between batch)
    (live : ∀ event ∈ batch, ∀ receiver, d.receiver? event.fd = some receiver →
      ∀ server fd, receiver.callback = .session server fd →
        ∃ ref, receiver.session = some ref ∧ d.Live ref)
    (same : ∀ event ∈ batch, between.receiver? event.fd = d.receiver? event.fd)
    (run : dispatch M batch between = some (calls, d')) : List.Forall₂ (ReceivedAs d) batch calls := by
  induction batch generalizing between calls with
  | nil =>
    cases run
    exact .nil
  | cons event batch ih =>
    obtain ⟨watched, once⟩ := reported
    rw [List.map_cons, List.nodup_cons] at once
    obtain ⟨receiver, found, -⟩ := w.receiver (watched event List.mem_cons_self)
    obtain ⟨after, rest, first, more, made⟩ := dispatch_cons run
    rw [made receiver found]
    have found' := (same event List.mem_cons_self).symm.trans found
    have w' := kept_watched.step w first
    -- the other descriptors of the batch keep what receives their events
    have keep : ∀ other ∈ batch, after.receiver? other.fd = between.receiver? other.fd := by
      intro other mem
      refine receiver?_step w first ?_ (watched other (List.mem_cons_of_mem _ mem))
      intro e
      apply once.1
      rw [Option.some.inj e]
      exact List.mem_map_of_mem mem
    refine .cons ⟨rfl, found', live event List.mem_cons_self receiver found'⟩ (ih w' ⟨?_, once.2⟩ ?_ ?_ more)
    · intro other mem
      obtain ⟨receiver', there, -⟩ := w.receiver (watched other (List.mem_cons_of_mem _ mem))
      rw [← keep other mem, receiver?, Option.map_eq_some_iff] at there
      obtain ⟨callback, there, -⟩ := there
      exact (w'.interest _).mpr (UnorderedMap.mem_iff_lookup.mpr ⟨callback, there⟩)
    · exact fun other mem => live other (List.mem_cons_of_mem _ mem)
    · intro other mem
      rw [keep other mem]
      exact same other (List.mem_cons_of_mem _ mem)

/-- In any state that is in order each event of a batch goes where it was meant to go. -/
lemma delivered {d : Daemon σ} (w : Watched d) {batch : List Event} (reported : Reported d batch) :
    Delivered M d batch := by
  intro calls d' run
  refine dispatch_received w reported ?_ (fun _ _ => rfl) run
  intro event mem receiver found
  obtain ⟨receiver', found', live⟩ := w.receiver (reported.watched event mem)
  rw [found] at found'
  cases found'
  exact live

/-- A batch leaves the registrations in order. -/
lemma dispatch_watched {d d' : Daemon σ} {batch : List Event} {calls : List Call} (w : Watched d)
    (run : dispatch M batch d = some (calls, d')) : Watched d' := by
  induction batch generalizing d calls with
  | nil =>
    cases run
    exact w
  | cons event batch ih =>
    obtain ⟨between, rest, first, more, -⟩ := dispatch_cons run
    exact ih (kept_watched.step w first) more

/-- A turn of the loop is a batch that has been reported and dispatched. -/
lemma eventLoop_step {d d' : Daemon σ} {batch : List Event}
    (run : (eventLoop M).step d batch = some d') :
    Reported d batch ∧ ∃ calls, dispatch M batch d = some (calls, d') := by
  simp only [eventLoop] at run
  split at run
  · next both =>
    obtain ⟨⟨calls, last⟩, worked, rfl⟩ := Option.map_eq_some_iff.mp run
    exact ⟨both.2, calls, worked⟩
  · cases run

end

/-- In a run of the event loop, every event of every batch is delivered exactly once, to the callback that
its descriptor had when the batch was reported, and to the session that there was then. -/
theorem batches_delivered {σ : Type*} (M : MiniModem.Modem σ) (fds : Descriptors) (modem : σ)
    (steps : List Step) (d : Daemon σ) (run : (system M).exec (boot fds modem) steps = some d)
    (batches : List (List Event)) : (eventLoop M).Each (Delivered M) d.entered batches := by
  obtain ⟨w, -⟩ := reachable_subscribed run
  intro before batch _ between after reached next
  refine delivered ?_ (eventLoop_step next).1
  refine System.invariant (fun d batch d' w taken => ?_) w.entered reached
  obtain ⟨-, calls, taken⟩ := eventLoop_step taken
  exact dispatch_watched w taken

/-- An AT session and a QMI session. -/
def twoSessions : List Step :=
  [.createPty (some (7, 8)) true, .deliver 6 EPOLLIN { accepts := [.client 8 true] }]

/-- A client leaves, and in the same batch another one gets its descriptor. -/
def handover : List Event :=
  [⟨8, EPOLLIN, { reads := [.bytes []] }⟩, ⟨6, EPOLLIN, { accepts := [.client 8 true] }⟩,
    ⟨7, EPOLLIN, {}⟩]

/-- The first event goes to the client that leaves, and none to the other one. -/
theorem batches_delivered_handover :
    ∃ d d', (system sampleModem).exec (boot sampleDescriptors false) twoSessions = some d ∧
      (eventLoop sampleModem).exec d.entered [handover] = some d' ∧
      (eventLoop sampleModem).Each (Delivered sampleModem) d.entered [handover] ∧
      d.sessionRef? (.session .qmiServer 8) = some ⟨.qmiServer, 1⟩ ∧
      d'.sessionRef? (.session .qmiServer 8) = some ⟨.qmiServer, 2⟩ := by
  have run : ∃ d d', (system sampleModem).exec (boot sampleDescriptors false) twoSessions = some d ∧
      (eventLoop sampleModem).exec d.entered [handover] = some d' ∧
      d.sessionRef? (.session .qmiServer 8) = some ⟨.qmiServer, 1⟩ ∧
      d'.sessionRef? (.session .qmiServer 8) = some ⟨.qmiServer, 2⟩ := ⟨_, _, rfl, rfl, rfl, rfl⟩
  obtain ⟨d, d', run, run', before, after⟩ := run
  have delivered := batches_delivered sampleModem sampleDescriptors false twoSessions d run [handover]
  exact ⟨d, d', run, run', delivered, before, after⟩

end MiniModem.Daemon
