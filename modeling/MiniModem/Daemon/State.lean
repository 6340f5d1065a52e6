import Mathlib.Logic.Function.Basic
import MiniModem.At.Session
import MiniModem.Qmi.Session
import MiniModem.Transport.EventLoop

/-!
# The state of the daemon

The objects that `src/main.cpp` puts together: the event loop, the event bus, the modem, and the two
servers with their sessions. `at::Server` and `qmi::Server` differ in the sessions they own and are
otherwise the same, so what they share is stated once, for either of them.

A session is found in two ways. Its server finds it under its descriptor; the event bus reaches it
through the `this` pointer its handler captured, here a number that is never given to a second session.
Three things are recorded that no code reads: the bytes a session has written, the sessions destroyed
so far, and the descriptors that are open.
-/

namespace MiniModem.Daemon
open Lib Transport Modem

/-- The two servers. -/
inductive Server
  | atServer | qmiServer
  deriving DecidableEq, Repr

namespace Server

/-- The line reader or the frame parser of a session. -/
abbrev Input : Server → Type
  | atServer => LineReader
  | qmiServer => Qmi.FrameParser

/-- A session of the server. -/
abbrev Session (server : Server) : Type := Modem.Session server.Input

/-- What a new session starts with. -/
def newInput : (server : Server) → server.Input
  | atServer => ({} : LineReader)
  | qmiServer => ({} : Qmi.FrameParser)

/-- What an event does to a session. -/
def onEvent : (server : Server) → ModemEvent → server.Session → server.Session
  | atServer => At.Session.onEvent
  | qmiServer => Qmi.Session.onEvent

/-- What a registration makes a session queue. -/
def registrationBytes : Server → ModemEvent → Bytes
  | atServer, event => At.Session.copsPrefix ++ event.operatorCode ++ At.Session.copsSuffix
  | qmiServer, _ => Qmi.encodeMessage Qmi.Session.indication

/-- A registration is never reported by no bytes. -/
lemma registrationBytes_ne_nil (server : Server) (event : ModemEvent) :
    server.registrationBytes event ≠ [] := by
  cases server with
  | atServer => simp [registrationBytes, At.Session.copsPrefix]
  | qmiServer =>
    show Qmi.encodeMessage Qmi.Session.indication ≠ []
    decide

/-- Sessions ignore all events but registrations. -/
lemma onEvent_eq (server : Server) (event : ModemEvent) (session : server.Session) :
    server.onEvent event session =
      if event.type = .NetworkRegistered then session.queue (server.registrationBytes event)
      else session := by
  cases server with
  | atServer =>
    simp only [onEvent, At.Session.onEvent, ne_eq, ite_not]
    rfl
  | qmiServer =>
    simp only [onEvent, Qmi.Session.onEvent, ne_eq, ite_not]
    rfl

end Server

/-- A pointer to a session, as captured by the handler it subscribes. -/
structure SessionRef where
  server : Server
  addr : ℕ
  deriving DecidableEq, Repr

/-- A `unique_ptr` to a session, with the bytes the session has written to its descriptor. -/
structure Owned (server : Server) where
  addr : ℕ
  session : server.Session
  sent : Bytes := []

/-- The callbacks of the event loop: the one of the signals, `acceptClients`, the one of the timer, and
that of a session, which captures its descriptor. -/
inductive Callback
  | signal
  | acceptClients
  | networkTimer
  | session (server : Server) (fd : Fd)
  deriving DecidableEq, Repr

end MiniModem.Daemon

namespace MiniModem
open Lib Transport Modem Daemon

/-- The state of the process. -/
structure Daemon (σ : Type*) where
  signalFd : Fd
  listenFd : Fd
  timerFd : Fd
  openFds : List Fd
  loop : EventLoop Callback := {}
  eventBus : EventBus SessionRef := {}
  modem : σ
  sessions : (server : Server) → UnorderedMap Fd (Owned server) := fun _ => ∅
  allocated : ℕ := 0
  destroyed : List ((server : Server) × Owned server) := []

namespace Daemon
variable {σ : Type*}

/-- The event bus of `main`. -/
def busPtr : BusPtr := 0

/-- Replace the sessions of one server. -/
def setSessions (server : Server) (sessions : UnorderedMap Fd (Owned server)) (d : Daemon σ) :
    Daemon σ :=
  { d with sessions := Function.update d.sessions server sessions }

/-- Change the session that a server has under a descriptor. -/
def modifySession (server : Server) (fd : Fd) (f : Owned server → Owned server) (d : Daemon σ) :
    Daemon σ :=
  d.setSessions server (UnorderedMap.modify fd f (d.sessions server))

/-- The kernel closes a descriptor, and forgets what was to be reported about it. -/
def close (fd : Fd) (d : Daemon σ) : Daemon σ :=
  { d with
    openFds := d.openFds.filter (· ≠ fd)
    loop := { d.loop with epoll := d.loop.epoll.remove fd } }

/-- The handler of a session: `onEvent` of the object it points to. A pointer to no session, which the
real program must not follow, does nothing. -/
def onEvent (ref : SessionRef) (event : ModemEvent) (d : Daemon σ) : Daemon σ :=
  d.setSessions ref.server
    (UnorderedMap.mapValues
      (fun owned =>
        if owned.addr = ref.addr then
          { owned with session := ref.server.onEvent event owned.session }
        else owned)
      (d.sessions ref.server))

/-- `eventBus.publish(event)` -/
def publish (order : IterationOrder) (event : ModemEvent) (d : Daemon σ) : Daemon σ :=
  EventBus.publish Daemon.eventBus onEvent order event d

/-- The events that the modem publishes in one call, one after the other. -/
def publishAll (order : IterationOrder) (events : List ModemEvent) (d : Daemon σ) : Daemon σ :=
  events.foldl (fun d event => d.publish order event) d

/-- The session that a server has under a descriptor. -/
def session? (d : Daemon σ) (server : Server) (fd : Fd) : Option (Owned server) :=
  (d.sessions server).lookup fd

/-- What an owner keeps when the input and the output of its session change. -/
def Owned.identity {server : Server} (owned : Owned server) : ℕ × Tty × Subscription :=
  (owned.addr, owned.session.tty, owned.session.subscription)

/-- A session after events each of which reaches it `n` times. -/
def Owned.hear {server : Server} (n : ℕ) (events : List ModemEvent) (owned : Owned server) :
    Owned server :=
  { owned with
    session := events.foldl (fun session event => (server.onEvent event)^[n] session) owned.session }

/-- Nothing has changed but the state of the modem and the input and output of the sessions. -/
structure SameFrame (d d' : Daemon σ) : Prop where
  signalFd : d'.signalFd = d.signalFd
  listenFd : d'.listenFd = d.listenFd
  timerFd : d'.timerFd = d.timerFd
  openFds : d'.openFds = d.openFds
  loop : d'.loop = d.loop
  eventBus : d'.eventBus = d.eventBus
  allocated : d'.allocated = d.allocated
  destroyed : d'.destroyed = d.destroyed
  identity : ∀ server fd,
    (d'.session? server fd).map Owned.identity = (d.session? server fd).map Owned.identity

/-- Nothing has changed. -/
lemma SameFrame.refl (d : Daemon σ) : SameFrame d d :=
  ⟨rfl, rfl, rfl, rfl, rfl, rfl, rfl, rfl, fun _ _ => rfl⟩

/-- Two such changes are one. -/
lemma SameFrame.trans {d d' d'' : Daemon σ} (same : SameFrame d d') (same' : SameFrame d' d'') :
    SameFrame d d'' where
  signalFd := same'.signalFd.trans same.signalFd
  listenFd := same'.listenFd.trans same.listenFd
  timerFd := same'.timerFd.trans same.timerFd
  openFds := same'.openFds.trans same.openFds
  loop := same'.loop.trans same.loop
  eventBus := same'.eventBus.trans same.eventBus
  allocated := same'.allocated.trans same.allocated
  destroyed := same'.destroyed.trans same.destroyed
  identity server fd := (same'.identity server fd).trans (same.identity server fd)

/-- Going back is such a change too. -/
lemma SameFrame.symm {d d' : Daemon σ} (same : SameFrame d d') : SameFrame d' d where
  signalFd := same.signalFd.symm
  listenFd := same.listenFd.symm
  timerFd := same.timerFd.symm
  openFds := same.openFds.symm
  loop := same.loop.symm
  eventBus := same.eventBus.symm
  allocated := same.allocated.symm
  destroyed := same.destroyed.symm
  identity server fd := (same.identity server fd).symm

/-- A session is still there. -/
lemma SameFrame.owned {d d' : Daemon σ} (same : SameFrame d d') {server : Server} {fd : Fd}
    {owned : Owned server} (here : d.session? server fd = some owned) :
    ∃ owned', d'.session? server fd = some owned' ∧ owned'.identity = owned.identity := by
  have identity := same.identity server fd
  rw [here] at identity
  exact Option.map_eq_some_iff.mp identity

/-- Any number of such changes are one. -/
lemma SameFrame.foldl {α : Type*} {f : Daemon σ → α → Daemon σ} (each : ∀ d x, SameFrame d (f d x))
    (xs : List α) (d : Daemon σ) : SameFrame d (xs.foldl f d) := by
  induction xs generalizing d with
  | nil => exact .refl d
  | cons x xs ih => exact (each d x).trans (ih _)

/-- The sessions of the server are replaced. -/
lemma session?_setSessions_self (server : Server) (sessions : UnorderedMap Fd (Owned server))
    (d : Daemon σ) (fd : Fd) : (d.setSessions server sessions).session? server fd = sessions.lookup fd := by
  simp [session?, setSessions]

/-- Those of the other server are not. -/
lemma session?_setSessions_ne {server server' : Server} (ne : server' ≠ server)
    (sessions : UnorderedMap Fd (Owned server)) (d : Daemon σ) (fd : Fd) :
    (d.setSessions server sessions).session? server' fd = d.session? server' fd := by
  simp [session?, setSessions, ne]

/-- One session is changed, if it is there. -/
lemma session?_modifySession_self (server : Server) (fd : Fd) (f : Owned server → Owned server)
    (d : Daemon σ) :
    (d.modifySession server fd f).session? server fd = (d.session? server fd).map f := by
  rw [modifySession, session?_setSessions_self, UnorderedMap.lookup_modify_self]
  rfl

/-- The other sessions are not changed. -/
lemma session?_modifySession_ne {server server' : Server} {fd fd' : Fd}
    (other : server' ≠ server ∨ fd' ≠ fd) (f : Owned server → Owned server) (d : Daemon σ) :
    (d.modifySession server fd f).session? server' fd' = d.session? server' fd' := by
  rcases eq_or_ne server' server with rfl | ne
  · rw [modifySession, session?_setSessions_self, UnorderedMap.lookup_modify_ne (by simpa using other)]
    rfl
  · rw [modifySession, session?_setSessions_ne ne]

/-- Changing the input or the output of a session changes nothing else. -/
lemma SameFrame.modifySession {server : Server} {fd : Fd} {f : Owned server → Owned server}
    {d : Daemon σ}
    (keep : ∀ owned, d.session? server fd = some owned → (f owned).identity = owned.identity) :
    SameFrame d (d.modifySession server fd f) := by
  refine ⟨rfl, rfl, rfl, rfl, rfl, rfl, rfl, rfl, fun server' fd' => ?_⟩
  by_cases here : server' = server ∧ fd' = fd
  · obtain ⟨rfl, rfl⟩ := here
    rw [session?_modifySession_self]
    rcases e : d.session? server' fd' with _ | owned
    · rfl
    · exact congrArg some (keep owned e)
  · rw [session?_modifySession_ne (by tauto)]

/-- A handler changes the session that it belongs to. -/
lemma session?_onEvent (ref : SessionRef) (event : ModemEvent) (d : Daemon σ) (server : Server)
    (fd : Fd) :
    (d.onEvent ref event).session? server fd =
      (d.session? server fd).map fun owned =>
        if ref = ⟨server, owned.addr⟩ then
          { owned with session := server.onEvent event owned.session }
        else owned := by
  obtain ⟨server', addr⟩ := ref
  rcases eq_or_ne server server' with rfl | ne
  · rw [onEvent, session?_setSessions_self, UnorderedMap.lookup_mapValues]
    simp only [session?, SessionRef.mk.injEq, true_and, eq_comm]
  · rw [onEvent, session?_setSessions_ne ne]
    simp [ne.symm]

/-- An event leaves the address, the descriptor and the subscription as they are. -/
lemma identity_onEvent {server : Server} (event : ModemEvent) (owned : Owned server) :
    ({ owned with session := server.onEvent event owned.session } : Owned server).identity =
      owned.identity := by
  simp only [Owned.identity, Server.onEvent_eq]
  split
  · rfl
  · rfl

/-- A handler changes the output of its session only. -/
lemma SameFrame.onEvent (ref : SessionRef) (event : ModemEvent) (d : Daemon σ) :
    SameFrame d (d.onEvent ref event) := by
  refine ⟨rfl, rfl, rfl, rfl, rfl, rfl, rfl, rfl, fun server fd => ?_⟩
  rw [session?_onEvent, Option.map_map]
  congr 1
  funext owned
  simp only [Function.comp_apply]
  split
  · exact identity_onEvent event owned
  · rfl

/-- Publishing calls `onEvent` for every subscriber there is. -/
lemma publish_eq_foldl (order : IterationOrder) (event : ModemEvent) (d : Daemon σ) :
    d.publish order event =
      (d.eventBus.subscribers order).foldl (fun d ref => d.onEvent ref event) d := by
  have keep : ∀ ref event (d : Daemon σ), (d.onEvent ref event).eventBus = d.eventBus :=
    fun _ _ _ => rfl
  exact EventBus.publish_eq keep order event d

/-- Publishing changes the output of the sessions only. -/
lemma SameFrame.publish (order : IterationOrder) (event : ModemEvent) (d : Daemon σ) :
    SameFrame d (d.publish order event) := by
  rw [publish_eq_foldl]
  exact SameFrame.foldl (fun d ref => SameFrame.onEvent ref event d) _ d

/-- So does publishing several events. -/
lemma SameFrame.publishAll (order : IterationOrder) (events : List ModemEvent) (d : Daemon σ) :
    SameFrame d (d.publishAll order events) :=
  SameFrame.foldl (fun d event => SameFrame.publish order event d) events d

/-- Publishing leaves the modem alone. -/
lemma publishAll_modem (order : IterationOrder) (events : List ModemEvent) (d : Daemon σ) :
    (d.publishAll order events).modem = d.modem := by
  have handlers : ∀ (event : ModemEvent) (refs : List SessionRef) (d : Daemon σ),
      (refs.foldl (fun d ref => d.onEvent ref event) d).modem = d.modem := by
    intro event refs
    induction refs with
    | nil => intro d; rfl
    | cons ref refs ih => intro d; exact ih _
  induction events generalizing d with
  | nil => rfl
  | cons event events ih =>
    rw [publishAll, List.foldl_cons, ← publishAll, ih, publish_eq_foldl, handlers]

/-- How often an event reaches the session at an address. -/
def reach (order : IterationOrder) (d : Daemon σ) (ref : SessionRef) : ℕ :=
  (d.eventBus.subscribers order).count ref

/-- Each session hears an event as often as its handlers are called. -/
lemma session?_publish (order : IterationOrder) (event : ModemEvent) (d : Daemon σ) (server : Server)
    (fd : Fd) :
    (d.publish order event).session? server fd =
      (d.session? server fd).map fun owned =>
        owned.hear (d.reach order ⟨server, owned.addr⟩) [event] := by
  rw [publish_eq_foldl]
  simp only [reach]
  generalize d.eventBus.subscribers order = refs
  induction refs generalizing d with
  | nil => simp [Owned.hear]
  | cons ref refs ih =>
    rw [List.foldl_cons, ih, session?_onEvent, Option.map_map]
    congr 1
    funext owned
    simp only [Function.comp_apply, List.count_cons, beq_iff_eq]
    split
    · simp [Owned.hear]
    · simp [Owned.hear]

/-- Each session hears all the events. -/
lemma session?_publishAll (order : IterationOrder) (events : List ModemEvent) (d : Daemon σ)
    (server : Server) (fd : Fd) :
    (d.publishAll order events).session? server fd =
      (d.session? server fd).map fun owned =>
        owned.hear (d.reach order ⟨server, owned.addr⟩) events := by
  induction events generalizing d with
  | nil => simp [publishAll, Owned.hear]
  | cons event events ih =>
    have same := SameFrame.publish order event d
    rw [publishAll, List.foldl_cons, ← publishAll, ih, session?_publish, Option.map_map]
    simp only [reach, same.eventBus]
    congr 1

/-- Whether a session has output pending after the events: it had before, or a registration reached
it. -/
lemma pending_hear {server : Server} (n : ℕ) (events : List ModemEvent) (owned : Owned server) :
    (owned.hear n events).session.hasPendingOutput = true ↔
      owned.session.hasPendingOutput = true ∨
        0 < n ∧ ∃ event ∈ events, event.type = .NetworkRegistered := by
  have often : ∀ (event : ModemEvent) (n : ℕ) (session : server.Session),
      ((server.onEvent event)^[n] session).hasPendingOutput = true ↔
        session.hasPendingOutput = true ∨ 0 < n ∧ event.type = .NetworkRegistered := by
    intro event n session
    induction n generalizing session with
    | zero => simp
    | succ n ih =>
      rw [Function.iterate_succ_apply, ih, Server.onEvent_eq]
      by_cases registered : event.type = .NetworkRegistered
      · simp [registered, Session.hasPendingOutput, Session.queue, server.registrationBytes_ne_nil]
      · simp [registered]
  simp only [Owned.hear]
  generalize owned.session = session
  induction events generalizing session with
  | nil => simp
  | cons event events ih =>
    rw [List.foldl_cons]
    apply (ih _).trans
    rw [often]
    simp only [List.mem_cons, exists_eq_or_imp]
    tauto

end Daemon

end MiniModem
