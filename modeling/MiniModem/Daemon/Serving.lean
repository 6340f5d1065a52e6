import MiniModem.Daemon.Step

/-!
# Serving a session

What the callback of a session does before its server looks at the result: the output is flushed, then
the input is read and answered. The registrations stay as they are (`SameFrame`), and the other sessions
only hear the events that the modem publishes while it handles the lines (`serves_serve`).
-/

namespace MiniModem.Daemon
open Lib Transport Modem

variable {σ : Type*} (M : MiniModem.Modem σ)

/-- No events change nothing. -/
@[simp] lemma Owned.hear_nil {server : Server} (n : ℕ) (owned : Owned server) :
    owned.hear n [] = owned := rfl

/-- Events are heard one after the other. -/
lemma Owned.hear_append {server : Server} (n : ℕ) (events more : List ModemEvent)
    (owned : Owned server) : owned.hear n (events ++ more) = (owned.hear n events).hear n more := by
  simp [hear]

/-- The events that the modem publishes while it handles lines. -/
def heard : σ → List Bytes → List ModemEvent
  | _, [] => []
  | modem, line :: lines =>
    (M.handleAt modem line).2.2 ++ heard (M.handleAt modem line).1 lines

/-- The events that are published while a session reads; a QMI session publishes none. -/
def publishedReading (server : Server) (events : Events) (env : Environment) (owned : Owned server)
    (d : Daemon σ) : List ModemEvent :=
  match server, owned with
  | .atServer, owned => heard M d.modem (At.linesRead events env.reads owned.session.input)
  | .qmiServer, _ => []

/-- The events that are published in the callback of a session; none if writing has failed before. -/
def publishedServing (server : Server) (events : Events) (env : Environment) (owned : Owned server)
    (d : Daemon σ) : List ModemEvent :=
  if (owned.onWritable events env.writes).1 && has events EPOLLIN then
    publishedReading M server events env owned d
  else []

/-- The change from `d` to `d'` is a change of one session; the others hear some events. -/
structure Serves (server : Server) (fd : Fd) (order : IterationOrder) (events : List ModemEvent)
    (d d' : Daemon σ) : Prop where
  frame : SameFrame d d'
  others : ∀ server' fd', (server' ≠ server ∨ fd' ≠ fd) →
    d'.session? server' fd' =
      (d.session? server' fd').map fun owned =>
        owned.hear (d.reach order ⟨server', owned.addr⟩) events

variable {M}

/-- Nothing is a change of one session. -/
lemma Serves.refl (server : Server) (fd : Fd) (order : IterationOrder) (d : Daemon σ) :
    Serves server fd order [] d d := by
  refine ⟨.refl d, fun server' fd' _ => ?_⟩
  simp

/-- Two changes of one session are one, and the others hear both. -/
lemma Serves.trans {server : Server} {fd : Fd} {order : IterationOrder} {events more : List ModemEvent}
    {d d' d'' : Daemon σ} (first : Serves server fd order events d d')
    (second : Serves server fd order more d' d'') :
    Serves server fd order (events ++ more) d d'' := by
  refine ⟨first.frame.trans second.frame, fun server' fd' other => ?_⟩
  rw [second.others server' fd' other, first.others server' fd' other, Option.map_map]
  simp only [reach, first.frame.eventBus, Owned.hear_append]
  rfl

/-- A change of the session itself. -/
lemma Serves.modify {server : Server} {fd : Fd} {f : Owned server → Owned server} {d : Daemon σ}
    (keep : ∀ owned, d.session? server fd = some owned → (f owned).identity = owned.identity)
    (order : IterationOrder) : Serves server fd order [] d (d.modifySession server fd f) := by
  refine ⟨.modifySession keep, fun server' fd' other => ?_⟩
  rw [session?_modifySession_ne other]
  simp

/-- Events are heard by all sessions, the one that is served included. -/
lemma Serves.publishAll (server : Server) (fd : Fd) (order : IterationOrder)
    (events : List ModemEvent) (d : Daemon σ) :
    Serves server fd order events d (d.publishAll order events) :=
  ⟨.publishAll order events d, fun server' fd' _ => session?_publishAll order events d server' fd'⟩

/-- The state of the modem belongs to no session. -/
lemma serves_modem (server : Server) (fd : Fd) (order : IterationOrder) (modem : σ) (d : Daemon σ) :
    Serves server fd order [] d { d with modem } := by
  refine ⟨⟨rfl, rfl, rfl, rfl, rfl, rfl, rfl, rfl, fun _ _ => rfl⟩, fun server' fd' _ => ?_⟩
  simp only [Owned.hear_nil, Option.map_id']
  rfl

/-- A line changes its session, and the others hear the events of the modem. -/
lemma serves_handleLine (order : IterationOrder) (fd : Fd) (line : Bytes) (d : Daemon σ) :
    Serves .atServer fd order (M.handleAt d.modem line).2.2 d (d.handleLine M order fd line) := by
  have handled := serves_modem .atServer fd order (M.handleAt d.modem line).1 d
  have published := handled.trans (.publishAll .atServer fd order (M.handleAt d.modem line).2.2 _)
  have answered : Serves .atServer fd order ([] ++ (M.handleAt d.modem line).2.2 ++ []) d
      (d.handleLine M order fd line) := by
    refine published.trans (.modify ?_ order)
    exact fun _ _ => rfl
  rwa [List.append_nil, List.nil_append] at answered

/-- The modem after a line. -/
lemma handleLine_modem (order : IterationOrder) (fd : Fd) (line : Bytes) (d : Daemon σ) :
    (d.handleLine M order fd line).modem = (M.handleAt d.modem line).1 :=
  publishAll_modem order _ _

/-- Several lines change their session, and the others hear all events. -/
lemma serves_handleLines (order : IterationOrder) (fd : Fd) (lines : List Bytes) (d : Daemon σ) :
    Serves .atServer fd order (heard M d.modem lines) d
      (lines.foldl (fun d line => d.handleLine M order fd line) d) := by
  induction lines generalizing d with
  | nil => exact .refl .atServer fd order d
  | cons line lines ih =>
    rw [List.foldl_cons, heard, ← handleLine_modem order fd line d]
    exact (serves_handleLine order fd line d).trans (ih _)

/-- A QMI session reads on its own. -/
lemma onReadable_qmi (fd : Fd) (events : Events) (env : Environment) (owned : Owned .qmiServer)
    (d : Daemon σ) :
    d.onReadable M .qmiServer fd events env owned =
      ((Qmi.Session.onReadable M d.modem events env.reads owned.session).1,
        d.modifySession .qmiServer fd fun _ =>
          { owned with
            session := (Qmi.Session.onReadable M d.modem events env.reads owned.session).2 }) := rfl

/-- Reading changes one session, and the others hear what is published. -/
lemma serves_onReadable {server : Server} {fd : Fd} {owned : Owned server} {d : Daemon σ}
    (here : d.session? server fd = some owned) (events : Events) (env : Environment) :
    Serves server fd env.order (publishedReading M server events env owned d) d
      (d.onReadable M server fd events env owned).2 := by
  cases server with
  | atServer =>
    have lines := serves_handleLines (M := M) env.order fd
      (At.linesRead events env.reads owned.session.input) d
    rw [← At.onReadable_world] at lines
    have read : Serves .atServer fd env.order
        (heard M d.modem (At.linesRead events env.reads owned.session.input) ++ []) d
        (d.onReadable M .atServer fd events env owned).2 := by
      refine lines.trans (.modify ?_ env.order)
      exact fun _ _ => rfl
    rwa [List.append_nil] at read
  | qmiServer =>
    refine .modify (fun owned' there => ?_) env.order
    rw [here] at there
    cases there
    show Owned.identity
      ({ owned with session := (Qmi.Session.onReadable M d.modem events env.reads owned.session).2 } :
        Owned .qmiServer) = _
    rw [Qmi.Session.onReadable_session]
    rfl

/-- Writing changes the outbox, and what has been sent. -/
lemma onWritable_output {server : Server} (events : Events) (writes : List WriteResult)
    (owned : Owned server) :
    ∃ outbox sent, (owned.onWritable events writes).2 =
      { owned with session := { owned.session with outbox }, sent } := by
  rw [Owned.onWritable]
  split
  · simp only [Session.onWritable]
    split
    · exact ⟨_, _, rfl⟩
    · split
      · exact ⟨_, _, rfl⟩
      · exact ⟨_, _, rfl⟩
  · exact ⟨_, _, rfl⟩

/-- Writing leaves the address, the descriptor and the subscription as they are. -/
lemma onWritable_identity {server : Server} (events : Events) (writes : List WriteResult)
    (owned : Owned server) : (owned.onWritable events writes).2.identity = owned.identity := by
  obtain ⟨outbox, sent, e⟩ := onWritable_output events writes owned
  rw [e]
  rfl

/-- Writing leaves the input as it is. -/
lemma onWritable_input {server : Server} (events : Events) (writes : List WriteResult)
    (owned : Owned server) :
    (owned.onWritable events writes).2.session.input = owned.session.input := by
  obtain ⟨outbox, sent, e⟩ := onWritable_output events writes owned
  rw [e]

/-- Serving, without the intermediate names. -/
lemma serve_eq (server : Server) (fd : Fd) (events : Events) (env : Environment)
    (owned : Owned server) (d : Daemon σ) :
    d.serve M server fd events env owned =
      if (owned.onWritable events env.writes).1 && has events EPOLLIN then
        (d.modifySession server fd fun _ => (owned.onWritable events env.writes).2).onReadable M
          server fd events env (owned.onWritable events env.writes).2
      else
        ((owned.onWritable events env.writes).1,
          d.modifySession server fd fun _ => (owned.onWritable events env.writes).2) := rfl

/-- Serving a session changes that session, and the others hear what the modem publishes. -/
lemma serves_serve {server : Server} {fd : Fd} {owned : Owned server} {d : Daemon σ}
    (here : d.session? server fd = some owned) (events : Events) (env : Environment) :
    Serves server fd env.order (publishedServing M server events env owned d) d
      (d.serve M server fd events env owned).2 := by
  have first : Serves server fd env.order [] d
      (d.modifySession server fd fun _ => (owned.onWritable events env.writes).2) := by
    refine .modify (fun owned' there => ?_) env.order
    rw [here] at there
    cases there
    exact onWritable_identity events env.writes owned
  rw [serve_eq, publishedServing]
  by_cases reads : ((owned.onWritable events env.writes).1 && has events EPOLLIN) = true
  · rw [if_pos reads, if_pos reads]
    have here' : (d.modifySession server fd fun _ => (owned.onWritable events env.writes).2).session?
        server fd = some (owned.onWritable events env.writes).2 := by
      rw [session?_modifySession_self, here]
      rfl
    have second := serves_onReadable (M := M) here' events env
    have both := first.trans second
    rw [List.nil_append] at both
    have same : publishedReading M server events env (owned.onWritable events env.writes).2
        (d.modifySession server fd fun _ => (owned.onWritable events env.writes).2) =
        publishedReading M server events env owned d := by
      cases server with
      | atServer =>
        simp only [publishedReading, onWritable_input]
        rfl
      | qmiServer => rfl
    rwa [same] at both
  · rw [if_neg reads, if_neg reads]
    exact first

/-- After serving, the session is removed or its events are updated. -/
lemma handleClient_cases {server : Server} {fd : Fd} {owned : Owned server} {d d' : Daemon σ}
    (here : d.session? server fd = some owned) {events : Events} {env : Environment}
    (run : d.handleClient M server fd events env = .returned d') :
    ((d.serve M server fd events env owned).1 = false ∧
        d' = (d.serve M server fd events env owned).2.removeSession server fd) ∨
      ((d.serve M server fd events env owned).1 = true ∧
        (d.serve M server fd events env owned).2.updateEvents server fd = .returned d') := by
  rw [handleClient, here] at run
  simp only at run
  split at run
  · next dead =>
    cases run
    exact .inl ⟨by simpa using dead, rfl⟩
  · next alive => exact .inr ⟨by simpa using alive, run⟩

end MiniModem.Daemon
