import MiniModem.Daemon.Sessions

/-!
# The output of a session

What has been written for a session, sent or pending. A flush moves bytes from the one to the other, and
all else only adds to what is pending; so what a session has sent grows, and stays a part of its output
(`step_grows`). Where `write` finds room, a session that has something to send sends some of it
(`Owned.onWritable_sends`).
-/

namespace MiniModem.Daemon
open Lib Transport Modem

/-- All that has been written for a session, whether it has been sent or is pending. -/
def Owned.output {server : Server} (owned : Owned server) : Bytes :=
  owned.sent ++ owned.session.outbox.pending

/-- The same session, which may have more to send. -/
structure Longer {server : Server} (owned owned' : Owned server) : Prop where
  addr : owned'.addr = owned.addr
  sent : owned'.sent = owned.sent
  output : owned.output <+: owned'.output

/-- The same session, which may have more to send, and may have sent more. -/
structure Grows {server : Server} (owned owned' : Owned server) : Prop where
  addr : owned'.addr = owned.addr
  sent : owned.sent <+: owned'.sent
  output : owned.output <+: owned'.output

section
variable {server : Server} {owned owned' owned'' : Owned server}

/-- Nothing has been added. -/
lemma Longer.refl (owned : Owned server) : Longer owned owned := ⟨rfl, rfl, List.prefix_refl _⟩

/-- Output that is added twice is added. -/
lemma Longer.trans (longer : Longer owned owned') (longer' : Longer owned' owned'') : Longer owned owned'' :=
  ⟨longer'.addr.trans longer.addr, longer'.sent.trans longer.sent, longer.output.trans longer'.output⟩

/-- Output that is only added grows. -/
lemma Longer.grows (longer : Longer owned owned') : Grows owned owned' :=
  ⟨longer.addr, longer.sent ▸ List.prefix_refl _, longer.output⟩

/-- Output that grows twice has grown. -/
lemma Grows.trans (grows : Grows owned owned') (grows' : Grows owned' owned'') : Grows owned owned'' :=
  ⟨grows'.addr.trans grows.addr, grows.sent.trans grows'.sent, grows.output.trans grows'.output⟩

/-- What is queued stands at the end of the output. -/
lemma queue_output (data : Bytes) (owned : Owned server) :
    ({ owned with session := owned.session.queue data } : Owned server).output =
      owned.output ++ data := by
  simp only [Owned.output, Session.queue, Outbox.pending_push, List.append_assoc]

/-- Queueing adds output, and sends nothing. -/
lemma longer_queue (data : Bytes) (owned : Owned server) :
    Longer owned { owned with session := owned.session.queue data } := by
  refine ⟨rfl, rfl, ?_⟩
  rw [queue_output]
  exact List.prefix_append _ _

/-- The input has no part in the output. -/
lemma longer_input (input : server.Input) (owned : Owned server) :
    Longer owned { owned with session := { owned.session with input } } :=
  ⟨rfl, rfl, List.prefix_refl _⟩

/-- An event adds output or nothing. -/
lemma longer_onEvent (event : ModemEvent) (owned : Owned server) :
    Longer owned { owned with session := server.onEvent event owned.session } := by
  rw [Server.onEvent_eq]
  split
  · exact longer_queue _ owned
  · exact .refl owned

/-- So do several events. -/
lemma longer_hear (n : ℕ) (events : List ModemEvent) (owned : Owned server) :
    Longer owned (owned.hear n events) := by
  have often : ∀ (event : ModemEvent) (n : ℕ) (owned : Owned server),
      Longer owned { owned with session := (server.onEvent event)^[n] owned.session } := by
    intro event n
    induction n with
    | zero => exact fun owned => .refl owned
    | succ n ih => exact fun owned => (longer_onEvent event owned).trans (ih _)
  induction events generalizing owned with
  | nil => exact .refl owned
  | cons event events ih => exact (often event n owned).trans (ih _)

/-- Writing to the descriptor writes nothing new for the client. -/
lemma onWritable_written (events : Events) (writes : List WriteResult) (owned : Owned server) :
    (owned.onWritable events writes).2.output = owned.output := by
  rw [Owned.onWritable]
  split
  · rw [Owned.output, Owned.output, ← owned.session.onWritable_pending events writes,
      ← List.append_assoc]
  · rfl

/-- Writing moves output from the outbox to what has been sent. -/
lemma grows_onWritable (events : Events) (writes : List WriteResult) (owned : Owned server) :
    Grows owned (owned.onWritable events writes).2 := by
  refine ⟨congrArg Prod.fst (onWritable_identity events writes owned), ?_, ?_⟩
  · rw [Owned.onWritable]
    split
    · exact List.prefix_append _ _
    · exact List.prefix_refl _
  · rw [onWritable_written]

/-- The first write that is not interrupted finds room. -/
def hasRoom : List WriteResult → Bool
  | .room bytes :: _ => 0 < bytes
  | .eintr :: writes => hasRoom writes
  | _ => false

/-- With room for a byte something is sent. -/
lemma flushQueue_sends {writes : List WriteResult} (room : hasRoom writes = true) (chunk : Chunk)
    (queue : List Chunk) : (Outbox.flushQueue writes (chunk :: queue)).2.1 ≠ [] := by
  induction writes with
  | nil => cases room
  | cons write writes ih =>
    cases write with
    | room bytes =>
      simp only [hasRoom, decide_eq_true_eq] at room
      have some := List.length_pos_iff.mpr chunk.remaining_ne_nil
      have written : min bytes chunk.remaining.length > 0 := by omega
      simp only [Outbox.flushQueue, if_pos written]
      intro none
      have length := congrArg List.length (List.append_eq_nil_iff.mp none).1
      rw [List.length_take, List.length_nil] at length
      omega
    | eintr => exact ih room
    | eagain => cases room
    | error => cases room

/-- Where there is room and something to send, the session sends something, or it does not survive. -/
lemma Owned.onWritable_sends {events : Events} {writes : List WriteResult} {owned : Owned server}
    (out : has events EPOLLOUT = true) (room : hasRoom writes = true)
    (pending : owned.session.outbox.pending ≠ []) (alive : (owned.onWritable events writes).1 = true) :
    owned.sent.length < (owned.onWritable events writes).2.sent.length := by
  rw [Owned.onWritable, if_pos out] at alive ⊢
  simp only [Session.onWritable] at alive ⊢
  split at alive
  · cases alive
  · next fine =>
    rw [if_neg fine, out]
    simp only [Bool.not_true, Bool.false_eq_true, if_false, Outbox.flush]
    rcases e : owned.session.outbox.queue with _ | ⟨chunk, queue⟩
    · rw [Outbox.pending, e] at pending
      exact absurd rfl pending
    · have sends := List.length_pos_iff.mpr (flushQueue_sends room chunk queue)
      rw [List.length_append]
      exact Nat.lt_add_of_pos_right sends

end

variable {σ : Type*} {M : MiniModem.Modem σ} {d d' : Daemon σ} {server : Server} {fd : Fd}

/-- Handling lines adds output to the session that has read them. -/
lemma lines_longer {owned : Owned .atServer} (here : d.session? .atServer fd = some owned)
    (order : IterationOrder) (lines : List Bytes) :
    ∃ last, (lines.foldl (fun d line => d.handleLine M order fd line) d).session? .atServer fd = some last ∧
      Longer owned last := by
  induction lines generalizing d owned with
  | nil => exact ⟨owned, here, .refl owned⟩
  | cons line lines ih =>
    have there : (publishAll order (M.handleAt d.modem line).2.2
        { d with modem := (M.handleAt d.modem line).1 }).session? .atServer fd =
          some (owned.hear (d.reach order ⟨.atServer, owned.addr⟩) (M.handleAt d.modem line).2.2) := by
      rw [session?_publishAll]
      exact congrArg (Option.map _) here
    have handled : (d.handleLine M order fd line).session? .atServer fd = some _ :=
      (session?_modifySession_self _ _ _ _).trans (congrArg (Option.map _) there)
    obtain ⟨last, still, longer⟩ := ih handled
    exact ⟨last, still, ((longer_hear _ _ owned).trans (longer_queue _ _)).trans longer⟩

/-- Reading adds output, and sends nothing. -/
lemma onReadable_longer {owned : Owned server} (here : d.session? server fd = some owned) (events : Events)
    (env : Environment) :
    ∃ last, (d.onReadable M server fd events env owned).2.session? server fd = some last ∧
      Longer owned last := by
  cases server with
  | atServer =>
    obtain ⟨last, there, longer⟩ := lines_longer (M := M) here env.order
      (At.linesRead events env.reads owned.session.input)
    rw [← At.onReadable_world] at there
    refine ⟨_, (session?_modifySession_self _ _ _ _).trans (congrArg (Option.map _) there), ?_⟩
    exact longer.trans (longer_input _ last)
  | qmiServer =>
    rw [onReadable_qmi]
    refine ⟨_, (session?_modifySession_self _ _ _ _).trans (congrArg (Option.map _) here), rfl, rfl, ?_⟩
    rw [Qmi.Session.onReadable_session, Owned.output, Owned.output, Outbox.pending_pushAll,
      ← List.append_assoc]
    exact List.prefix_append _ _

/-- While a session is served, its output is flushed, and then it only gets longer. -/
lemma serve_longer {owned : Owned server} (here : d.session? server fd = some owned) (events : Events)
    (env : Environment) :
    ∃ last, (d.serve M server fd events env owned).2.session? server fd = some last ∧
      Longer (owned.onWritable events env.writes).2 last := by
  have there : (d.modifySession server fd fun _ => (owned.onWritable events env.writes).2).session?
      server fd = some (owned.onWritable events env.writes).2 :=
    (session?_modifySession_self _ _ _ _).trans (congrArg (Option.map _) here)
  rw [serve_eq]
  split
  · exact onReadable_longer there events env
  · exact ⟨_, there, .refl _⟩

/-- What a step makes of a session that does not go: if it is its callback, the session is registered for
what it then needs, and if there was room and something to send, it has sent more. -/
lemma step_grows {step : Step} (w : Watched d) (run : (system M).step d step = some d') {owned : Owned server}
    (here : d.session? server fd = some owned) :
    (step.target ≠ some fd ∧ (∃ owned', d'.session? server fd = some owned' ∧ Longer owned owned') ∧
        d'.loop.epoll.interest.lookup fd = d.loop.epoll.interest.lookup fd) ∨
      ∃ events env, step = .deliver fd events env ∧
        (d'.session? server fd = none ∨
          ∃ owned', d'.session? server fd = some owned' ∧ Grows owned owned' ∧
            d'.loop.epoll.interest.lookup fd = some (eventsFor owned') ∧
            (has events EPOLLOUT = true → hasRoom env.writes = true →
              owned.session.outbox.pending ≠ [] → owned.sent.length < owned'.sent.length)) := by
  rcases step_owned w run here with ⟨events, env, rfl, served⟩ | ⟨other, heard, same⟩
  · refine .inr ⟨events, env, rfl, ?_⟩
    obtain ⟨last, there, longer⟩ := serve_longer (M := M) here events env
    obtain ⟨last', there', -, -, ended⟩ := handleClient_inv w here served
    rw [there] at there'
    cases there'
    rcases ended with ⟨-, removed⟩ | ⟨alive, rfl⟩
    · exact .inl removed.gone
    · refine .inr ⟨last, there, (grows_onWritable _ _ owned).trans longer.grows, AList.lookup_insert _, ?_⟩
      intro out room pending
      rw [longer.sent]
      refine Owned.onWritable_sends out room pending ?_
      -- the input is not read if the output has failed
      rw [serve_eq] at alive
      split at alive
      · next both => exact (Bool.and_eq_true _ _ ▸ both).1
      · exact alive
  · rw [here] at heard
    exact .inl ⟨other, ⟨_, heard, longer_hear _ _ owned⟩, same⟩

end MiniModem.Daemon
