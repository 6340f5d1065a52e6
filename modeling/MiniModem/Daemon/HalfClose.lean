import MiniModem.Daemon.Sessions
import MiniModem.Qmi.Fragmentation

/-!
# The end of the input of a QMI session

A client that shuts down its sending side makes `read` return 0, and the session takes this for the end
of the connection: it is destroyed in that callback, whatever its outbox holds. What is lost then is
what the flush at the start of the same callback has left, and the responses to the requests that were
read in the same callback (`halfClose_discards`).
-/

namespace MiniModem.Daemon
open Lib Transport Modem

variable {σ : Type*} {M : MiniModem.Modem σ}

/-- The read loop ends because `read` returns 0. -/
def endOfFile : List ReadResult → Bool
  | [] => false
  | .bytes data :: reads => data.isEmpty || endOfFile reads
  | .eintr :: reads => endOfFile reads
  | .eagain :: _ => false
  | .error :: _ => false

/-- Neither a hang-up nor an error is reported for the descriptor, by `epoll`, `read` or `write`. -/
structure Orderly (events : Events) (env : Environment) : Prop where
  events : has events (EPOLLHUP ||| EPOLLERR) = false
  reads : .error ∉ env.reads
  writes : ∀ write ∈ env.writes, write ≠ .error ∧ write ≠ .room 0

/-- Without errors the loop ends for lack of data or at the end of the file. -/
lemma drained_eq {reads : List ReadResult} (fine : .error ∉ reads) :
    drained reads = !endOfFile reads := by
  induction reads with
  | nil => rfl
  | cons read reads ih =>
    rw [List.mem_cons, not_or] at fine
    obtain ⟨ne, fine⟩ := fine
    cases read with
    | bytes data =>
      rw [drained, endOfFile, ih fine]
      cases data with
      | nil => rfl
      | cons b data => simp
    | eintr => exact ih fine
    | eagain => rfl
    | error => exact absurd rfl ne

/-- Without errors a flush succeeds. -/
lemma flushQueue_ok {writes : List WriteResult} (fine : ∀ write ∈ writes, write ≠ .error ∧ write ≠ .room 0)
    (queue : List Chunk) : (Outbox.flushQueue writes queue).2.2 = true := by
  induction writes generalizing queue with
  | nil => cases queue <;> rfl
  | cons write writes ih =>
    have fine' : ∀ write ∈ writes, write ≠ .error ∧ write ≠ .room 0 :=
      fun write mem => fine write (List.mem_cons_of_mem _ mem)
    obtain ⟨ne, ne'⟩ := fine write (by simp)
    cases queue with
    | nil => rfl
    | cons chunk queue =>
      cases write with
      | room bytes =>
        have some : min bytes chunk.remaining.length > 0 := by
          have := List.length_pos_iff.mpr chunk.remaining_ne_nil
          have : bytes ≠ 0 := fun e => ne' (by rw [e])
          omega
        simp only [Outbox.flushQueue, if_pos some]
        exact ih fine' _
      | eintr => exact ih fine' _
      | eagain => rfl
      | error => exact absurd rfl ne

/-- In an orderly callback the session survives its output. -/
lemma Orderly.written {events : Events} {env : Environment} (orderly : Orderly events env)
    {server : Server} (owned : Owned server) : (owned.onWritable events env.writes).1 = true := by
  rw [Owned.onWritable]
  split
  · next out =>
    simp only [Session.onWritable, orderly.events, out]
    exact flushQueue_ok orderly.writes _
  · rfl

/-- The requests that the bytes read in a callback complete. -/
def requestsServed (events : Events) (env : Environment) (owned : Owned .qmiServer) :
    List Qmi.Message :=
  Qmi.Session.requestsRead events env.reads owned.session

/-- What an orderly callback makes of a QMI session: it is alive unless `read` returned 0, and its
outbox holds what the flush has left, and the responses to the requests that were read. -/
lemma Orderly.serve {events : Events} {env : Environment} (orderly : Orderly events env) {fd : Fd}
    {owned : Owned .qmiServer} {d : Daemon σ} (here : d.session? .qmiServer fd = some owned) :
    (d.serve M .qmiServer fd events env owned).1 =
        !(has events EPOLLIN && endOfFile env.reads) ∧
      ∃ last, (d.serve M .qmiServer fd events env owned).2.session? .qmiServer fd = some last ∧
        last.addr = owned.addr ∧
        last.session.outbox =
          (owned.onWritable events env.writes).2.session.outbox.pushAll
            (Qmi.Session.answers M d.modem (requestsServed events env owned)) := by
  obtain ⟨alive, there, -⟩ := serve_qmi (M := M) here events env
  refine ⟨?_, _, there, servedQmi_addr _ _ _ _, ?_⟩
  · rw [alive]
    by_cases readable : has events EPOLLIN = true
    · simp only [servedQmi, orderly.written, readable, Bool.and_self, if_true,
        Qmi.Session.onReadable_alive, orderly.events, Bool.false_eq_true, if_false, Bool.not_true,
        drained_eq orderly.reads, Bool.true_and]
    · simp [servedQmi, orderly.written, readable]
  · have input := onWritable_input events env.writes owned
    by_cases readable : has events EPOLLIN = true
    · simp only [servedQmi, orderly.written, readable, Bool.and_self, if_true,
        Qmi.Session.onReadable_session, requestsServed, Qmi.Session.requestsRead, input]
    · simp only [servedQmi, orderly.written, readable, Bool.and_false, Bool.false_eq_true, if_false,
        requestsServed, Qmi.Session.requestsRead, Bool.not_false, if_true, ite_self]
      rfl

lemma answers_eq_nil {modem : σ} {requests : List Qmi.Message} :
    (Qmi.Session.answers M modem requests).flatten = [] ↔ requests = [] := by
  refine ⟨?_, ?_⟩
  · intro e
    cases requests with
    | nil => rfl
    | cons request requests =>
      have length := congrArg List.length e
      simp [Qmi.Session.answers] at length
  · rintro rfl
    rfl

/-- A session that is there no longer was destroyed in a callback of its own. -/
lemma Watched.target_of_gone {d d' : Daemon σ} {step : Step} (w : Watched d) {server : Server} {fd : Fd}
    {owned : Owned server} (here : d.session? server fd = some owned)
    (gone : ∀ owned', d'.session? server fd = some owned' → owned'.addr ≠ owned.addr)
    (run : (system M).step d step = some d') : ∃ events env, step = .deliver fd events env := by
  have target : step.target = some fd := by
    rcases step_spec w run server fd with ⟨-, heard, -⟩ | ⟨-, target | none⟩
    · rw [here, Option.map_some] at heard
      exact absurd rfl (gone (owned.hear _ _) heard)
    · exact target
    · rw [none] at here
      cases here
  cases step with
  | createPty pty registers => cases target
  | deliver fd' events env =>
    cases target
    exact ⟨events, env, rfl⟩
  | publish order event => cases target

/-- In a run without hang-ups and errors a QMI session is destroyed only in a callback of its own in
which `read` returns 0. The outbox that is destroyed with it holds what the flush in this callback has
left, and the responses to the requests completed by the bytes read in this callback; so nothing is lost
exactly if the flush has left nothing and no request was completed. -/
theorem halfClose_discards (M : MiniModem.Modem σ) (fds : Descriptors) (modem : σ) (steps : List Step)
    (d d' : Daemon σ) (run : (system M).exec (boot fds modem) steps = some d) (step : Step)
    (next : (system M).step d step = some d') (fd : Fd) (owned : Owned .qmiServer)
    (here : d.session? .qmiServer fd = some owned)
    (gone : ∀ owned', d'.session? .qmiServer fd = some owned' → owned'.addr ≠ owned.addr)
    (orderly : ∀ events env, step = .deliver fd events env → Orderly events env) :
    ∃ events env last, step = .deliver fd events env ∧
      (has events EPOLLIN = true ∧ endOfFile env.reads = true) ∧
      (d'.destroyed = d.destroyed ++ [⟨.qmiServer, last⟩] ∧ last.addr = owned.addr) ∧
      last.session.outbox =
        (owned.onWritable events env.writes).2.session.outbox.pushAll
          (Qmi.Session.answers M d.modem (requestsServed events env owned)) ∧
      (last.session.outbox.empty = true ↔
        (owned.onWritable events env.writes).2.session.outbox.empty = true ∧
          requestsServed events env owned = []) := by
  obtain ⟨w, -⟩ := reachable_subscribed run
  obtain ⟨events, env, rfl⟩ := w.target_of_gone here gone next
  obtain ⟨alive, last, here', addr, outbox⟩ := (orderly events env rfl).serve (M := M) here
  have served := (serves_serve (M := M) here events env).frame
  obtain ⟨last', there, -, -, ended⟩ := handleClient_inv w here (w.served here next)
  rw [here'] at there
  cases there
  rcases ended with ⟨dead, r⟩ | ⟨-, rfl⟩
  · rw [alive, Bool.not_eq_false', Bool.and_eq_true] at dead
    refine ⟨events, env, last, rfl, dead, ⟨?_, addr⟩, outbox, ?_⟩
    · rw [r.destroyed, served.destroyed]
    · rw [outbox, Outbox.empty_iff, Outbox.empty_iff, Outbox.pending_pushAll,
        List.append_eq_nil_iff, answers_eq_nil]
  · -- the session would still be there
    exact absurd addr (gone last here')

/-- A client connects, sends a request, and reads the response. -/
def answered : List Step :=
  [.deliver 6 EPOLLIN { accepts := [.client 7 true] },
    .deliver 7 EPOLLIN { reads := [.bytes Qmi.signalRequest] },
    .deliver 7 EPOLLOUT { writes := [.room 4096] }]

/-- The client may then end its input without a loss. -/
theorem halfClose_discards_answered :
    ∃ d d' last, (system sampleModem).exec (boot sampleDescriptors false) answered = some d ∧
      (system sampleModem).step d (.deliver 7 EPOLLIN { reads := [.bytes []] }) = some d' ∧
      d'.destroyed = d.destroyed ++ [⟨.qmiServer, last⟩] ∧ last.session.outbox.empty = true := by
  obtain ⟨events, env, last, same, -, ⟨destroyed, -⟩, -, empty⟩ :=
    halfClose_discards sampleModem sampleDescriptors false answered _ _ rfl
      (.deliver 7 EPOLLIN { reads := [.bytes []] }) rfl 7 _ rfl
      (by
        intro owned here
        cases here)
      (by
        intro events env same
        cases same
        exact ⟨by decide, by simp, by simp⟩)
  cases same
  exact ⟨_, _, last, rfl, rfl, destroyed, empty.mpr ⟨rfl, rfl⟩⟩

/-- A client connects, sends a request and ends its input, before the process gets to it. -/
def requestAndEnd : List Step :=
  [.deliver 6 EPOLLIN { accepts := [.client 7 true] },
    .deliver 7 EPOLLIN { reads := [.bytes Qmi.signalRequest, .bytes []] }]

/-- The response is thrown away. -/
theorem response_discarded :
    Orderly EPOLLIN { reads := [.bytes Qmi.signalRequest, .bytes []] } ∧
      ∃ d last, (system sampleModem).exec (boot sampleDescriptors false) requestAndEnd = some d ∧
        d.destroyed = [⟨.qmiServer, last⟩] ∧ last.session.outbox.empty = false ∧ last.sent = [] := by
  refine ⟨⟨by decide, by simp, by simp⟩, _, _, rfl, rfl, rfl, rfl⟩

end MiniModem.Daemon
