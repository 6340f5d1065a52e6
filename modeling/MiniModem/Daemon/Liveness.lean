import MiniModem.Daemon.Output
import MiniModem.Lib.Trace
import MiniModem.Qmi.Fragmentation

/-!
# What has to be sent is sent

Runs without an end, in which the kernel finds room for a descriptor again and again as long as it is asked
to look for it. The servers ask at the end of each callback of a session, if the session has something to
send. So all that is there then is sent in the end, unless the session goes. What is queued in the callback
of another descriptor waits for the next callback of the session, and this is all it takes
(`flushed_iff`).
-/

namespace MiniModem.Daemon
open Lib Transport Modem

/-- The kernel is to report when the descriptor has room. -/
def Watches {σ : Type*} (fd : Fd) (d : Daemon σ) : Prop :=
  ∃ events, d.loop.epoll.interest.lookup fd = some events ∧ has events EPOLLOUT = true

/-- The kernel reports that the descriptor has room, and then it has. -/
def Offers (fd : Fd) (step : Step) : Prop :=
  ∃ events env, step = .deliver fd events env ∧ has events EPOLLOUT = true ∧ hasRoom env.writes = true

/-- The session has sent all that was written for it by then, or it has gone. -/
def Flushed {σ : Type*} {server : Server} (fd : Fd) (owned : Owned server) (d : Daemon σ) : Prop :=
  ∀ owned', d.session? server fd = some owned' → owned'.addr = owned.addr → owned.output <+: owned'.sent

/-- The session is there, and has more to send than it had. -/
def Remains {σ : Type*} {server : Server} (fd : Fd) (owned : Owned server) (d : Daemon σ) : Prop :=
  ∃ owned', d.session? server fd = some owned' ∧ owned'.addr = owned.addr ∧ owned.output <+: owned'.output

/-- How much of the output of the session under a descriptor has not been sent. -/
def unsent {σ : Type*} {server : Server} (fd : Fd) (owned : Owned server) (d : Daemon σ) : ℕ :=
  match d.session? server fd with
  | none => 0
  | some owned' => owned.output.length - owned'.sent.length

section
variable {σ : Type*} {M : MiniModem.Modem σ} {fd : Fd} {server : Server} {owned : Owned server}
  {d d' : Daemon σ}

/-- A session that is gone has nothing to wait for. -/
lemma flushed_of_none (none : d.session? server fd = none) : Flushed fd owned d := by
  intro owned' here
  rw [none] at here
  cases here

/-- All of the output has been sent. -/
lemma flushed_of_sent {owned' : Owned server} (here : d.session? server fd = some owned')
    (all : owned.output <+: owned'.sent) : Flushed fd owned d := by
  intro owned'' there _
  rw [here] at there
  cases there
  exact all

/-- What is sent of the output is the beginning of it. -/
lemma prefix_output (owned : Owned server) : owned.sent <+: owned.output := List.prefix_append _ _

/-- A session that has not sent all yet has something to send. -/
lemma pending_of_part {owned' : Owned server} (longer : owned.output <+: owned'.output)
    (part : ¬ owned.output <+: owned'.sent) :
    owned'.session.outbox.pending ≠ [] ∧ owned'.sent.length < owned.output.length := by
  refine ⟨?_, ?_⟩
  · intro none
    rw [Owned.output, Owned.output, none, List.append_nil] at longer
    exact part longer
  · by_contra enough
    exact part (List.prefix_of_prefix_length_le longer (prefix_output owned') (Nat.le_of_not_lt enough))

/-- With output pending EPOLLOUT is asked for. -/
lemma eventsFor_pending (pending : owned.session.outbox.pending ≠ []) :
    has (eventsFor owned) EPOLLOUT = true := by
  rw [eventsFor_out, Session.hasPendingOutput, Bool.not_eq_true', ← Bool.not_eq_true, Outbox.empty_iff]
  exact pending

/-- A callback of its own leaves a session with nothing to send or with the kernel watching. -/
lemma Grows.remains {owned' after : Owned server} (grows : Grows owned' after)
    (there : d.session? server fd = some after) (same : owned'.addr = owned.addr)
    (longer : owned.output <+: owned'.output)
    (tracked : d.loop.epoll.interest.lookup fd = some (eventsFor after)) :
    Flushed fd owned d ∨ (Remains fd owned d ∧ Watches fd d) := by
  have longer' : owned.output <+: after.output := longer.trans grows.output
  by_cases all : owned.output <+: after.sent
  · exact .inl (flushed_of_sent there all)
  · obtain ⟨pending, -⟩ := pending_of_part longer' all
    exact .inr ⟨⟨after, there, grows.addr.trans same, longer'⟩, _, tracked, eventsFor_pending pending⟩

/-- As long as the output has not been sent, the kernel watches, and what it offers is used. -/
lemma step_unsent {step : Step} (w : Watched d) (run : (system M).step d step = some d')
    (remains : Remains fd owned d) (watches : Watches fd d) (part : ¬ Flushed fd owned d) :
    Flushed fd owned d' ∨ (Remains fd owned d' ∧ Watches fd d') ∧
      unsent fd owned d' ≤ unsent fd owned d ∧ (Offers fd step → unsent fd owned d' < unsent fd owned d) := by
  obtain ⟨owned', here, same, longer⟩ := remains
  have part' : ¬ owned.output <+: owned'.sent := fun all => part (flushed_of_sent here all)
  obtain ⟨pending, less⟩ := pending_of_part longer part'
  rcases step_grows w run here with
    ⟨other, ⟨after, there, further⟩, interest⟩ | ⟨events, env, rfl, gone | after⟩
  · refine .inr ⟨⟨⟨after, there, further.addr.trans same, longer.trans further.output⟩, ?_⟩, ?_, ?_⟩
    · rw [Watches, interest]
      exact watches
    · simp only [unsent, here, there, further.sent, le_refl]
    · intro offers
      obtain ⟨events, env, rfl, -, -⟩ := offers
      exact absurd rfl other
  · exact .inl (flushed_of_none gone)
  · obtain ⟨after, there, grows, tracked, sends⟩ := after
    rcases grows.remains there same longer tracked with flushed | further
    · exact .inl flushed
    · refine .inr ⟨further, ?_, ?_⟩
      · have more := grows.sent.length_le
        simp only [unsent, here, there]
        omega
      · intro offers
        obtain ⟨events', env', e, out, room⟩ := offers
        cases e
        have more := sends out room pending
        simp only [unsent, here, there]
        omega

end

section
variable {σ : Type*} {M : MiniModem.Modem σ} {fds : Descriptors} {modem : σ} {t : (system M).Trace} {n : ℕ}
  {server : Server} {fd : Fd} {owned : Owned server}

/-- The registrations are in order at all times. -/
lemma trace_watched (start : t.state 0 = boot fds modem) (n : ℕ) : Watched (t.state n) := by
  have run := t.exec n
  rw [start] at run
  exact (reachable_subscribed run).1

/-- If the kernel watches, all that a session has to send is sent. -/
lemma flushed_of_watches (start : t.state 0 = boot fds modem) (fair : t.Fair (Watches fd) (Offers fd))
    (remains : Remains fd owned (t.state n)) (watches : Watches fd (t.state n)) :
    ∃ k, n ≤ k ∧ Flushed fd owned (t.state k) := by
  by_cases flushed : Flushed fd owned (t.state n)
  · exact ⟨n, le_rfl, flushed⟩
  · refine t.leadsTo (P := fun d => (Remains fd owned d ∧ Watches fd d) ∧ ¬ Flushed fd owned d)
      fair ?_ (unsent fd owned) ?_ ⟨⟨remains, watches⟩, flushed⟩
    · exact fun d waits => waits.1.2
    · intro k waits
      obtain ⟨⟨remains, watches⟩, part⟩ := waits
      by_cases flushed : Flushed fd owned (t.state (k + 1))
      · exact .inl flushed
      · rcases step_unsent (trace_watched start k) (t.next k) remains watches part with done | ⟨further, less⟩
        · exact absurd done flushed
        · exact .inr ⟨⟨further, flushed⟩, less⟩

/-- After a callback of its own, all that a session has to send is sent. -/
lemma flushed_of_called (start : t.state 0 = boot fds modem) (fair : t.Fair (Watches fd) (Offers fd))
    (remains : Remains fd owned (t.state n)) (called : (t.input n).target = some fd) :
    ∃ k, n ≤ k ∧ Flushed fd owned (t.state k) := by
  obtain ⟨owned', here, same, longer⟩ := remains
  have next := step_grows (trace_watched start n) (t.next n) here
  rcases next with ⟨other, -, -⟩ | ⟨events, env, -, gone | ⟨after, there, grows, tracked, -⟩⟩
  · exact absurd called other
  · exact ⟨n + 1, Nat.le_succ n, flushed_of_none gone⟩
  · rcases grows.remains there same longer tracked with flushed | ⟨remains, watches⟩
    · exact ⟨n + 1, Nat.le_succ n, flushed⟩
    · obtain ⟨k, le, flushed⟩ := flushed_of_watches start fair remains watches
      exact ⟨k, (Nat.le_succ n).trans le, flushed⟩

/-- Until the next callback of its own a session stays, and sends nothing. -/
lemma idle_or_called (start : t.state 0 = boot fds modem) (here : (t.state n).session? server fd = some owned)
    {k : ℕ} (le : n ≤ k) :
    (∃ owned', (t.state k).session? server fd = some owned' ∧ Longer owned owned') ∨
      ∃ j, n ≤ j ∧ j < k ∧ Remains fd owned (t.state j) ∧ (t.input j).target = some fd := by
  have carry : ∀ k, (∃ owned', (t.state k).session? server fd = some owned' ∧ Longer owned owned') →
      ¬ (t.input k).target = some fd →
        ∃ owned', (t.state (k + 1)).session? server fd = some owned' ∧ Longer owned owned' := by
    intro k there other
    obtain ⟨owned', there, longer⟩ := there
    rcases step_grows (trace_watched start k) (t.next k) there with ⟨-, ⟨after, there', further⟩, -⟩ |
      ⟨events, env, e, -⟩
    · exact ⟨after, there', longer.trans further⟩
    · rw [e] at other
      exact absurd rfl other
  rcases t.holds_or_meets (I := fun d => ∃ owned', d.session? server fd = some owned' ∧ Longer owned owned')
    (C := fun step => step.target = some fd) carry ⟨owned, here, .refl owned⟩ le with
    idle | ⟨j, after, before, ⟨owned', there, longer⟩, called⟩
  · exact .inl idle
  · exact .inr ⟨j, after, before, ⟨owned', there, longer.addr, longer.output⟩, called⟩

end

/-- In a run without an end, in which the kernel offers room for the descriptor of a session again and again
as long as it watches for it, what a session has to send is all sent at some time, unless the session goes
before, exactly if there is nothing to send or the session is called again. This is so when the kernel is
watching already, and so after every callback of the session. -/
theorem flushed_iff {σ : Type*} (M : MiniModem.Modem σ) (fds : Descriptors) (modem : σ)
    (t : (system M).Trace) (start : t.state 0 = boot fds modem) (fd : Fd)
    (fair : t.Fair (Watches fd) (Offers fd)) (n : ℕ) (server : Server) (owned : Owned server)
    (here : (t.state n).session? server fd = some owned) :
    ((∃ k, n ≤ k ∧ Flushed fd owned (t.state k)) ↔
        owned.session.outbox.pending = [] ∨ ∃ k, n ≤ k ∧ (t.input k).target = some fd) ∧
      (Watches fd (t.state n) → ∃ k, n ≤ k ∧ Flushed fd owned (t.state k)) ∧
      ((∃ i, n = i + 1 ∧ (t.input i).target = some fd) → ∃ k, n ≤ k ∧ Flushed fd owned (t.state k)) := by
  have remains : Remains fd owned (t.state n) := ⟨owned, here, rfl, List.prefix_refl _⟩
  have nothing : owned.session.outbox.pending = [] → Flushed fd owned (t.state n) := by
    intro none
    refine flushed_of_sent here ?_
    rw [Owned.output, none, List.append_nil]
  refine ⟨⟨?_, ?_⟩, flushed_of_watches start fair remains, ?_⟩
  · intro ends
    obtain ⟨k, le, flushed⟩ := ends
    rcases idle_or_called start here le with ⟨owned', there, longer⟩ | ⟨j, after, -, -, called⟩
    · -- nothing has been sent since
      have all := flushed owned' there longer.addr
      rw [longer.sent] at all
      have length := all.length_le
      rw [Owned.output, List.length_append] at length
      exact .inl (List.length_eq_zero_iff.mp (by omega))
    · exact .inr ⟨j, after, called⟩
  · intro either
    rcases either with none | ⟨k, le, called⟩
    · exact ⟨n, le_rfl, nothing none⟩
    · rcases idle_or_called start here le with ⟨owned', there, longer⟩ | ⟨j, after, -, there, called'⟩
      · have remains : Remains fd owned (t.state k) := ⟨owned', there, longer.addr, longer.output⟩
        obtain ⟨k', le', flushed⟩ := flushed_of_called start fair remains called
        exact ⟨k', le.trans le', flushed⟩
      · obtain ⟨k', le', flushed⟩ := flushed_of_called start fair there called'
        exact ⟨k', after.trans le', flushed⟩
  · intro before
    obtain ⟨i, rfl, called⟩ := before
    rcases step_spec (trace_watched start i) (t.next i) server fd with ⟨other, -⟩ | ⟨tracked, -⟩
    · exact absurd called other
    · by_cases pending : owned.session.outbox.pending = []
      · exact ⟨i + 1, le_rfl, nothing pending⟩
      · exact flushed_of_watches start fair remains ⟨_, tracked owned here, eventsFor_pending pending⟩

/-- A client connects, a registration is published, and the client sends a request and takes what the session
has for it. -/
def lateRequest : List Step :=
  [.deliver 6 EPOLLIN { accepts := [.client 8 true] }, .deliver 5 EPOLLIN {},
    .deliver 8 EPOLLIN { reads := [.bytes Qmi.signalRequest] },
    .deliver 8 EPOLLOUT { writes := [.room 4096, .room 4096] }]

/-- The indication waits for the request of the client, and then it is sent. -/
theorem flushed_iff_lateRequest :
    ∃ t : (system sampleModem).Trace, t.state 0 = boot sampleDescriptors false ∧
      t.Fair (Watches 8) (Offers 8) ∧ ∃ owned : Owned .qmiServer,
        (t.state 2).session? .qmiServer 8 = some owned ∧ owned.session.outbox.pending ≠ [] ∧
          ¬ Watches 8 (t.state 2) ∧ ∃ k, 2 ≤ k ∧ Flushed 8 owned (t.state k) := by
  obtain ⟨d, run, idle, unwatched⟩ : ∃ d, (system sampleModem).exec (boot sampleDescriptors false) lateRequest =
      some d ∧ (system sampleModem).step d (.deliver 9 0 {}) = some d ∧
        d.loop.epoll.interest.lookup 8 = some sessionEvents := ⟨_, rfl, rfl, rfl⟩
  obtain ⟨t, start, inputs, last⟩ := System.Trace.exists_idle run idle
  have fair : t.Fair (Watches 8) (Offers 8) := by
    intro n always
    -- in the end the kernel does not watch
    obtain ⟨events, watched, out⟩ := always (max n lateRequest.length) (le_max_left _ _)
    rw [(last _ (le_max_right _ _)).1, unwatched] at watched
    cases watched
    cases out
  have second := t.exec 2
  have both : (List.range 2).map t.input = lateRequest.take 2 := by
    simp only [List.range_succ, List.range_zero, List.nil_append, List.map_append, List.map_cons, List.map_nil,
      inputs 0 _ rfl, inputs 1 _ rfl]
    rfl
  rw [start, both] at second
  have published : ∀ d',
      (system sampleModem).exec (boot sampleDescriptors false) (lateRequest.take 2) = some d' →
      ∃ owned : Owned .qmiServer, d'.session? .qmiServer 8 = some owned ∧ owned.session.outbox.pending ≠ [] ∧
        d'.loop.epoll.interest.lookup 8 = some sessionEvents := by
    intro d' run
    cases run
    exact ⟨_, rfl, by decide, rfl⟩
  obtain ⟨owned, here, pending, unwatched'⟩ := published _ second
  refine ⟨t, start, fair, owned, here, pending, ?_, ?_⟩
  · intro watches
    obtain ⟨events, watched, out⟩ := watches
    rw [unwatched'] at watched
    cases watched
    cases out
  · refine (flushed_iff sampleModem sampleDescriptors false t start 8 fair 2 .qmiServer owned here).1.mpr ?_
    refine .inr ⟨2, le_rfl, ?_⟩
    rw [inputs 2 _ rfl]
    rfl

end MiniModem.Daemon
