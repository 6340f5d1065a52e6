import MiniModem.Daemon.FanOut
import MiniModem.Daemon.Leaving

/-!
# The order of iteration

`EventBus::publish` iterates over the handlers and the destructors of the servers over the sessions, in
whatever order their containers have. No handler notices (`perform_inOrder`), and the sessions are destroyed
as they are, only one before the other; so two processes that differ in nothing else end in the same way, with
the same sessions destroyed (`main_ordered`).
-/

namespace MiniModem.Daemon
open Lib Transport Modem

/-- The same step, in which the bus is iterated in this order. -/
def Step.inOrder (order : IterationOrder) : Step → Step
  | createPty pty registers => createPty pty registers
  | deliver fd events env => deliver fd events { env with order }
  | publish _ event => publish order event

/-- The same event, in whose callback the bus is iterated in this order. -/
def Event.inOrder (order : IterationOrder) (event : Event) : Event :=
  { event with env := { event.env with order } }

/-- The same answers of the kernel, when the bus is always iterated in this order. -/
def Kernel.inOrder (order : IterationOrder) (k : Kernel) : Kernel :=
  { k with waits := k.waits.map (Option.map (List.map (Event.inOrder order))) }

/-- Both processes have ended in the same way, and the same sessions have been destroyed in the same state, if
perhaps not in the same order. -/
structure SameEnd {σ : Type*} (exit exit' : Exit σ) : Prop where
  ending : exit'.ending = exit.ending
  socketFile : exit'.process.socketFile = exit.process.socketFile
  modem : exit'.process.daemon.modem = exit.process.daemon.modem
  destroyed : exit'.process.daemon.destroyed.Perm exit.process.daemon.destroyed

variable {σ : Type*} {M : MiniModem.Modem σ}

/-- A process ends as it ends. -/
lemma SameEnd.refl (exit : Exit σ) : SameEnd exit exit := ⟨rfl, rfl, rfl, .refl _⟩

/-! ### The bus -/

/-- The order does not matter for several events, as it does not matter for one. -/
lemma publishAll_order (order order' : IterationOrder) (events : List ModemEvent) (d : Daemon σ) :
    d.publishAll order events = d.publishAll order' events := by
  induction events generalizing d with
  | nil => rfl
  | cons event events ih =>
    rw [publishAll, List.foldl_cons, publish_order order order' event d]
    exact ih _

/-- A line has the same effect for any order. -/
lemma handleLine_order (order order' : IterationOrder) (fd : Fd) :
    handleLine M order fd = handleLine M order' fd := by
  funext line d
  simp only [handleLine, publishAll_order order order']

/-- The input of a session has the same effect for any order. -/
lemma onReadable_order (server : Server) (fd : Fd) (events : Events) (env : Environment)
    (order : IterationOrder) (owned : Owned server) (d : Daemon σ) :
    d.onReadable M server fd events { env with order } owned = d.onReadable M server fd events env owned := by
  cases server with
  | atServer => simp only [onReadable, handleLine_order order env.order]
  | qmiServer => rfl

/-- Serving a session has the same effect for any order. -/
lemma serve_order (server : Server) (fd : Fd) (events : Events) (env : Environment) (order : IterationOrder)
    (owned : Owned server) (d : Daemon σ) :
    d.serve M server fd events { env with order } owned = d.serve M server fd events env owned := by
  rw [serve_eq, serve_eq]
  simp only [onReadable_order]

/-- The callback of a session has the same effect for any order. -/
lemma handleClient_order (server : Server) (fd : Fd) (events : Events) (env : Environment)
    (order : IterationOrder) (d : Daemon σ) :
    d.handleClient M server fd events { env with order } = d.handleClient M server fd events env := by
  rw [handleClient, handleClient]
  rcases d.session? server fd with _ | owned
  · rfl
  · simp only [serve_order]

/-- The callback of the timer has the same effect for any order. -/
lemma networkTimer_order (order order' : IterationOrder) (events : Events) (d : Daemon σ) :
    d.networkTimer M events order = d.networkTimer M events order' := by
  rw [networkTimer, networkTimer]
  simp only [publishAll_order order order']

/-- The order has no part in what the kernel may do. -/
lemma possible_inOrder (order : IterationOrder) (step : Step) (d : Daemon σ) :
    d.possible (step.inOrder order) = d.possible step := by
  cases step with
  | createPty pty registers => rfl
  | deliver fd events env => rfl
  | publish order' event => rfl

/-- What a step does is the same for any order. -/
lemma perform_inOrder (order : IterationOrder) (step : Step) (d : Daemon σ) :
    d.perform M (step.inOrder order) = d.perform M step := by
  cases step with
  | createPty pty registers => rfl
  | deliver fd events env =>
    rw [Step.inOrder, perform, perform]
    rcases d.loop.callbacks.lookup fd with _ | callback
    · rfl
    · cases callback with
      | signal => rfl
      | acceptClients => rfl
      | networkTimer => simp only [call, networkTimer_order order env.order]
      | session server fd' => exact handleClient_order server fd' events env order d
  | publish order' event => rw [Step.inOrder, perform, perform, publish_order order order' event d]

/-- The order has no part in whether a `write` raises SIGPIPE. -/
lemma brokenPipe?_inOrder (order : IterationOrder) (event : Event) (d : Daemon σ) :
    d.brokenPipe? (event.inOrder order) = d.brokenPipe? event := rfl

/-- The inner loop does the same for any order. -/
lemma work_inOrder (order : IterationOrder) (batch : List Event) (d : Daemon σ) :
    work M (batch.map (Event.inOrder order)) d = work M batch d := by
  induction batch generalizing d with
  | nil => rfl
  | cons event batch ih =>
    have step : (event.inOrder order).step = event.step.inOrder order := rfl
    have sigpipe : (event.inOrder order).env.sigpipe = event.env.sigpipe := rfl
    rw [List.map_cons, work, work, step, possible_inOrder, perform_inOrder, brokenPipe?_inOrder, sigpipe]
    simp only [ih]

/-- The outer loop does the same for any order. -/
lemma turns_inOrder (order : IterationOrder) (waits : List Wait) (d : Daemon σ) :
    turns M (waits.map (Option.map (List.map (Event.inOrder order)))) d = turns M waits d := by
  induction waits generalizing d with
  | nil => rfl
  | cons wait waits ih =>
    cases wait with
    | none => rw [List.map_cons, Option.map_none, turns, turns]
    | some batch =>
      rw [List.map_cons, Option.map_some, turns, turns, work_inOrder]
      simp only [ih]

/-- What `main` does with all objects is the same for any order. -/
lemma serveClients_inOrder (order : IterationOrder) (k : Kernel) (d : Daemon σ) :
    serveClients M (k.inOrder order) d = serveClients M k d := by
  rw [serveClients, serveClients]
  simp only [Kernel.inOrder, turns_inOrder]

/-- What `main` does is the same for any order of the bus. -/
lemma main_inOrder (order : IterationOrder) (sessionOrder : SessionOrder) (path : Bytes) (k : Kernel)
    (p : Process σ) : main M sessionOrder path (k.inOrder order) p = main M sessionOrder path k p := by
  rw [main, main]
  simp only [serveClients_inOrder]
  rfl

/-! ### The sessions -/

/-- The destroyed session, for a descriptor with a session. -/
def record? (d : Daemon σ) (server : Server) (fd : Fd) : Option ((server : Server) × Owned server) :=
  (d.session? server fd).map fun owned => ⟨server, owned⟩

/-- The sessions of a server, as they will be destroyed. -/
def records (d : Daemon σ) (server : Server) : List ((server : Server) × Owned server) :=
  (d.sessions server).keys.filterMap (d.record? server)

/-- The record of a session depends on the container only. -/
lemma record?_congr {d d' : Daemon σ} {server : Server} (same : d'.sessions server = d.sessions server) :
    d'.record? server = d.record? server := by
  funext fd
  rw [record?, record?, session?, session?, same]

/-- So do the records of all sessions. -/
lemma records_congr {d d' : Daemon σ} {server : Server} (same : d'.sessions server = d.sessions server) :
    d'.records server = d.records server := by
  rw [records, records, record?_congr same, same]

/-- A destroyed session is recorded; the modem and the containers stay as they are. -/
lemma destroy_keeps (server : Server) (owned : Owned server) (d : Daemon σ) :
    (d.destroy server owned).modem = d.modem ∧
      (d.destroy server owned).destroyed = d.destroyed ++ [⟨server, owned⟩] ∧
      (d.destroy server owned).sessions = d.sessions := by
  rw [destroy]
  split
  · exact ⟨rfl, rfl, rfl⟩
  · exact ⟨rfl, rfl, rfl⟩

/-- Destroying sessions one after the other records them in that order. -/
lemma foldl_destroyAt_keeps (server : Server) (todo : List Fd) (d : Daemon σ) :
    (todo.foldl (destroyAt server) d).modem = d.modem ∧
      (todo.foldl (destroyAt server) d).destroyed = d.destroyed ++ todo.filterMap (d.record? server) ∧
      (todo.foldl (destroyAt server) d).sessions = d.sessions := by
  induction todo generalizing d with
  | nil => exact ⟨rfl, (List.append_nil _).symm, rfl⟩
  | cons fd todo ih =>
    rw [List.foldl_cons]
    obtain ⟨modem, destroyed, sessions⟩ := ih (d.destroyAt server fd)
    rcases here : d.session? server fd with _ | owned
    · have nothing : d.destroyAt server fd = d := by
        rw [destroyAt, here]
      have none : d.record? server fd = none := by
        rw [record?, here]
        rfl
      rw [nothing] at modem destroyed sessions ⊢
      exact ⟨modem, by rw [destroyed, List.filterMap_cons_none none], sessions⟩
    · have first : d.destroyAt server fd = d.destroy server owned := by
        rw [destroyAt, here]
      obtain ⟨modem', destroyed', sessions'⟩ := destroy_keeps server owned d
      have some : d.record? server fd = some ⟨server, owned⟩ := by
        rw [record?, here]
        rfl
      have same : (d.destroy server owned).record? server = d.record? server :=
        record?_congr (congrFun sessions' server)
      rw [first] at modem destroyed sessions ⊢
      refine ⟨modem.trans modem', ?_, sessions.trans sessions'⟩
      rw [destroyed, destroyed', same, List.filterMap_cons_some some, List.append_assoc, List.singleton_append]

/-- `sessions_.clear()` records all sessions of the container in some order. -/
lemma clearSessions_keeps (server : Server) (order : SessionOrder) (d : Daemon σ) :
    (d.clearSessions server order).modem = d.modem ∧
      (d.clearSessions server order).destroyed.Perm (d.destroyed ++ d.records server) ∧
      ∀ server', server' ≠ server → (d.clearSessions server order).sessions server' = d.sessions server' := by
  obtain ⟨modem, destroyed, sessions⟩ :=
    foldl_destroyAt_keeps server (order.order (d.sessions server).keys) d
  refine ⟨modem, ?_, ?_⟩
  · show ((order.order (d.sessions server).keys).foldl (destroyAt server) d).destroyed.Perm _
    rw [destroyed]
    exact ((order.perm _).filterMap _).append_left _
  · intro server' ne
    rw [← sessions]
    exact Function.update_of_ne ne _ _

/-- A session that is removed is recorded. -/
lemma removeSession_keeps {server : Server} {fd : Fd} {owned : Owned server} {d : Daemon σ}
    (here : d.session? server fd = some owned) :
    (d.removeSession server fd).modem = d.modem ∧
      (d.removeSession server fd).destroyed = d.destroyed ++ [⟨server, owned⟩] := by
  have there : ({ d with loop := d.loop.removeFd fd } : Daemon σ).session? server fd = some owned := here
  simp only [removeSession, there]
  exact ⟨(destroy_keeps server owned _).1, (destroy_keeps server owned _).2.1⟩

/-- The sessions that are left when one is removed. -/
lemma records_removeSession {server : Server} {fd : Fd} {owned : Owned server} {d : Daemon σ}
    (here : d.session? server fd = some owned) :
    (d.records server).Perm (⟨server, owned⟩ :: (d.removeSession server fd).records server) := by
  have mem : fd ∈ (d.sessions server).keys := mem_sessions.mpr ⟨owned, here⟩
  have sessions := removeSession_sessions here
  have some : d.record? server fd = some ⟨server, owned⟩ := by
    rw [record?, here]
    rfl
  have rest : ((d.sessions server).keys.erase fd).filterMap ((d.removeSession server fd).record? server) =
      ((d.sessions server).keys.erase fd).filterMap (d.record? server) := by
    refine List.filterMap_congr fun fd' mem' => ?_
    have ne : fd' ≠ fd := ((AList.keys_nodup _).mem_erase_iff.mp mem').1
    rw [record?, record?, session?, session?, sessions, AList.lookup_erase_ne ne]
  have split := (List.perm_cons_erase mem).filterMap (d.record? server)
  rw [List.filterMap_cons_some some] at split
  rw [records, records, sessions, AList.keys_erase, rest]
  exact split

/-- Removing the sessions one by one records all of them in some order. -/
lemma removeSessions_keeps (server : Server) (order : SessionOrder) {turns : ℕ} {d : Daemon σ}
    (enough : (d.sessions server).keys.length ≤ turns) :
    (d.removeSessions server order turns).modem = d.modem ∧
      (d.removeSessions server order turns).destroyed.Perm (d.destroyed ++ d.records server) := by
  -- without sessions there is nothing to do
  have finished : ∀ d : Daemon σ, (d.sessions server).keys = [] →
      d.modem = d.modem ∧ d.destroyed.Perm (d.destroyed ++ d.records server) := by
    intro d empty
    rw [records, empty, List.filterMap_nil, List.append_nil]
    exact ⟨rfl, .refl _⟩
  induction turns generalizing d with
  | zero => exact finished d (List.length_eq_zero_iff.mp (Nat.le_zero.mp enough))
  | succ turns ih =>
    rw [removeSessions]
    rcases first : order.order (d.sessions server).keys with _ | ⟨fd, fds⟩
    · have empty := order.perm (d.sessions server).keys
      rw [first] at empty
      exact finished d empty.nil_eq.symm
    · have mem : fd ∈ (d.sessions server).keys := by
        rw [← (order.perm _).mem_iff, first]
        exact List.mem_cons_self
      obtain ⟨owned, here⟩ := mem_sessions.mp mem
      have fewer : ((d.removeSession server fd).sessions server).keys.length ≤ turns := by
        rw [removeSession_sessions here, AList.keys_erase, List.length_erase_of_mem mem]
        omega
      obtain ⟨modem, destroyed⟩ := ih fewer
      obtain ⟨modem', destroyed'⟩ := removeSession_keeps here
      refine ⟨modem.trans modem', destroyed.trans ?_⟩
      rw [destroyed', List.append_assoc]
      exact (records_removeSession here).symm.append_left _

/-- Closing the socket leaves the sessions alone. -/
lemma closeListenFd_keeps (d : Daemon σ) :
    d.closeListenFd.modem = d.modem ∧ d.closeListenFd.destroyed = d.destroyed ∧
      d.closeListenFd.sessions = d.sessions := by
  rw [closeListenFd]
  split
  · exact ⟨rfl, rfl, rfl⟩
  · exact ⟨rfl, rfl, rfl⟩

/-- `~at::Server` records all sessions of its container in some order. -/
lemma destructor_keeps (order : SessionOrder) (d : Daemon σ) :
    (d.destructor .atServer order).modem = d.modem ∧
      (d.destructor .atServer order).destroyed.Perm (d.destroyed ++ d.records .atServer) :=
  removeSessions_keeps .atServer order le_rfl

/-- The destructors destroy the sessions there are, and leave the modem. -/
lemma unwind_keeps (order : SessionOrder) (d : Daemon σ) :
    (d.unwind order).modem = d.modem ∧
      (d.unwind order).destroyed.Perm (d.destroyed ++ d.records .qmiServer ++ d.records .atServer) := by
  obtain ⟨modem, destroyed, sessions⟩ := closeListenFd_keeps d
  obtain ⟨modem', destroyed', others⟩ := clearSessions_keeps .qmiServer order d.closeListenFd
  obtain ⟨modem'', destroyed''⟩ := destructor_keeps order (d.destructor .qmiServer order)
  have same : ∀ server, d.closeListenFd.records server = d.records server :=
    fun server => records_congr (congrFun sessions server)
  have left : (d.destructor .qmiServer order).records .atServer = d.records .atServer :=
    (records_congr (others .atServer (by decide))).trans (same .atServer)
  refine ⟨modem''.trans (modem'.trans modem), destroyed''.trans ?_⟩
  rw [left]
  rw [destroyed, same] at destroyed'
  exact destroyed'.append_right _

/-- The event loop is destroyed without touching the modem or the records. -/
lemma destroyLoop_keeps (k : Kernel) (d : Daemon σ) :
    (d.destroyLoop k).modem = d.modem ∧ (d.destroyLoop k).destroyed = d.destroyed := by
  rw [destroyLoop]
  split
  · exact ⟨rfl, rfl⟩
  · exact ⟨rfl, rfl⟩

/-- The ends of two processes whose sessions are destroyed in different orders. -/
lemma sameEnd_unwind (order order' : SessionOrder) (k : Kernel) (ending : Ending) (socketFile : Bool)
    (d : Daemon σ) :
    SameEnd ⟨ending, ⟨(d.unwind order).destroyLoop k, socketFile⟩⟩
      ⟨ending, ⟨(d.unwind order').destroyLoop k, socketFile⟩⟩ := by
  obtain ⟨modem, destroyed⟩ := unwind_keeps order d
  obtain ⟨modem', destroyed'⟩ := unwind_keeps order' d
  refine ⟨rfl, rfl, ?_, ?_⟩
  · show ((d.unwind order').destroyLoop k).modem = ((d.unwind order).destroyLoop k).modem
    rw [(destroyLoop_keeps k _).1, (destroyLoop_keeps k _).1, modem, modem']
  · show ((d.unwind order').destroyLoop k).destroyed.Perm ((d.unwind order).destroyLoop k).destroyed
    rw [(destroyLoop_keeps k _).2, (destroyLoop_keeps k _).2]
    exact destroyed'.trans destroyed.symm

/-- The same if only `~at::Server` runs. -/
lemma sameEnd_destructor (order order' : SessionOrder) (k : Kernel) (ending : Ending) (p : Process σ) :
    SameEnd ⟨ending, { p with daemon := (p.daemon.destructor .atServer order).destroyLoop k }⟩
      ⟨ending, { p with daemon := (p.daemon.destructor .atServer order').destroyLoop k }⟩ := by
  obtain ⟨modem, destroyed⟩ := destructor_keeps order p.daemon
  obtain ⟨modem', destroyed'⟩ := destructor_keeps order' p.daemon
  refine ⟨rfl, rfl, ?_, ?_⟩
  · show ((p.daemon.destructor .atServer order').destroyLoop k).modem =
      ((p.daemon.destructor .atServer order).destroyLoop k).modem
    rw [(destroyLoop_keeps k _).1, (destroyLoop_keeps k _).1, modem, modem']
  · show ((p.daemon.destructor .atServer order').destroyLoop k).destroyed.Perm
      ((p.daemon.destructor .atServer order).destroyLoop k).destroyed
    rw [(destroyLoop_keeps k _).2, (destroyLoop_keeps k _).2]
    exact destroyed'.trans destroyed.symm

/-- Two processes to which the kernel gives the same answers, in whatever orders their containers are iterated,
end in the same way or do not end: with the same exit code or killed by SIGPIPE, with the same state of the
modem, and with the same sessions destroyed, with what they have sent and what was pending. -/
theorem main_ordered {σ : Type*} (M : MiniModem.Modem σ) (order order' : SessionOrder) (path : Bytes)
    (k k' : Kernel) (same : k'.inOrder .entries = k.inOrder .entries) (p : Process σ) :
    (main M order' path k' p = none ↔ main M order path k p = none) ∧
      ∀ exit exit', main M order path k p = some exit → main M order' path k' p = some exit' →
        SameEnd exit exit' := by
  rw [← main_inOrder .entries order' path k', same, main_inOrder]
  -- the order matters where destructors run
  have both : ∀ {e e' : Exit σ}, SameEnd e e' → (some e' = none ↔ some e = none) ∧
      ∀ exit exit', some e = some exit → some e' = some exit' → SameEnd exit exit' := by
    intro e e' ended
    refine ⟨by simp, ?_⟩
    intro exit exit' first second
    cases first
    cases second
    exact ended
  rw [main, main]
  rcases createLoop k p.daemon with d | d
  · rcases k.timerFd with _ | timerFd
    · exact both (.refl _)
    · simp only
      rcases createServer k path _ with p' | p'
      · simp only
        rcases serveClients M k p'.daemon with _ | d' | d' | d'
        · exact ⟨Iff.rfl, fun exit exit' ended => by cases ended⟩
        · exact both (sameEnd_unwind order order' k (.exited 0) (!k.unlinkAtEnd) d')
        · exact both (sameEnd_unwind order order' k (.exited 1) (!k.unlinkAtEnd) d')
        · exact both (.refl _)
      · exact both (sameEnd_destructor order order' k (.exited 1) p')
  · exact both (.refl _)

/-- Backwards through the entries. -/
def backwards : IterationOrder := ⟨List.reverse, fun ids => ids.reverse_perm⟩

/-- Two clients connect, a registration is published, and a signal ends the loop. -/
def bothConnect (order : IterationOrder) : Kernel :=
  { stopped with
    waits :=
      [some [⟨6, EPOLLIN, { accepts := [.client 8 true, .client 9 true] }⟩], some [⟨5, EPOLLIN, { order }⟩],
        some [⟨4, EPOLLIN, {}⟩]] }

/-- Two processes that destroy their sessions in different orders. -/
theorem main_ordered_bothConnect :
    ∃ exit exit',
      main sampleModem .entries [47, 113] (bothConnect .entries) (start [0, 1, 2] false false) = some exit ∧
      main sampleModem ⟨List.reverse, fun fds => fds.reverse_perm⟩ [47, 113] (bothConnect backwards)
          (start [0, 1, 2] false false) = some exit' ∧
        exit.process.daemon.destroyed.map (fun record => record.2.addr) = [2, 1, 0] ∧
        exit'.process.daemon.destroyed.map (fun record => record.2.addr) = [1, 2, 0] ∧ SameEnd exit exit' := by
  obtain ⟨exit, ends, addrs⟩ : ∃ exit,
      main sampleModem .entries [47, 113] (bothConnect .entries) (start [0, 1, 2] false false) = some exit ∧
        exit.process.daemon.destroyed.map (fun record => record.2.addr) = [2, 1, 0] := ⟨_, rfl, rfl⟩
  obtain ⟨exit', ends', addrs'⟩ : ∃ exit',
      main sampleModem ⟨List.reverse, fun fds => fds.reverse_perm⟩ [47, 113] (bothConnect backwards)
          (start [0, 1, 2] false false) = some exit' ∧
        exit'.process.daemon.destroyed.map (fun record => record.2.addr) = [1, 2, 0] := ⟨_, rfl, rfl⟩
  have same : (bothConnect backwards).inOrder .entries = (bothConnect .entries).inOrder .entries := rfl
  have ordered := main_ordered sampleModem .entries ⟨List.reverse, fun fds => fds.reverse_perm⟩ [47, 113]
    (bothConnect .entries) (bothConnect backwards) same (start [0, 1, 2] false false)
  exact ⟨exit, exit', ends, ends', addrs, addrs', ordered.2 exit exit' ends ends'⟩

end MiniModem.Daemon
