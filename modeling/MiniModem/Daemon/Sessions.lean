import MiniModem.Daemon.WakeUp

/-!
# Sessions across a step

What one step of the daemon makes of one session. A session that was there before is served, or it only
hears the events of the step (`step_owned`); one that was not there before has done nothing yet
(`step_new`). With the rule that adds a property to an invariant (`Kept.and`) these lemmas are what the
properties of single sessions are proved from.
-/

namespace MiniModem.Daemon
open Lib Transport Modem

variable {σ : Type*} {M : MiniModem.Modem σ}

/-- A session that has done nothing yet. -/
structure Unused {server : Server} (owned : Owned server) : Prop where
  input : owned.session.input = server.newInput
  outbox : owned.session.outbox = {}
  sent : owned.sent = []

/-- An event for a descriptor leads to a call of its callback, if there is one. -/
lemma step_call {d d' : Daemon σ} {fd : Fd} {events : Events} {env : Environment} {callback : Callback}
    (run : (system M).step d (.deliver fd events env) = some d')
    (found : d.loop.callbacks.lookup fd = some callback) :
    fresh d.openFds env.accepts = true ∧ d.call M events env callback = .returned d' := by
  simp only [system, possible, perform, found] at run
  split at run
  · next new => exact ⟨new, Outcome.value?_eq_some.mp run⟩
  · cases run

/-- A property that is kept along with an invariant. -/
lemma Kept.and {P Q : Daemon σ → Prop} (k : Kept P)
    (same : ∀ d d', P d → Q d → SameFrame d d' → Q d')
    (created : ∀ server fd d d', P d → Q d → fd ∉ d.openFds → Created server fd d d' → Q d')
    (removed : ∀ server fd owned d d', P d → Q d → d.session? server fd = some owned →
      Removed server fd owned d d' → Q d')
    (updated : ∀ d interest, Q d →
      Q { d with loop := { d.loop with epoll := ⟨interest⟩ } })
    (stopped : ∀ d, Q d → Q { d with loop := d.loop.stop }) : Kept fun d => P d ∧ Q d where
  watched d both := k.watched d both.1
  same d d' both frame := ⟨k.same d d' both.1 frame, same d d' both.1 both.2 frame⟩
  created server fd d d' both new c :=
    ⟨k.created server fd d d' both.1 new c, created server fd d d' both.1 both.2 new c⟩
  removed server fd owned d d' both here r :=
    ⟨k.removed server fd owned d d' both.1 here r, removed server fd owned d d' both.1 both.2 here r⟩
  updated server fd owned d both here := ⟨k.updated server fd owned d both.1 here, updated d _ both.2⟩
  stopped d both := ⟨k.stopped d both.1, stopped d both.2⟩

/-- The descriptors of the process stay the same. -/
lemma kept_fixed (fds : Fd × Fd × Fd) :
    Kept fun d : Daemon σ => Watched d ∧ (d.signalFd, d.listenFd, d.timerFd) = fds := by
  refine kept_watched.and ?_ ?_ ?_ ?_ ?_
  · intro d d' _ e same
    rw [same.signalFd, same.listenFd, same.timerFd, e]
  · intro server fd d d' _ e _ c
    rw [c.fixed.1, c.fixed.2.1, c.fixed.2.2, e]
  · intro server fd owned d d' _ e _ r
    rw [r.fixed.1, r.fixed.2.1, r.fixed.2.2, e]
  · exact fun _ _ e => e
  · exact fun _ e => e

/-- The descriptors of the process never change. -/
lemma step_fixed {d d' : Daemon σ} {step : Step} (w : Watched d)
    (run : (system M).step d step = some d') :
    d'.signalFd = d.signalFd ∧ d'.listenFd = d.listenFd ∧ d'.timerFd = d.timerFd := by
  have fixed := ((kept_fixed (d.signalFd, d.listenFd, d.timerFd)).step ⟨w, rfl⟩ run).2
  simpa only [Prod.mk.injEq] using fixed

/-- A session that was there before is served in the step, or only hears its events. -/
lemma step_owned {d d' : Daemon σ} {step : Step} (w : Watched d)
    (run : (system M).step d step = some d') {server : Server} {fd : Fd} {owned : Owned server}
    (here : d.session? server fd = some owned) :
    (∃ events env, step = .deliver fd events env ∧
        d.handleClient M server fd events env = .returned d') ∨
      (step.target ≠ some fd ∧ Heard M d step d' server fd) := by
  rcases step_spec w run server fd with heard | ⟨-, target | none⟩
  · exact .inr heard
  · cases step with
    | createPty pty registers => cases target
    | deliver fd' events env =>
      cases target
      exact .inl ⟨events, env, rfl, w.served here run⟩
    | publish order event => cases target
  · rw [none] at here
    cases here

/-- The callback of a session creates no session. -/
lemma handleClient_old {d d' : Daemon σ} (w : Watched d) {server server' : Server} {fd fd' : Fd}
    {owned : Owned server} {after : Owned server'} (here : d.session? server fd = some owned)
    {events : Events} {env : Environment} (run : d.handleClient M server fd events env = .returned d')
    (there : d'.session? server' fd' = some after) :
    ∃ before, d.session? server' fd' = some before := by
  have old : ∀ {after}, (d.serve M server fd events env owned).2.session? server' fd' = some after →
      ∃ before, d.session? server' fd' = some before := by
    intro after there
    obtain ⟨before, was, -⟩ := (serves_serve (M := M) here events env).frame.symm.owned there
    exact ⟨before, was⟩
  obtain ⟨last, -, -, -, ⟨-, r⟩ | ⟨-, rfl⟩⟩ := handleClient_inv w here run
  · exact old (r.session_iff.mp there).2
  · exact old there

/-- A session that was not there before is new. -/
def Newcomer (d : Daemon σ) {server : Server} (fd : Fd) (owned : Owned server) : Prop :=
  Unused owned ∧ owned.session.fd = fd ∧ d.allocated ≤ owned.addr

/-- A new session is a newcomer. -/
lemma newSession_newcomer {d d' : Daemon σ} (server : Server) (fd : Fd) (le : d.allocated ≤ d'.allocated) :
    Newcomer d fd (d'.newSession server fd) :=
  ⟨⟨rfl, rfl, rfl⟩, rfl, le⟩

/-- Sessions that are created in a step are newcomers. -/
lemma step_new {d d' : Daemon σ} {step : Step} (w : Watched d)
    (run : (system M).step d step = some d') {server : Server} {fd : Fd} {owned : Owned server}
    (none : d.session? server fd = none) (here : d'.session? server fd = some owned) :
    Newcomer d fd owned := by
  cases step_effect run with
  | createPty new run =>
    refine (created (w.none_of_not_open new .atServer) run).sessions
      (P := fun server fd owned => d.session? server fd = .none → Newcomer d fd owned) ?_ ?_
      server fd owned here none
    · exact fun _ => newSession_newcomer .atServer _ le_rfl
    · intro server fd owned there none
      rw [there] at none
      cases none
  | skipped callback =>
    rw [none] at here
    cases here
  | stopped callback =>
    cases none.symm.trans here
  | accepted callback new run =>
    refine (acceptLoop_rule (P := fun between => Watched between ∧
      d.allocated ≤ between.allocated ∧ ∀ server fd owned, between.session? server fd = some owned →
        d.session? server fd = .none → Newcomer d fd owned) (fun _ both => both.1) ?_ ?_ new run).2.2
      server fd owned here none
    · intro fd between after both new c
      obtain ⟨w, le, all⟩ := both
      refine ⟨w.of_created new c, by rw [c.allocated]; omega, c.sessions ?_ all⟩
      exact fun _ => newSession_newcomer .qmiServer fd le
    · refine ⟨w, le_rfl, fun server fd owned there none => ?_⟩
      rw [there] at none
      cases none
  | timer callback =>
    rw [(networkTimer_heard callback server fd).1, none] at here
    cases here
  | served callback handled =>
    obtain ⟨rfl, owned', there⟩ := (w.callback _ _).mp callback
    obtain ⟨before, was⟩ := handleClient_old w there handled here
    cases none.symm.trans was
  | published =>
    rw [session?_publish, none] at here
    cases here

/-! ### The session that is served -/

/-- What serving a QMI session makes of it: it depends on nothing but the session and the modem. -/
def servedQmi (M : MiniModem.Modem σ) (modem : σ) (events : Events) (env : Environment)
    (owned : Owned .qmiServer) : Bool × Owned .qmiServer :=
  let (alive, owned) := owned.onWritable events env.writes
  if alive && has events EPOLLIN then
    let (alive, session) := Qmi.Session.onReadable M modem events env.reads owned.session
    (alive, { owned with session })
  else (alive, owned)

/-- Serving a QMI session is serving it alone. -/
lemma serve_qmi {d : Daemon σ} {fd : Fd} {owned : Owned .qmiServer}
    (here : d.session? .qmiServer fd = some owned) (events : Events) (env : Environment) :
    (d.serve M .qmiServer fd events env owned).1 = (servedQmi M d.modem events env owned).1 ∧
      (d.serve M .qmiServer fd events env owned).2.session? .qmiServer fd =
        some (servedQmi M d.modem events env owned).2 ∧
      (d.serve M .qmiServer fd events env owned).2.modem = d.modem := by
  have there : ∀ last : Owned .qmiServer,
      (d.modifySession .qmiServer fd fun _ => last).session? .qmiServer fd = some last := by
    intro last
    rw [session?_modifySession_self, here]
    rfl
  rw [serve_eq, servedQmi]
  by_cases reads : ((owned.onWritable events env.writes).1 && has events EPOLLIN) = true
  · simp only [reads, if_true, onReadable_qmi]
    refine ⟨rfl, ?_, rfl⟩
    rw [session?_modifySession_self, there]
    rfl
  · simp only [reads]
    exact ⟨rfl, there _, rfl⟩

/-- A session keeps its address. -/
lemma servedQmi_addr (modem : σ) (events : Events) (env : Environment) (owned : Owned .qmiServer) :
    (servedQmi M modem events env owned).2.addr = owned.addr := by
  have addr : (owned.onWritable events env.writes).2.addr = owned.addr :=
    congrArg Prod.fst (onWritable_identity events env.writes owned)
  rw [servedQmi, ← addr]
  generalize owned.onWritable events env.writes = written
  obtain ⟨alive, written⟩ := written
  simp only
  split
  · rfl
  · rfl

/-- The callback of a QMI session. -/
lemma handleClient_qmi {d d' : Daemon σ} (w : Watched d) {fd : Fd} {owned : Owned .qmiServer}
    (here : d.session? .qmiServer fd = some owned) {events : Events} {env : Environment}
    (run : d.handleClient M .qmiServer fd events env = .returned d') :
    d'.allocated = d.allocated ∧
      (((servedQmi M d.modem events env owned).1 = true ∧
          d'.session? .qmiServer fd = some (servedQmi M d.modem events env owned).2) ∨
        ((servedQmi M d.modem events env owned).1 = false ∧
          ⟨.qmiServer, (servedQmi M d.modem events env owned).2⟩ ∈ d'.destroyed)) := by
  have frame := (serves_serve (M := M) here events env).frame
  obtain ⟨alive, there, -⟩ := serve_qmi (M := M) here events env
  obtain ⟨last, there', -, -, ended⟩ := handleClient_inv w here run
  rw [there] at there'
  cases there'
  rcases ended with ⟨dead, r⟩ | ⟨lives, rfl⟩
  · refine ⟨r.allocated.trans frame.allocated, .inr ⟨alive ▸ dead, ?_⟩⟩
    rw [r.destroyed]
    exact List.mem_append_right _ (List.mem_singleton_self _)
  · exact ⟨frame.allocated, .inl ⟨alive ▸ lives, there⟩⟩

/-- The modem after some lines. -/
lemma handleLines_modem (order : IterationOrder) (fd : Fd) (lines : List Bytes) (d : Daemon σ) :
    (lines.foldl (fun d line => d.handleLine M order fd line) d).modem =
      lines.foldl (fun modem line => (M.handleAt modem line).1) d.modem := by
  induction lines generalizing d with
  | nil => rfl
  | cons line lines ih => rw [List.foldl_cons, ih, handleLine_modem, List.foldl_cons]

/-- The lines that serving an AT session hands on; none if writing has failed before. -/
def linesServed (events : Events) (env : Environment) (owned : Owned .atServer) : List Bytes :=
  if (owned.onWritable events env.writes).1 then
    At.linesRead events env.reads owned.session.input
  else []

/-- What serving an AT session leaves in its line reader. -/
def readerServed (events : Events) (env : Environment) (owned : Owned .atServer) : LineReader :=
  if (owned.onWritable events env.writes).1 then
    At.readerAfter events env.reads owned.session.input
  else owned.session.input

/-- What serving an AT session makes of it depends on the other sessions too, but not its input. -/
lemma serve_at {d : Daemon σ} {fd : Fd} {owned : Owned .atServer}
    (here : d.session? .atServer fd = some owned) (events : Events) (env : Environment) :
    (d.serve M .atServer fd events env owned).2.modem =
        (linesServed events env owned).foldl (fun modem line => (M.handleAt modem line).1) d.modem ∧
      ∃ last, (d.serve M .atServer fd events env owned).2.session? .atServer fd = some last ∧
        last.session.input = readerServed events env owned := by
  have there : (d.modifySession .atServer fd fun _ =>
      (owned.onWritable events env.writes).2).session? .atServer fd =
        some (owned.onWritable events env.writes).2 := by
    rw [session?_modifySession_self, here]
    rfl
  rw [serve_eq, linesServed, readerServed]
  by_cases reads : ((owned.onWritable events env.writes).1 && has events EPOLLIN) = true
  · have alive := (Bool.and_eq_true _ _ ▸ reads).1
    have lines := serves_handleLines (M := M) env.order fd
      (At.linesRead events env.reads owned.session.input)
      (d.modifySession .atServer fd fun _ => (owned.onWritable events env.writes).2)
    obtain ⟨between, still, -⟩ := lines.frame.owned there
    rw [if_pos reads, if_pos alive, if_pos alive]
    simp only [onReadable, At.onReadable_world, At.onReadable_reader, onWritable_input]
    refine ⟨handleLines_modem _ _ _ _, ?_⟩
    rw [session?_modifySession_self, still]
    exact ⟨_, rfl, rfl⟩
  · rw [if_neg reads]
    refine ⟨?_, _, there, ?_⟩
    · split
      · next alive =>
        rw [alive, Bool.true_and] at reads
        simp only [At.linesRead, reads, Bool.not_false, if_true, ite_self]
        rfl
      · rfl
    · rw [onWritable_input]
      split
      · next alive =>
        rw [alive, Bool.true_and] at reads
        simp only [At.readerAfter, reads, Bool.not_false, if_true, ite_self]
      · rfl

end MiniModem.Daemon
