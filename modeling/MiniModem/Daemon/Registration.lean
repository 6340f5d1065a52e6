import MiniModem.Daemon.Serving

/-!
# Registrations

Four containers say which sessions there are: the sessions of the servers, the interest list and the
callbacks of the event loop, and the handlers of the event bus. `Watched` relates the first three and
holds in every run. Serving a session concerns none of them, so an invariant about them has to be shown
for three operations only: the creation of a session, its removal, and the update of its events. The
rest is the same for every such invariant (`Kept`).
-/

namespace MiniModem.Daemon
open Lib Transport Modem

variable {σ : Type*} {M : MiniModem.Modem σ}

/-- The callback that a descriptor should have. -/
def CallbackFor (d : Daemon σ) (fd : Fd) : Callback → Prop
  | .signal => fd = d.signalFd
  | .acceptClients => fd = d.listenFd
  | .networkTimer => fd = d.timerFd
  | .session server fd' => fd' = fd ∧ ∃ owned, d.session? server fd = some owned

/-- The event loop watches the three descriptors of the process and those of the sessions. -/
structure Watched (d : Daemon σ) : Prop where
  interest : ∀ fd, fd ∈ d.loop.epoll.interest ↔ fd ∈ d.loop.callbacks
  callback : ∀ fd callback, d.loop.callbacks.lookup fd = some callback ↔ d.CallbackFor fd callback
  own : ∀ server fd owned, d.session? server fd = some owned → owned.session.fd = fd
  isOpen : ∀ fd ∈ d.loop.callbacks, fd ∈ d.openFds

namespace Watched
variable {d d' : Daemon σ}

/-- The descriptor of a session is registered for it. -/
lemma registered (w : Watched d) {server : Server} {fd : Fd} {owned : Owned server}
    (here : d.session? server fd = some owned) :
    d.loop.callbacks.lookup fd = some (.session server fd) :=
  (w.callback fd _).mpr ⟨rfl, owned, here⟩

/-- The descriptor of a session is in the interest list. -/
lemma watched (w : Watched d) {server : Server} {fd : Fd} {owned : Owned server}
    (here : d.session? server fd = some owned) : fd ∈ d.loop.epoll.interest :=
  (w.interest fd).mpr (UnorderedMap.mem_iff_lookup.mpr ⟨_, w.registered here⟩)

/-- No session has a descriptor that is not open. -/
lemma none_of_not_open (w : Watched d) {fd : Fd} (new : fd ∉ d.openFds) (server : Server) :
    d.session? server fd = none := by
  rcases here : d.session? server fd with _ | owned
  · rfl
  · exact absurd (w.isOpen fd ((w.interest fd).mp (w.watched here))) new

/-- One descriptor, one callback. -/
lemma callback_unique (w : Watched d) {fd : Fd} {callback callback' : Callback}
    (for_ : d.CallbackFor fd callback) (for_' : d.CallbackFor fd callback') :
    callback = callback' := by
  have same := (w.callback fd callback).mpr for_
  rw [(w.callback fd callback').mpr for_'] at same
  exact (Option.some.inj same).symm

/-- One descriptor, one session. -/
lemma server_unique (w : Watched d) {server server' : Server} {fd : Fd} {owned : Owned server}
    {owned' : Owned server'} (here : d.session? server fd = some owned)
    (there : d.session? server' fd = some owned') : server' = server := by
  have for_ : d.CallbackFor fd (.session server fd) := ⟨rfl, owned, here⟩
  have for_' : d.CallbackFor fd (.session server' fd) := ⟨rfl, owned', there⟩
  cases w.callback_unique for_ for_'
  rfl

/-- Input and output leave the registrations alone. -/
lemma of_same (w : Watched d) (same : SameFrame d d') : Watched d' := by
  have sessions : ∀ server fd,
      (∃ owned, d'.session? server fd = some owned) ↔ ∃ owned, d.session? server fd = some owned := by
    intro server fd
    refine ⟨?_, ?_⟩
    · intro there
      obtain ⟨owned', here'⟩ := there
      obtain ⟨owned, here, -⟩ := same.symm.owned here'
      exact ⟨owned, here⟩
    · intro there
      obtain ⟨owned, here⟩ := there
      obtain ⟨owned', here', -⟩ := same.owned here
      exact ⟨owned', here'⟩
  refine ⟨?_, ?_, ?_, ?_⟩
  · rw [same.loop]
    exact w.interest
  · intro fd callback
    rw [same.loop, w.callback]
    cases callback with
    | signal => simp only [CallbackFor, same.signalFd]
    | acceptClients => simp only [CallbackFor, same.listenFd]
    | networkTimer => simp only [CallbackFor, same.timerFd]
    | session server fd' => simp only [CallbackFor, sessions]
  · intro server fd owned' here'
    obtain ⟨owned, here, identity⟩ := same.symm.owned here'
    have tty : owned.session.fd = owned'.session.fd := congrArg (fun i => i.2.1.fd) identity
    rw [← tty]
    exact w.own server fd owned here
  · rw [same.loop, same.openFds]
    exact w.isOpen

end Watched

/-! ### The creation of a session -/

/-- The session that is created. -/
def newSession (server : Server) (fd : Fd) (d : Daemon σ) : Owned server :=
  { addr := d.allocated
    session :=
      { tty := ⟨fd⟩
        input := server.newInput
        subscription := ⟨some busPtr, d.eventBus.nextId⟩ } }

/-- What is left to do for a new session is its registration. -/
def withSession (server : Server) (fd : Fd) (d : Daemon σ) : Daemon σ :=
  { d with
    openFds := fd :: d.openFds
    eventBus := (d.eventBus.subscribe busPtr ⟨server, d.allocated⟩).2
    allocated := d.allocated + 1
    sessions :=
      Function.update d.sessions server ((d.sessions server).insert fd (d.newSession server fd)) }

/-- The new session is there. -/
lemma session?_withSession_self (server : Server) (fd : Fd) (d : Daemon σ) :
    (d.withSession server fd).session? server fd = some (d.newSession server fd) := by
  simp [session?, withSession]

/-- The other sessions are as before. -/
lemma session?_withSession_ne {server server' : Server} {fd fd' : Fd}
    (other : server' ≠ server ∨ fd' ≠ fd) (d : Daemon σ) :
    (d.withSession server fd).session? server' fd' = d.session? server' fd' := by
  rcases eq_or_ne server' server with rfl | ne
  · have ne : fd' ≠ fd := by simpa using other
    simp [session?, withSession, AList.lookup_insert_ne ne]
  · simp [session?, withSession, ne]

/-- Where the descriptor is free the new session is stored and then registered. -/
lemma create_eq {server : Server} {fd : Fd} {d : Daemon σ} (new : d.session? server fd = none)
    (registers : Bool) :
    d.create server fd registers =
      (d.loop.addFd registers fd sessionEvents (.session server fd)).map fun loop =>
        { d.withSession server fd with loop } := by
  have absent : fd ∉ d.sessions server := AList.lookup_eq_none.mp new
  simp only [create, if_neg absent]
  rfl

/-- What the creation of a session under a new descriptor does, if it returns. -/
structure Created (server : Server) (fd : Fd) (d d' : Daemon σ) : Prop where
  fixed : d'.signalFd = d.signalFd ∧ d'.listenFd = d.listenFd ∧ d'.timerFd = d.timerFd
  openFds : d'.openFds = fd :: d.openFds
  callbacks : d'.loop.callbacks =
    UnorderedMap.emplace fd (.session server fd) d.loop.callbacks
  absent : fd ∉ d.loop.epoll.interest
  interest : d'.loop.epoll.interest = d.loop.epoll.interest.insert fd sessionEvents
  eventBus : d'.eventBus = (d.eventBus.subscribe busPtr ⟨server, d.allocated⟩).2
  allocated : d'.allocated = d.allocated + 1
  destroyed : d'.destroyed = d.destroyed
  here : d'.session? server fd = some (d.newSession server fd)
  others : ∀ server' fd', (server' ≠ server ∨ fd' ≠ fd) →
    d'.session? server' fd' = d.session? server' fd'

/-- What a creation that returns has done. -/
lemma created {server : Server} {fd : Fd} {registers : Bool} {d d' : Daemon σ}
    (new : d.session? server fd = none) (run : d.create server fd registers = .returned d') :
    Created server fd d d' := by
  rw [create_eq new, Outcome.map_eq_returned] at run
  obtain ⟨loop, added, rfl⟩ := run
  obtain ⟨⟨-, notIn⟩, rfl⟩ := EventLoop.addFd_returned.mp added
  refine ⟨⟨rfl, rfl, rfl⟩, rfl, rfl, notIn, rfl, rfl, rfl, rfl, ?_, ?_⟩
  · exact session?_withSession_self server fd d
  · intro server' fd' other
    exact session?_withSession_ne other d

/-- What holds of the new session and of the old ones holds of all sessions. -/
lemma Created.sessions {server : Server} {fd : Fd} {d d' : Daemon σ} (c : Created server fd d d')
    {P : (server : Server) → Fd → Owned server → Prop} (new : P server fd (d.newSession server fd))
    (old : ∀ server' fd' owned, d.session? server' fd' = some owned → P server' fd' owned) :
    ∀ server' fd' owned, d'.session? server' fd' = some owned → P server' fd' owned := by
  intro server' fd' owned there
  by_cases this : server' = server ∧ fd' = fd
  · obtain ⟨rfl, rfl⟩ := this
    rw [c.here] at there
    cases there
    exact new
  · rw [c.others server' fd' (by tauto)] at there
    exact old server' fd' owned there

/-- The old sessions are still there. -/
lemma Created.still {server : Server} {fd : Fd} {d d' : Daemon σ} (c : Created server fd d d')
    (free : d.session? server fd = none) {server' : Server} {fd' : Fd} {owned : Owned server'}
    (here : d.session? server' fd' = some owned) : d'.session? server' fd' = some owned := by
  rw [c.others server' fd' ?_]
  · exact here
  · by_contra this
    push Not at this
    obtain ⟨rfl, rfl⟩ := this
    rw [free] at here
    cases here

/-- The sessions after a creation are the new one and those before. -/
lemma Created.exists_iff {server : Server} {fd : Fd} {d d' : Daemon σ} (c : Created server fd d d')
    (free : d.session? server fd = none) (server' : Server) (fd' : Fd) :
    (∃ owned, d'.session? server' fd' = some owned) ↔
      (server' = server ∧ fd' = fd) ∨ ∃ owned, d.session? server' fd' = some owned := by
  refine ⟨?_, ?_⟩
  · intro there
    obtain ⟨owned, there⟩ := there
    exact c.sessions (P := fun server' fd' _ => (server' = server ∧ fd' = fd) ∨
      ∃ owned, d.session? server' fd' = some owned) (.inl ⟨rfl, rfl⟩)
      (fun _ _ owned here => .inr ⟨owned, here⟩) server' fd' owned there
  · intro either
    rcases either with ⟨rfl, rfl⟩ | ⟨owned, here⟩
    · exact ⟨_, c.here⟩
    · exact ⟨owned, c.still free here⟩

/-! ### The removal of a session -/

/-- What the removal of a session does. -/
structure Removed (server : Server) (fd : Fd) (owned : Owned server) (d d' : Daemon σ) : Prop where
  fixed : d'.signalFd = d.signalFd ∧ d'.listenFd = d.listenFd ∧ d'.timerFd = d.timerFd
  openFds : ∀ fd' ∈ d.openFds, fd' ≠ fd → fd' ∈ d'.openFds
  callbacks : d'.loop.callbacks = d.loop.callbacks.erase fd
  unwatched : d'.loop.epoll.interest.lookup fd = none
  interest : ∀ fd', fd' ≠ fd →
    d'.loop.epoll.interest.lookup fd' = d.loop.epoll.interest.lookup fd'
  eventBus : d'.eventBus = (owned.session.subscription.reset d.eventBus).2
  allocated : d'.allocated = d.allocated
  destroyed : d'.destroyed = d.destroyed ++ [⟨server, owned⟩]
  gone : d'.session? server fd = none
  others : ∀ server' fd', (server' ≠ server ∨ fd' ≠ fd) →
    d'.session? server' fd' = d.session? server' fd'

/-- What a removal has done. -/
lemma removed {server : Server} {fd : Fd} {owned : Owned server} {d : Daemon σ}
    (here : d.session? server fd = some owned) (own : owned.session.fd = fd) :
    Removed server fd owned d (d.removeSession server fd) := by
  have there : ({ d with loop := d.loop.removeFd fd } : Daemon σ).session? server fd = some owned :=
    here
  have gone : ∀ fds : List Fd, ∀ fd' ∈ fds, fd' ≠ fd → fd' ∈ fds.filter (· ≠ fd) := by
    intro fds fd' mem ne
    simp [mem, ne]
  simp only [removeSession, there, destroy, own]
  split
  · refine ⟨⟨rfl, rfl, rfl⟩, gone d.openFds, rfl, ?_, ?_, rfl, rfl, rfl, ?_, ?_⟩
    · exact AList.lookup_erase _ _
    · intro fd' ne
      exact (AList.lookup_erase_ne ne).trans (AList.lookup_erase_ne ne)
    · simp [session?, setSessions, close]
    · intro server' fd' other
      rcases eq_or_ne server' server with rfl | ne
      · have ne : fd' ≠ fd := by simpa using other
        simp [session?, setSessions, close, AList.lookup_erase_ne ne]
      · simp [session?, setSessions, close, ne]
  · refine ⟨⟨rfl, rfl, rfl⟩, fun fd' mem _ => mem, rfl, ?_, ?_, rfl, rfl, rfl, ?_, ?_⟩
    · exact AList.lookup_erase _ _
    · intro fd' ne
      exact AList.lookup_erase_ne ne
    · simp [session?, setSessions]
    · intro server' fd' other
      rcases eq_or_ne server' server with rfl | ne
      · have ne : fd' ≠ fd := by simpa using other
        simp [session?, setSessions, AList.lookup_erase_ne ne]
      · simp [session?, setSessions, ne]

/-- The sessions after a removal are the other sessions. -/
lemma Removed.session_iff {server : Server} {fd : Fd} {owned : Owned server} {d d' : Daemon σ}
    (r : Removed server fd owned d d') {server' : Server} {fd' : Fd} {owned' : Owned server'} :
    d'.session? server' fd' = some owned' ↔
      (server' ≠ server ∨ fd' ≠ fd) ∧ d.session? server' fd' = some owned' := by
  by_cases this : server' = server ∧ fd' = fd
  · obtain ⟨rfl, rfl⟩ := this
    rw [r.gone]
    simp
  · have other : server' ≠ server ∨ fd' ≠ fd := by tauto
    rw [r.others server' fd' other, and_iff_right other]

/-! ### The update of the events of a session -/

/-- What the update of a session's events does, if it returns. -/
lemma updated {server : Server} {fd : Fd} {owned : Owned server} {d d' : Daemon σ}
    (here : d.session? server fd = some owned) (run : d.updateEvents server fd = .returned d') :
    fd ∈ d.loop.epoll.interest ∧
      d' = { d with
        loop := { d.loop with epoll := ⟨d.loop.epoll.interest.insert fd (eventsFor owned)⟩ } } := by
  simp only [updateEvents, here, Outcome.map_eq_returned] at run
  obtain ⟨loop, modified, rfl⟩ := run
  obtain ⟨there, rfl⟩ := EventLoop.modifyFd_returned.mp modified
  exact ⟨there, rfl⟩

namespace Watched
variable {d d' : Daemon σ}

/-- A new session is registered. -/
lemma of_created (w : Watched d) {server : Server} {fd : Fd} (new : fd ∉ d.openFds)
    (c : Created server fd d d') : Watched d' := by
  obtain ⟨signal, listen, timer⟩ := c.fixed
  have free : fd ∉ d.loop.callbacks := fun mem => new (w.isOpen fd mem)
  have none := w.none_of_not_open new server
  refine ⟨?_, ?_, ?_, ?_⟩
  · intro fd'
    rw [c.interest, c.callbacks, AList.mem_insert, UnorderedMap.mem_emplace, w.interest]
  · intro fd' callback
    rw [c.callbacks, UnorderedMap.lookup_emplace_iff free, w.callback]
    cases callback with
    | signal => simp [CallbackFor, signal]
    | acceptClients => simp [CallbackFor, listen]
    | networkTimer => simp [CallbackFor, timer]
    | session server' fd'' =>
      simp only [CallbackFor, c.exists_iff none, Callback.session.injEq]
      refine ⟨?_, ?_⟩
      · intro either
        rcases either with ⟨rfl, rfl, rfl⟩ | ⟨rfl, there⟩
        · exact ⟨rfl, .inl ⟨rfl, rfl⟩⟩
        · exact ⟨rfl, .inr there⟩
      · intro for_
        rcases for_ with ⟨rfl, ⟨rfl, rfl⟩ | there⟩
        · exact .inl ⟨rfl, rfl, rfl⟩
        · exact .inr ⟨rfl, there⟩
  · exact c.sessions rfl w.own
  · intro fd' mem
    rw [c.callbacks, UnorderedMap.mem_emplace] at mem
    rw [c.openFds, List.mem_cons]
    exact mem.imp_right (w.isOpen fd')

/-- A session that is removed is not registered any more. -/
lemma of_removed (w : Watched d) {server : Server} {fd : Fd} {owned : Owned server}
    (here : d.session? server fd = some owned) (r : Removed server fd owned d d') : Watched d' := by
  obtain ⟨signal, listen, timer⟩ := r.fixed
  refine ⟨?_, ?_, ?_, ?_⟩
  · intro fd'
    rw [r.callbacks, AList.mem_erase, ← w.interest, UnorderedMap.mem_iff_lookup]
    rcases eq_or_ne fd' fd with rfl | ne
    · simp [r.unwatched]
    · rw [r.interest fd' ne, ← UnorderedMap.mem_iff_lookup]
      simp [ne]
  · intro fd' callback
    rw [r.callbacks, UnorderedMap.lookup_erase_iff, w.callback]
    -- the descriptor had the callback of the session and no other
    have ne_of : callback ≠ .session server fd → d.CallbackFor fd' callback → fd' ≠ fd := by
      intro other for_ e
      rw [e] at for_
      have own : d.CallbackFor fd (.session server fd) := ⟨rfl, owned, here⟩
      exact other (w.callback_unique for_ own)
    cases callback with
    | signal =>
      rw [and_iff_right_of_imp (ne_of (by simp))]
      simp only [CallbackFor, signal]
    | acceptClients =>
      rw [and_iff_right_of_imp (ne_of (by simp))]
      simp only [CallbackFor, listen]
    | networkTimer =>
      rw [and_iff_right_of_imp (ne_of (by simp))]
      simp only [CallbackFor, timer]
    | session server' fd'' =>
      simp only [CallbackFor, r.session_iff]
      refine ⟨?_, ?_⟩
      · intro for_
        obtain ⟨ne, e, owned', there⟩ := for_
        exact ⟨e, owned', .inr ne, there⟩
      · intro for_
        obtain ⟨e, owned', other, there⟩ := for_
        refine ⟨?_, e, owned', there⟩
        rintro rfl
        exact other.elim (fun ne => ne (w.server_unique here there)) (fun ne => ne rfl)
  · intro server' fd' owned' there
    exact w.own server' fd' owned' (r.session_iff.mp there).2
  · intro fd' mem
    rw [r.callbacks, AList.mem_erase] at mem
    exact r.openFds fd' (w.isOpen fd' mem.2) mem.1

/-- Only the interest list changes, and not the descriptors in it. -/
lemma of_updated (w : Watched d) {fd : Fd} (there : fd ∈ d.loop.epoll.interest) (events : Events) :
    Watched { d with
      loop := { d.loop with epoll := ⟨d.loop.epoll.interest.insert fd events⟩ } } := by
  refine ⟨fun fd' => ?_, w.callback, w.own, w.isOpen⟩
  show fd' ∈ d.loop.epoll.interest.insert fd events ↔ _
  rw [AList.mem_insert, ← w.interest]
  refine ⟨?_, ?_⟩
  · rintro (rfl | mem)
    · exact there
    · exact mem
  · exact .inr

/-- Stopping the loop leaves the registrations alone. -/
lemma of_stopped (w : Watched d) : Watched { d with loop := d.loop.stop } :=
  ⟨w.interest, w.callback, w.own, w.isOpen⟩

end Watched

/-! ### The callbacks -/

/-- Removing a session leaves the modem alone. -/
lemma removeSession_modem (server : Server) (fd : Fd) (d : Daemon σ) :
    (d.removeSession server fd).modem = d.modem := by
  simp only [removeSession, destroy]
  split
  · rfl
  · split
    · rfl
    · rfl

/-- A rule for the loop around `accept4`: what each creation keeps, the loop keeps. -/
lemma acceptLoop_rule {P : Daemon σ → Prop} (watched : ∀ d, P d → Watched d)
    (created : ∀ fd d d', P d → fd ∉ d.openFds → Created .qmiServer fd d d' → P d')
    {accepts : List AcceptResult} {d d' : Daemon σ} (holds : P d)
    (new : fresh d.openFds accepts = true) (run : acceptLoop accepts d = .returned d') : P d' := by
  induction accepts generalizing d with
  | nil =>
    cases run
    exact holds
  | cons accept accepts ih =>
    cases accept with
    | client fd registers =>
      obtain ⟨d'', first, rest⟩ := Outcome.andThen_eq_returned.mp run
      simp only [fresh, Bool.and_eq_true, decide_eq_true_eq] at new
      obtain ⟨⟨-, closed⟩, more⟩ := new
      have c := Daemon.created ((watched d holds).none_of_not_open closed .qmiServer) first
      exact ih (created fd d d'' holds closed c) (by rw [c.openFds]; exact more) rest
    | eintr => exact ih holds new run
    | eagain =>
      cases run
      exact holds
    | error =>
      cases run
      exact holds

/-- The callback of a session serves it, and then removes it or updates its events. -/
lemma handleClient_inv {server : Server} {fd : Fd} {owned : Owned server} {d d' : Daemon σ}
    (w : Watched d) (here : d.session? server fd = some owned) {events : Events} {env : Environment}
    (run : d.handleClient M server fd events env = .returned d') :
    ∃ last, (d.serve M server fd events env owned).2.session? server fd = some last ∧
      last.identity = owned.identity ∧
      d'.modem = (d.serve M server fd events env owned).2.modem ∧
      (((d.serve M server fd events env owned).1 = false ∧
          Removed server fd last (d.serve M server fd events env owned).2 d') ∨
        ((d.serve M server fd events env owned).1 = true ∧
          d' = { (d.serve M server fd events env owned).2 with
            loop := { (d.serve M server fd events env owned).2.loop with
              epoll := ⟨(d.serve M server fd events env owned).2.loop.epoll.interest.insert fd
                (eventsFor last)⟩ } })) := by
  have frame := (serves_serve (M := M) here events env).frame
  obtain ⟨last, there, identity⟩ := frame.owned here
  refine ⟨last, there, identity, ?_⟩
  rcases handleClient_cases here run with ⟨dead, rfl⟩ | ⟨alive, run'⟩
  · have own := (w.of_same frame).own server fd last there
    exact ⟨removeSession_modem _ _ _, .inl ⟨dead, removed there own⟩⟩
  · obtain ⟨-, rfl⟩ := updated there run'
    exact ⟨rfl, .inr ⟨alive, rfl⟩⟩

/-! ### Invariants -/

/-- A property of the state that every operation on the registrations keeps. -/
structure Kept (P : Daemon σ → Prop) : Prop where
  watched : ∀ d, P d → Watched d
  same : ∀ d d', P d → SameFrame d d' → P d'
  created : ∀ server fd d d', P d → fd ∉ d.openFds → Created server fd d d' → P d'
  removed : ∀ server fd owned d d', P d → d.session? server fd = some owned →
    Removed server fd owned d d' → P d'
  updated : ∀ server fd owned d, P d → d.session? server fd = some owned →
    P { d with
      loop := { d.loop with epoll := ⟨d.loop.epoll.interest.insert fd (eventsFor owned)⟩ } }
  stopped : ∀ d, P d → P { d with loop := d.loop.stop }

namespace Kept
variable {P : Daemon σ → Prop} {d d' : Daemon σ}

/-- A creation keeps the property. -/
lemma create (k : Kept P) (holds : P d) {server : Server} {fd : Fd} {registers : Bool}
    (new : fd ∉ d.openFds) (run : d.create server fd registers = .returned d') : P d' :=
  k.created server fd d d' holds new
    (Daemon.created ((k.watched d holds).none_of_not_open new server) run)

/-- Accepting clients keeps the property. -/
lemma acceptLoop (k : Kept P) {accepts : List AcceptResult} (holds : P d)
    (new : fresh d.openFds accepts = true) (run : acceptLoop accepts d = .returned d') : P d' :=
  acceptLoop_rule k.watched (fun fd d d' holds new c => k.created .qmiServer fd d d' holds new c) holds new
    run

/-- The callback of a session keeps the property. -/
lemma handleClient (k : Kept P) (holds : P d) {server : Server} {fd : Fd} {events : Events}
    {env : Environment} (run : d.handleClient M server fd events env = .returned d') : P d' := by
  rcases here : d.session? server fd with _ | owned
  · rw [Daemon.handleClient, here] at run
    cases run
    exact holds
  · have holds' := k.same _ _ holds (serves_serve (M := M) here events env).frame
    obtain ⟨last, there, -, -, ⟨-, r⟩ | ⟨-, rfl⟩⟩ := handleClient_inv (k.watched d holds) here run
    · exact k.removed server fd last _ _ holds' there r
    · exact k.updated server fd last _ holds' there

/-- The timer changes the modem and the output of the sessions only. -/
lemma sameFrame_networkTimer (events : Events) (order : IterationOrder) (d : Daemon σ) :
    SameFrame d (d.networkTimer M events order) := by
  rw [networkTimer]
  split
  · exact .refl d
  · have modem : SameFrame d { d with modem := (M.networkSearchComplete d.modem).1 } :=
      ⟨rfl, rfl, rfl, rfl, rfl, rfl, rfl, rfl, fun _ _ => rfl⟩
    exact modem.trans (.publishAll order _ _)

/-- Every step keeps the property. -/
lemma step (k : Kept P) (holds : P d) {step : Step} (run : (system M).step d step = some d') :
    P d' := by
  cases step_effect run with
  | createPty new run => exact k.create holds new run
  | skipped callback => exact holds
  | stopped callback => exact k.stopped d holds
  | accepted callback new run => exact k.acceptLoop holds new run
  | timer callback => exact k.same _ _ holds (sameFrame_networkTimer _ _ d)
  | served callback run => exact k.handleClient holds run
  | published => exact k.same _ _ holds (.publish _ _ d)

end Kept

/-- An event for the descriptor of a session reaches the session. -/
lemma Watched.served {d d' : Daemon σ} (w : Watched d) {server : Server} {fd : Fd}
    {owned : Owned server} (here : d.session? server fd = some owned) {events : Events}
    {env : Environment} (run : (system M).step d (.deliver fd events env) = some d') :
    d.handleClient M server fd events env = .returned d' := by
  have callback := w.registered here
  cases step_effect run with
  | skipped other | stopped other | timer other =>
    rw [callback] at other
    cases other
  | accepted other =>
    rw [callback] at other
    cases other
  | served same run =>
    rw [callback] at same
    cases same
    exact run

/-- The registrations in the event loop are in order in every run. -/
lemma kept_watched : Kept (Watched : Daemon σ → Prop) where
  watched _ w := w
  same _ _ w same := w.of_same same
  created _ _ _ _ w new c := w.of_created new c
  removed _ _ _ _ _ w here r := w.of_removed here r
  updated _ _ _ _ w here := w.of_updated (w.watched here) _
  stopped _ w := w.of_stopped

end MiniModem.Daemon
