import MiniModem.Daemon.Records

/-!
# Accounts

What the process holds is in proportion to its sessions. In every state of a run its open descriptors are
those it started with and those of its sessions, the ids in the event bus are those of the subscriptions
of its sessions, and each session ever created either is there or has been destroyed once
(`always_balanced`). Nothing is left behind by the clients that come and go.
-/

namespace MiniModem.Daemon
open Lib Transport Modem

variable {σ : Type*}

/-- The descriptors of the sessions. -/
def sessionFds (d : Daemon σ) : List Fd := (d.sessions .atServer).keys ++ (d.sessions .qmiServer).keys

/-- The ids under which the sessions of a server are subscribed. -/
def serverIds (server : Server) (d : Daemon σ) : List SubscriptionId :=
  (d.sessions server).entries.map fun entry => entry.2.session.subscription.id

/-- The ids under which the sessions are subscribed. -/
def subscriptionIds (d : Daemon σ) : List SubscriptionId := d.serverIds .atServer ++ d.serverIds .qmiServer

/-- Sessions have real descriptors. -/
def Valid (d : Daemon σ) : Prop :=
  ∀ server fd owned, d.session? server fd = some owned → 0 ≤ fd

/-- Every session created is there, or has been destroyed. -/
def Accounted (d : Daemon σ) : Prop :=
  ∀ addr < d.allocated,
    (∃ server fd owned, d.session? server fd = some owned ∧ owned.addr = addr) ∨
      ∃ record ∈ d.destroyed, record.2.addr = addr

/-- What the process holds, and what it has held. -/
structure Balanced (fds : Descriptors) (d : Daemon σ) : Prop where
  openFds : d.openFds.Perm (fds.all ++ d.sessionFds)
  handlers : d.allocated < 2 ^ 64 → d.eventBus.handlers.keys.Perm d.subscriptionIds
  accounted : Accounted d
  created : d.sessionFds.length + d.destroyed.length = d.allocated

variable {M : MiniModem.Modem σ} {fds : Descriptors} {d d' : Daemon σ}

/-- The descriptors of the sessions are the keys of both containers. -/
lemma mem_sessionFds {fd : Fd} :
    fd ∈ d.sessionFds ↔ ∃ server, ∃ owned, d.session? server fd = some owned := by
  rw [sessionFds, List.mem_append, mem_sessions, mem_sessions]
  refine ⟨?_, ?_⟩
  · intro either
    rcases either with there | there
    · exact ⟨.atServer, there⟩
    · exact ⟨.qmiServer, there⟩
  · intro there
    obtain ⟨server, there⟩ := there
    cases server with
    | atServer => exact .inl there
    | qmiServer => exact .inr there

/-- No descriptor is counted twice. -/
lemma Watched.sessionFds_nodup (w : Watched d) : d.sessionFds.Nodup := by
  have all := w.nodup
  rw [List.append_assoc] at all
  exact (List.nodup_append'.mp all).2.1

/-! ### The descriptors of the sessions -/

/-- Input and output leave the descriptors of the sessions alone. -/
lemma SameFrame.sessionFds (w : Watched d) (same : SameFrame d d') :
    d'.sessionFds.Perm d.sessionFds := by
  refine (List.perm_ext_iff_of_nodup (w.of_same same).sessionFds_nodup w.sessionFds_nodup).mpr ?_
  intro fd
  rw [mem_sessionFds, mem_sessionFds]
  refine exists_congr fun server => ⟨?_, ?_⟩
  · intro there
    obtain ⟨owned, here⟩ := there
    exact (same.symm.owned here).imp fun _ both => both.1
  · intro there
    obtain ⟨owned, here⟩ := there
    exact (same.owned here).imp fun _ both => both.1

/-- A new session brings its descriptor. -/
lemma Created.sessionFds {server : Server} {fd : Fd} (w : Watched d) (new : fd ∉ d.openFds)
    (c : Created server fd d d') : d'.sessionFds.Perm (fd :: d.sessionFds) := by
  have free : ∀ server, d.session? server fd = none := w.none_of_not_open new
  have notIn : fd ∉ d.sessionFds := by
    rw [mem_sessionFds]
    intro there
    obtain ⟨server', owned, here⟩ := there
    rw [free server'] at here
    cases here
  refine (List.perm_ext_iff_of_nodup (w.of_created new c).sessionFds_nodup
    (List.nodup_cons.mpr ⟨notIn, w.sessionFds_nodup⟩)).mpr ?_
  intro fd'
  rw [List.mem_cons, mem_sessionFds, mem_sessionFds]
  simp only [c.exists_iff (free server)]
  refine ⟨?_, ?_⟩
  · intro there
    obtain ⟨server', ⟨-, e⟩ | here⟩ := there
    · exact .inl e
    · exact .inr ⟨server', here⟩
  · intro either
    rcases either with e | ⟨server', here⟩
    · exact ⟨server, .inl ⟨rfl, e⟩⟩
    · exact ⟨server', .inr here⟩

/-- A session that is removed takes its descriptor away. -/
lemma Removed.sessionFds {server : Server} {fd : Fd} {owned : Owned server} (w : Watched d)
    (here : d.session? server fd = some owned) (r : Removed server fd owned d d') :
    d.sessionFds.Perm (fd :: d'.sessionFds) := by
  have notIn : fd ∉ d'.sessionFds := by
    rw [mem_sessionFds]
    intro there
    obtain ⟨server', owned', there⟩ := there
    obtain ⟨other, here'⟩ := r.session_iff.mp there
    exact other.elim (fun ne => ne (w.server_unique here here')) (fun ne => ne rfl)
  refine (List.perm_ext_iff_of_nodup w.sessionFds_nodup
    (List.nodup_cons.mpr ⟨notIn, (w.of_removed here r).sessionFds_nodup⟩)).mpr ?_
  intro fd'
  rw [List.mem_cons, mem_sessionFds, mem_sessionFds]
  simp only [r.session_iff]
  refine ⟨?_, ?_⟩
  · intro there
    obtain ⟨server', owned', here'⟩ := there
    rcases eq_or_ne fd' fd with e | ne
    · exact .inl e
    · exact .inr ⟨server', owned', .inr ne, here'⟩
  · intro either
    rcases either with rfl | ⟨server', owned', -, here'⟩
    · exact ⟨server, owned, here⟩
    · exact ⟨server', owned', here'⟩

/-! ### Real descriptors -/

/-- A step is taken only if the kernel may do so. -/
lemma step_possible {step : Step} (run : (system M).step d step = some d') : d.possible step = true := by
  simp only [system] at run
  split at run
  · next possible => exact possible
  · cases run

/-- No step brings a descriptor that is negative. -/
lemma step_valid (w : Watched d) (valid : Valid d) {step : Step} (run : (system M).step d step = some d') :
    Valid d' := by
  intro server fd owned here
  by_cases was : ∃ before, d.session? server fd = some before
  · obtain ⟨before, was⟩ := was
    exact valid server fd before was
  have none : d.session? server fd = none :=
    Option.eq_none_iff_forall_ne_some.mpr fun before there => was ⟨before, there⟩
  -- a new session has a descriptor that the kernel has reported
  cases step_effect run with
  | @createPty master slave registers _ new created =>
    have possible := step_possible run
    simp only [Daemon.possible, fresh, Bool.and_eq_true, decide_eq_true_eq] at possible
    refine (Daemon.created (w.none_of_not_open new .atServer) created).sessions
      (P := fun _ fd _ => 0 ≤ fd) possible.1.1 valid server fd owned here
  | skipped => cases none.symm.trans here
  | stopped => cases none.symm.trans here
  | @accepted fd' events env accepts _ callback new accepted =>
    rcases acceptLoop_only w new accepted here with there | ⟨-, client⟩
    · cases none.symm.trans there
    · exact (acceptLoop_clients w new accepted client).1.1
  | timer callback =>
    rw [(networkTimer_heard callback server fd).1, none] at here
    cases here
  | served callback handled =>
    obtain ⟨rfl, owned', there⟩ := (w.callback _ _).mp callback
    exact absurd (handleClient_old w there handled here) was
  | published =>
    rw [session?_publish, none] at here
    cases here

/-! ### The descriptors that are open -/

/-- Removing a session closes its descriptor, and no other. -/
lemma removeSession_openFds {server : Server} {fd : Fd} {owned : Owned server}
    (here : d.session? server fd = some owned) (own : owned.session.fd = fd) (valid : 0 ≤ fd) :
    (d.removeSession server fd).openFds = d.openFds.filter (· ≠ fd) := by
  have there : ({ d with loop := d.loop.removeFd fd } : Daemon σ).session? server fd = some owned :=
    here
  have ne : fd ≠ -1 := by
    rintro rfl
    cases valid
  simp only [removeSession, there, destroy, own, if_pos ne]
  rfl

/-- The open descriptors are those of the process and those of the sessions. -/
def Held (fds : Descriptors) (d : Daemon σ) : Prop := d.openFds.Perm (fds.all ++ d.sessionFds)

/-- Input and output open and close nothing. -/
lemma SameFrame.held (w : Watched d) (held : Held fds d) (same : SameFrame d d') : Held fds d' := by
  rw [Held, same.openFds]
  exact held.trans (List.Perm.append_left _ (same.sessionFds w).symm)

/-- A new session holds the descriptor that has been opened for it. -/
lemma Created.held {server : Server} {fd : Fd} (w : Watched d) (held : Held fds d) (new : fd ∉ d.openFds)
    (c : Created server fd d d') : Held fds d' := by
  rw [Held, c.openFds]
  calc (fd :: d.openFds).Perm (fd :: (fds.all ++ d.sessionFds)) := held.cons fd
    _ |>.Perm (fds.all ++ fd :: d.sessionFds) := List.perm_middle.symm
    _ |>.Perm (fds.all ++ d'.sessionFds) := List.Perm.append_left _ (c.sessionFds w new).symm

/-- A session that is removed has its descriptor closed. -/
lemma removeSession_held {server : Server} {fd : Fd} {owned : Owned server} (w : Watched d)
    (based : Based fds d) (valid : Valid d) (held : Held fds d)
    (here : d.session? server fd = some owned) : Held fds (d.removeSession server fd) := by
  have own := w.own server fd owned here
  have r := removed here own
  rw [Held, removeSession_openFds here own (valid server fd owned here)]
  have none : fd ∉ fds.all := by
    intro mem
    rw [based.free fd mem server] at here
    cases here
  have gone : fd ∉ (d.removeSession server fd).sessionFds :=
    (List.nodup_cons.mp ((r.sessionFds w here).nodup w.sessionFds_nodup)).1
  have perm := (held.trans (List.Perm.append_left _ (r.sessionFds w here))).filter (· ≠ fd)
  refine perm.trans (List.Perm.of_eq ?_)
  have keep : ∀ fds : List Fd, fd ∉ fds → fds.filter (· ≠ fd) = fds := by
    intro fds notIn
    refine List.filter_eq_self.mpr fun fd' mem => ?_
    simp only [ne_eq, decide_eq_true_eq]
    rintro rfl
    exact notIn mem
  rw [List.filter_append, List.filter_cons_of_neg (by simp), keep _ none, keep _ gone]

/-- Each step leaves the open descriptors balanced. -/
lemma step_held (w : Watched d) (based : Based fds d) (valid : Valid d) (held : Held fds d) {step : Step}
    (run : (system M).step d step = some d') : Held fds d' := by
  cases step_effect run with
  | createPty new run => exact (created (w.none_of_not_open new .atServer) run).held w held new
  | skipped => exact held
  | stopped => exact held
  | accepted callback new run =>
    refine (acceptLoop_rule (P := fun between => Watched between ∧ Held fds between)
      (fun _ both => both.1) ?_ ⟨w, held⟩ new run).2
    exact fun fd between after both new c => ⟨both.1.of_created new c, c.held both.1 both.2 new⟩
  | timer => exact (Kept.sameFrame_networkTimer (M := M) _ _ d).held w held
  | @served fd fd' events env server d' callback handled =>
    obtain ⟨rfl, owned, here⟩ := (w.callback _ _).mp callback
    have frame := (serves_serve (M := M) here events env).frame
    have held' := frame.held w held
    have valid' : Valid (d.serve M server fd' events env owned).2 := by
      intro server fd last there
      obtain ⟨before, was, -⟩ := frame.symm.owned there
      exact valid server fd before was
    have based' : Based fds (d.serve M server fd' events env owned).2 := by
      refine ⟨frame.listenFd.trans based.listenFd, ?_, ?_⟩
      · rw [frame.openFds]
        exact based.opened
      · intro fd mem server
        have identity := frame.identity server fd
        rwa [based.free fd mem server, Option.map_none, Option.map_eq_none_iff] at identity
    obtain ⟨last, there, -⟩ := frame.owned here
    rcases handleClient_cases here handled with ⟨-, rfl⟩ | ⟨-, update⟩
    · exact removeSession_held (w.of_same frame) based' valid' held' there
    · obtain ⟨-, rfl⟩ := updated there update
      exact held'
  | published => exact (SameFrame.publish _ _ d).held w held

/-! ### The handlers -/

/-- The ids of the sessions in one container. -/
lemma mem_serverIds {server : Server} {id : SubscriptionId} :
    id ∈ d.serverIds server ↔
      ∃ fd owned, d.session? server fd = some owned ∧ owned.session.subscription.id = id := by
  rw [serverIds, List.mem_map]
  refine ⟨?_, ?_⟩
  · intro mem
    obtain ⟨⟨fd, owned⟩, mem, e⟩ := mem
    exact ⟨fd, owned, AList.mem_lookup_iff.mpr mem, e⟩
  · intro there
    obtain ⟨fd, owned, here, e⟩ := there
    exact ⟨⟨fd, owned⟩, AList.mem_lookup_iff.mp here, e⟩

/-- Below the bound the id says which session it is. -/
lemma Subscribed.id_unique (s : Subscribed d) (bound : d.allocated < 2 ^ 64) {server server' : Server}
    {fd fd' : Fd} {owned : Owned server} {owned' : Owned server'}
    (here : d.session? server fd = some owned) (there : d.session? server' fd' = some owned')
    (same : owned.session.subscription.id = owned'.session.subscription.id) :
    server' = server ∧ fd' = fd := by
  obtain ⟨e, lt⟩ := s.subscription server fd owned here
  obtain ⟨e', lt'⟩ := s.subscription server' fd' owned' there
  rw [e, e'] at same
  have addr := id_inj (by omega) (by omega) same
  exact s.unique _ _ _ _ _ _ here there (by omega)

/-- Below the bound no two sessions share an id. -/
lemma Subscribed.subscriptionIds_nodup (s : Subscribed d) (bound : d.allocated < 2 ^ 64) :
    d.subscriptionIds.Nodup := by
  have one : ∀ server, (d.serverIds server).Nodup := by
    intro server
    refine List.Nodup.map_on ?_ (List.NodupKeys.nodup (d.sessions server).nodupKeys)
    intro entry mem entry' mem' same
    obtain ⟨fd, owned⟩ := entry
    obtain ⟨fd', owned'⟩ := entry'
    have here : d.session? server fd = some owned := AList.mem_lookup_iff.mpr mem
    have there : d.session? server fd' = some owned' := AList.mem_lookup_iff.mpr mem'
    obtain ⟨-, rfl⟩ := s.id_unique bound here there same
    rw [here] at there
    cases there
    rfl
  refine List.nodup_append'.mpr ⟨one .atServer, one .qmiServer, ?_⟩
  intro id mem mem'
  obtain ⟨fd, owned, here, e⟩ := mem_serverIds.mp mem
  obtain ⟨fd', owned', there, e'⟩ := mem_serverIds.mp mem'
  cases (s.id_unique bound here there (e.trans e'.symm)).1

/-- The event bus has the handlers of the sessions, and no others. -/
lemma Subscribed.handlers_perm (s : Subscribed d) (bound : d.allocated < 2 ^ 64) :
    d.eventBus.handlers.keys.Perm d.subscriptionIds := by
  refine (List.perm_ext_iff_of_nodup d.eventBus.handlers.keys_nodup
    (s.subscriptionIds_nodup bound)).mpr ?_
  intro id
  rw [← AList.mem_keys, UnorderedMap.mem_iff_lookup, subscriptionIds, List.mem_append, mem_serverIds,
    mem_serverIds]
  refine ⟨?_, ?_⟩
  · intro stored
    obtain ⟨⟨server, addr⟩, stored⟩ := stored
    obtain ⟨e, fd, owned, here, same⟩ := (s.handlers bound _ _).mp stored
    have there : ∃ fd owned, d.session? server fd = some owned ∧ owned.session.subscription.id = id :=
      ⟨fd, owned, here, by rw [(s.subscription server fd owned here).1, e, same]⟩
    cases server with
    | atServer => exact .inl there
    | qmiServer => exact .inr there
  · intro either
    have stored : ∀ server fd owned, d.session? server fd = some owned →
        owned.session.subscription.id = id → ∃ ref, d.eventBus.handlers.lookup id = some ref := by
      intro server fd owned here e
      refine ⟨⟨server, owned.addr⟩, (s.handlers bound _ _).mpr ⟨?_, fd, owned, here, rfl⟩⟩
      rw [← e, (s.subscription server fd owned here).1]
    rcases either with ⟨fd, owned, here, e⟩ | ⟨fd, owned, here, e⟩
    · exact stored .atServer fd owned here e
    · exact stored .qmiServer fd owned here e

/-! ### The sessions created -/

/-- Every operation keeps the count of the sessions created. -/
lemma kept_accounted (fds : Descriptors) : Kept fun d : Daemon σ => Known fds d ∧
    (Accounted d ∧ d.sessionFds.length + d.destroyed.length = d.allocated) := by
  refine (kept_known fds).and ?_ ?_ ?_ ?_ ?_
  · intro d d' known both same
    refine ⟨?_, ?_⟩
    · intro addr lt
      rw [same.allocated] at lt
      rw [same.destroyed]
      rcases both.1 addr lt with ⟨server, fd, owned, here, e⟩ | gone
      · obtain ⟨owned', here', identity⟩ := same.owned here
        exact .inl ⟨server, fd, owned', here', (congrArg Prod.fst identity).trans e⟩
      · exact .inr gone
    · rw [(same.sessionFds known.1.1.1).length_eq, same.destroyed, same.allocated]
      exact both.2
  · intro server fd d d' known both new c
    have w := known.1.1.1
    refine ⟨?_, ?_⟩
    · intro addr lt
      rw [c.allocated] at lt
      rw [c.destroyed]
      rcases Nat.lt_succ_iff_lt_or_eq.mp lt with lt | rfl
      · rcases both.1 addr lt with ⟨server', fd', owned, here, e⟩ | gone
        · exact .inl ⟨server', fd', owned, c.still (w.none_of_not_open new server) here, e⟩
        · exact .inr gone
      · exact .inl ⟨server, fd, _, c.here, rfl⟩
    · rw [(c.sessionFds w new).length_eq, c.destroyed, c.allocated, List.length_cons, ← both.2]
      omega
  · intro server fd owned d d' known both here r
    have w := known.1.1.1
    refine ⟨?_, ?_⟩
    · intro addr lt
      rw [r.allocated] at lt
      rw [r.destroyed]
      rcases both.1 addr lt with ⟨server', fd', owned', there, e⟩ | ⟨record, mem, e⟩
      · by_cases other : server' ≠ server ∨ fd' ≠ fd
        · exact .inl ⟨server', fd', owned', r.session_iff.mpr ⟨other, there⟩, e⟩
        · push Not at other
          obtain ⟨rfl, rfl⟩ := other
          rw [here] at there
          cases there
          exact .inr ⟨_, List.mem_append_right _ (List.mem_singleton_self _), e⟩
      · exact .inr ⟨record, List.mem_append_left _ mem, e⟩
    · have fewer := r.sessionFds w here
      rw [r.destroyed, r.allocated, List.length_append, List.length_singleton, ← both.2,
        fewer.length_eq, List.length_cons]
      omega
  · exact fun d _ both => ⟨both.1, both.2⟩
  · exact fun d both => ⟨both.1, both.2⟩

/-- Everything that is known of what the process holds. -/
def Accounts (fds : Descriptors) (d : Daemon σ) : Prop :=
  (Known fds d ∧ (Accounted d ∧ d.sessionFds.length + d.destroyed.length = d.allocated)) ∧
    Valid d ∧ Held fds d

/-- Each step keeps the accounts. -/
lemma step_accounts (accounts : Accounts fds d) {step : Step} (run : (system M).step d step = some d') :
    Accounts fds d' := by
  obtain ⟨known, valid, held⟩ := accounts
  have w := known.1.1.1.1
  exact ⟨(kept_accounted fds).step known run, step_valid w valid run, step_held w known.1.2 valid held run⟩

/-- Input and output do not touch the accounts. -/
lemma Accounts.of_same (accounts : Accounts fds d) (same : SameFrame d d') : Accounts fds d' := by
  obtain ⟨known, valid, held⟩ := accounts
  refine ⟨(kept_accounted fds).same d d' known same, ?_, same.held known.1.1.1.1 held⟩
  intro server fd owned here
  obtain ⟨before, was, -⟩ := same.symm.owned here
  exact valid server fd before was

/-- The accounts say that the process is balanced. -/
lemma Accounts.balanced (accounts : Accounts fds d) : Balanced fds d := by
  obtain ⟨⟨known, accounted, created⟩, -, held⟩ := accounts
  exact ⟨held, known.1.1.2.handlers_perm, accounted, created⟩

/-- The accounts are in order when the loop is entered. -/
lemma boot_accounts (fds : Descriptors) (modem : σ) : Accounts fds (boot fds modem) := by
  refine ⟨⟨boot_known fds modem, fun addr lt => absurd lt (Nat.not_lt_zero addr), rfl⟩, ?_, ?_⟩
  · intro server fd owned here
    cases here
  · rw [Held]
    exact List.Perm.of_eq (List.append_nil _).symm

/-- The accounts are in order in every reachable state. -/
lemma reachable_accounts {modem : σ} {steps : List Step} {d : Daemon σ}
    (run : (system M).exec (boot fds modem) steps = some d) : Accounts fds d :=
  System.invariant (fun _ _ _ accounts step => step_accounts accounts step) (boot_accounts fds modem) run

/-- In every run, at every point between two callbacks, the process holds what it started with and what
its sessions need, and nothing else. -/
theorem always_balanced (M : MiniModem.Modem σ) (fds : Descriptors) (modem : σ) (steps : List Step) :
    (system M).Always (Balanced fds) (boot fds modem) steps := by
  intro before _ d run
  exact (reachable_accounts run).balanced

end MiniModem.Daemon
