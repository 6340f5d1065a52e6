import MiniModem.SharedModem.History
import MiniModem.SharedModem.Refinement

/-!
# What the sessions agree on

Over any stretch of a run, all sessions that are there from its beginning to its end are told the same
registrations, namely those published in it, in the order in which they are published, and nothing else but
the responses to what they ask in it (`registrations_agree`). A session that comes or goes is told those that
are published while it is there (`registrations_told`). And whatever the sessions do at the same time, the
modem and all the responses are those of one user who does everything alone (`responses_serial`).
-/

namespace MiniModem
open Lib Transport Modem

namespace Daemon
variable {σ : Type*}

/-- Whether there is a session with this address. -/
def isThere (d : Daemon σ) (addr : ℕ) : Bool :=
  (d.sessions .atServer).entries.any (fun entry => entry.2.addr = addr) ||
    (d.sessions .qmiServer).entries.any fun entry => entry.2.addr = addr

/-- The address is that of a session of one of the servers. -/
lemma isThere_iff {d : Daemon σ} {addr : ℕ} :
    d.isThere addr = true ↔
      ∃ server fd, ∃ owned : Owned server, d.session? server fd = some owned ∧ owned.addr = addr := by
  have one : ∀ server : Server, (d.sessions server).entries.any (fun entry => entry.2.addr = addr) = true ↔
      ∃ fd, ∃ owned : Owned server, d.session? server fd = some owned ∧ owned.addr = addr := by
    intro server
    simp only [List.any_eq_true, decide_eq_true_eq]
    refine ⟨?_, ?_⟩
    · intro found
      obtain ⟨⟨fd, owned⟩, mem, e⟩ := found
      exact ⟨fd, owned, AList.mem_lookup_iff.mpr mem, e⟩
    · intro found
      obtain ⟨fd, owned, here, e⟩ := found
      exact ⟨⟨fd, owned⟩, AList.mem_lookup_iff.mp here, e⟩
  rw [isThere, Bool.or_eq_true, one, one]
  refine ⟨?_, ?_⟩
  · intro either
    exact either.elim (fun found => ⟨_, found⟩) (fun found => ⟨_, found⟩)
  · intro found
    obtain ⟨server, found⟩ := found
    cases server with
    | atServer => exact .inl found
    | qmiServer => exact .inr found

/-- The events that a step publishes if the session with this address is there. -/
def publishedTo (M : MiniModem.Modem σ) (addr : ℕ) (d : Daemon σ) (step : Step) : List ModemEvent :=
  if d.isThere addr then published M d step else []

end Daemon

namespace SharedModem
open Daemon

section
variable {σ : Type*} {M : MiniModem.Modem σ} {fds : Descriptors} {d d' : Daemon σ} {s s' : SharedModem σ}

/-- The events of an action, as notes of a run. -/
abbrev eventsOf (M : MiniModem.Modem σ) (s : SharedModem σ) (action : Action) (_ : SharedModem σ) :
    List ModemEvent := action.events M s

/-- The events of some lines, handled one after the other. -/
lemma project_lines {c : ℕ} (present : s.clients.present? c = some .atServer) (lines : List Bytes) :
    (system M).project (eventsOf M) s (lines.map (.line c)) = heard M s.modem lines := by
  induction lines generalizing s with
  | nil => rfl
  | cons line lines ih =>
    have first : (system M).step s (.line c line) =
        some { modem := (M.handleAt s.modem line).1
               clients := (s.clients.announce (news (M.handleAt s.modem line).2.2)).tell c
                 [.text (M.handleAt s.modem line).2.1] } := by
      simp only [system, present, if_true]
    rw [List.map_cons, System.project_cons first, heard, ih]
    · rfl
    · rwa [Audience.present?_tell, Audience.present?_announce]

/-- What a session is asked publishes what its callback publishes. -/
lemma project_asked (r : Represents fds d s) {server : Server} {fd : Fd} {owned : Owned server}
    (here : d.session? server fd = some owned) (events : Events) (env : Environment) :
    (system M).project (eventsOf M) s (asked server events env owned) =
      publishedServing M server events env owned d := by
  cases server with
  | atServer =>
    rw [asked, project_lines (r.present here), r.modem, linesServed, publishedServing, publishedReading]
    by_cases readable : has events EPOLLIN = true
    · simp only [readable, Bool.and_true]
      split
      · rfl
      · rfl
    · have nothing : At.linesRead events env.reads owned.session.input = [] := by
        simp only [At.linesRead, readable, Bool.not_false, if_true, ite_self]
      simp only [readable, Bool.and_false, nothing, ite_self]
      rfl
  | qmiServer =>
    rw [publishedServing, publishedReading, ite_self]
    refine System.project_eq_nil (fun action mem s s' => ?_) s
    obtain ⟨request, -, rfl⟩ := List.mem_map.mp mem
    rfl

/-- The events of the actions that a step is are those that it publishes. -/
lemma project_actions (r : Represents fds d s) (bound : d.allocated < 2 ^ 64) {step : Step}
    (run : (Daemon.system M).step d step = some d') :
    (system M).project (eventsOf M) s (actions M d step) = published M d step := by
  cases step_effect run with
  | createPty => rfl
  | skipped callback => simp only [actions, published, callback, System.project]
  | stopped callback => simp only [actions, published, callback, System.project]
  | accepted callback =>
    simp only [actions, published, callback]
    refine System.project_eq_nil (fun action mem s s' => ?_) s
    split at mem
    · obtain ⟨client, -, rfl⟩ := List.mem_map.mp mem
      rfl
    · cases mem
  | @timer fd events env callback =>
    simp only [actions, published, callback]
    by_cases readable : has events EPOLLIN = true
    · simp only [readable, Bool.not_true, if_true, ← r.modem]
      exact List.append_nil _
    · simp only [readable, Bool.not_false, if_true]
      rfl
  | @served fd fd' events env server _ callback handled =>
    obtain ⟨rfl, owned, here⟩ := (r.watched.callback _ _).mp callback
    obtain ⟨between, run', -⟩ := exec_asked (M := M) r bound here events env
    simp only [actions, published, callback, here]
    rw [System.project_append run', project_asked r here]
    refine (congrArg _ (System.project_eq_nil (fun action mem s s' => ?_) between)).trans (List.append_nil _)
    split at mem
    · cases mem
    · obtain rfl := List.mem_singleton.mp mem
      rfl
  | published => rfl

/-- The sessions created so far are fewer than those created at the end. -/
lemma exec_bound {more : List Step} (run : (Daemon.system M).exec d more = some d') (w : Watched d)
    (bound : d'.allocated < 2 ^ 64) : d.allocated < 2 ^ 64 :=
  System.exec_back (Q := fun d => Watched d → d.allocated < 2 ^ 64)
    (fun _ _ _ taken last w => (step_allocated w taken).trans_lt (last (kept_watched.step w taken))) run
    (fun _ => bound) w

/-- A stretch of a run, and what observers of both systems note in it. -/
lemma exec_stretch {ν : Type*} {g : SharedModem σ → Action → SharedModem σ → List ν}
    {h : Daemon σ → Step → Daemon σ → List ν}
    (notes : ∀ d step d' s, Represents fds d s → d.allocated < 2 ^ 64 →
      (Daemon.system M).step d step = some d' →
        (system M).project g s (actions M d step) = h d step d')
    (r : Represents fds d s) {more : List Step}
    (run : (Daemon.system M).exec d more = some d') (bound : d'.allocated < 2 ^ 64) :
    ∃ s', (system M).exec s ((Daemon.system M).project (fun d step _ => actions M d step) d more) =
        some s' ∧
      (system M).project g s ((Daemon.system M).project (fun d step _ => actions M d step) d more) =
        (Daemon.system M).project h d more ∧
      Represents fds d' s' := by
  refine System.project_project (R := Represents fds) (Q := fun d => Watched d → d.allocated < 2 ^ 64)
    ?_ ?_ r run (fun _ => bound)
  · exact fun d step d' taken last w =>
      (step_allocated w taken).trans_lt (last (kept_watched.step w taken))
  · intro d step d' s r taken last
    have w := r.watched
    have bound := (step_allocated w taken).trans_lt (last (kept_watched.step w taken))
    obtain ⟨s', run', r'⟩ := exec_actions (M := M) r bound taken
    exact ⟨s', run', notes d step d' s r bound taken, r'⟩

/-! ### The sessions that are there -/

/-- A client is there as long as its session is. -/
lemma Represents.isThere (r : Represents fds d s) (c : ℕ) :
    (s.clients.present? c).isSome = d.isThere c := by
  rw [Bool.eq_iff_iff, isThere_iff, Option.isSome_iff_exists]
  refine ⟨?_, ?_⟩
  · intro found
    obtain ⟨server, found⟩ := found
    obtain ⟨told, client⟩ := Audience.present?_eq_some.mp found
    rcases r.session client with ⟨-, fd, owned, here, e⟩ | ⟨gone, -⟩
    · exact ⟨server, fd, owned, here, e⟩
    · cases gone
  · intro found
    obtain ⟨server, fd, owned, here, rfl⟩ := found
    exact ⟨server, r.present here⟩

/-- Nobody comes or goes in an action. -/
def Action.Stays : Action → Prop
  | connect _ => False
  | disconnect _ => False
  | line _ _ => True
  | request _ _ => True
  | timer => True
  | publish _ => True

/-- Where nobody comes or goes the same clients are present afterwards. -/
lemma step_stays {action : Action} (stays : action.Stays) (run : (system M).step s action = some s') (c : ℕ) :
    s'.clients.present? c = s.clients.present? c := by
  cases action with
  | connect server => cases stays
  | disconnect client => cases stays
  | line client input =>
    simp only [system] at run
    split at run
    · cases run
      rw [Audience.present?_tell, Audience.present?_announce]
    · cases run
  | request client input =>
    simp only [system] at run
    split at run
    · cases run
      rw [Audience.present?_tell]
    · cases run
  | timer =>
    cases run
    rw [Audience.present?_announce]
  | publish event =>
    cases run
    rw [Audience.present?_announce]

/-- What is published before anybody comes or goes. -/
lemma project_heardBy {c : ℕ} {front back : List Action} (stay : ∀ action ∈ front, action.Stays)
    (silent : ∀ action ∈ back, ∀ s, action.events M s = []) (s : SharedModem σ) :
    (system M).project (fun s action _ => action.heardBy M s c) s (front ++ back) =
      if (s.clients.present? c).isSome then (system M).project (eventsOf M) s (front ++ back) else [] := by
  induction front generalizing s with
  | nil =>
    rw [List.nil_append, System.project_eq_nil fun action mem s _ => silent action mem s,
      System.project_eq_nil fun action mem s _ => ?_, ite_self]
    rw [Action.heardBy, silent action mem, ite_self]
  | cons action front ih =>
    rw [List.cons_append, System.project, System.project]
    rcases first : (system M).step s action with _ | between
    · rw [ite_self]
    · have same := step_stays (stay action List.mem_cons_self) first c
      simp only [ih fun action mem => stay action (List.mem_cons_of_mem _ mem)]
      rw [same, Action.heardBy]
      split
      · rfl
      · rfl

/-- A step publishes before its sessions come and go. -/
lemma actions_split (M : MiniModem.Modem σ) (d : Daemon σ) (step : Step) :
    ∃ front back, actions M d step = front ++ back ∧ (∀ action ∈ front, action.Stays) ∧
      ∀ action ∈ back, ∀ s, action.events M s = [] := by
  have nothing : actions M d step = [] → ∃ front back, actions M d step = front ++ back ∧
      (∀ action ∈ front, action.Stays) ∧ ∀ action ∈ back, ∀ s, action.events M s = [] :=
    fun e => ⟨[], [], e, by simp, by simp⟩
  cases step with
  | createPty pty registers =>
    exact ⟨[], [.connect .atServer], rfl, by simp, by simp [Action.events]⟩
  | publish order event => exact ⟨[.publish event], [], rfl, by simp [Action.Stays], by simp⟩
  | deliver fd events env =>
    rcases callback : d.loop.callbacks.lookup fd with _ | called
    · exact nothing (by rw [actions, callback])
    · cases called with
      | signal => exact nothing (by rw [actions, callback])
      | acceptClients =>
        refine ⟨[], actions M d (.deliver fd events env), rfl, by simp, ?_⟩
        intro action mem s
        simp only [actions, callback] at mem
        split at mem
        · obtain ⟨client, -, rfl⟩ := List.mem_map.mp mem
          rfl
        · cases mem
      | networkTimer =>
        refine ⟨actions M d (.deliver fd events env), [], (List.append_nil _).symm, ?_, by simp⟩
        intro action mem
        simp only [actions, callback] at mem
        split at mem
        · obtain rfl := List.mem_singleton.mp mem
          trivial
        · cases mem
      | session server fd' =>
        rcases here : d.session? server fd' with _ | owned
        · exact nothing (by simp only [actions, callback, here])
        · refine ⟨asked server events env owned,
            if (d.serve M server fd' events env owned).1 then [] else [.disconnect owned.addr],
            by simp only [actions, callback, here], ?_, ?_⟩
          · intro action mem
            cases server with
            | atServer =>
              obtain ⟨line, -, rfl⟩ := List.mem_map.mp mem
              trivial
            | qmiServer =>
              obtain ⟨request, -, rfl⟩ := List.mem_map.mp mem
              trivial
          · intro action mem s
            split at mem
            · cases mem
            · obtain rfl := List.mem_singleton.mp mem
              rfl

/-- A client hears of a step what the step publishes while the session is there. -/
lemma project_publishedTo {c : ℕ} {step : Step} (r : Represents fds d s) (bound : d.allocated < 2 ^ 64)
    (run : (Daemon.system M).step d step = some d') :
    (system M).project (fun s action _ => action.heardBy M s c) s (actions M d step) =
      publishedTo M c d step := by
  obtain ⟨front, back, split, stay, silent⟩ := actions_split M d step
  rw [publishedTo, ← project_actions r bound run, ← r.isThere, split, project_heardBy stay silent]

/-- What a session has been told, whether it is there or has been destroyed: the registrations published while
it was there. -/
lemma registrations_told {modem : σ} {steps : List Step}
    (run : (Daemon.system M).exec (boot fds modem) steps = some d) (bound : d.allocated < 2 ^ 64)
    {server : Server} (owned : Owned server) (has : d.HasSession owned) :
    ∃ s present told, (system M).exec { modem } ((Daemon.system M).project (fun d step _ => actions M d step)
        (boot fds modem) steps) = some s ∧
      s.clients[owned.addr]? = some ⟨server, present, told⟩ ∧ owned.output = told.flatMap server.wire ∧
      told.filterMap Told.event? = registrations
        ((Daemon.system M).project (fun d step _ => publishedTo M owned.addr d step) (boot fds modem) steps) := by
  obtain ⟨s, run', notes, r⟩ := exec_stretch (fun _ _ _ _ => project_publishedTo)
    (boot_represents fds modem) run bound
  obtain ⟨present, told, client, output⟩ : ∃ present told,
      s.clients[owned.addr]? = some ⟨server, present, told⟩ ∧ owned.output = told.flatMap server.wire := by
    rcases has with ⟨fd, here⟩ | mem
    · exact ⟨true, r.live server fd owned here⟩
    · exact ⟨false, r.gone _ mem⟩
  have all := exec_registrationsTold (c := owned.addr) run'
  rw [notes, registrationsTold, client] at all
  exact ⟨s, present, told, run', client, output, all⟩

/-- The registrations that a client is told of are those among the events. -/
lemma project_toldTo (s : SharedModem σ) (c : ℕ) (as : List Action) :
    ((system M).project (fun s action _ => action.toldTo M s c) s as).filterMap Told.event? =
      registrations ((system M).project (eventsOf M) s as) := by
  have own : ∀ (s : SharedModem σ) (action : Action),
      (action.toldTo M s c).filterMap Told.event? = registrations (action.events M s) := by
    intro s action
    have silent : (action.answers M s c).filterMap Told.event? = [] :=
      List.filterMap_eq_nil_iff.mpr fun _ mem => (mem_answers mem).2
    rw [Action.toldTo, List.filterMap_append, filterMap_news, silent, List.append_nil]
  rw [System.map_project (g := List.filterMap Told.event?) rfl fun _ _ => List.filterMap_append,
    System.map_project (g := registrations) rfl registrations_append]
  simp only [own]

/-- The responses that a client gets are those for it among all. -/
lemma project_answers (s : SharedModem σ) (c : ℕ) (as : List Action) :
    (((system M).project (fun s action _ => (action.response M s).toList) s as).filter
        fun response => response.1 = c).map Prod.snd =
      (system M).project (fun s action _ => action.answers M s c) s as :=
  System.map_project (g := fun responses : List (ℕ × Told) =>
    (responses.filter fun response => response.1 = c).map Prod.snd) rfl
    (fun _ _ => by rw [List.filter_append, List.map_append]) s as

end

/-- The registrations published in a stretch of a run reach each session that is there all the time. What its
client has been told in the stretch is these, once each and in the order in which they were published, and the
responses that one user gets for what the session has been asked in it, and nothing else. -/
theorem registrations_agree {σ : Type*} (M : MiniModem.Modem σ) (fds : Descriptors) (modem : σ)
    (steps more : List Step) (d d' : Daemon σ)
    (run : (Daemon.system M).exec (boot fds modem) steps = some d)
    (run' : (Daemon.system M).exec d more = some d') (bound : d'.allocated < 2 ^ 64) (server : Server)
    (fd fd' : Fd) (owned owned' : Owned server) (here : d.session? server fd = some owned)
    (there : d'.session? server fd' = some owned') (same : owned'.addr = owned.addr) :
    let history := (Daemon.system M).project (fun d step _ => actions M d step) (boot fds modem) steps
    let stretch := (Daemon.system M).project (fun d step _ => actions M d step) d more
    ∃ s s' before told, (system M).exec { modem } history = some s ∧ (system M).exec s stretch = some s' ∧
      s.clients[owned.addr]? = some ⟨server, true, before⟩ ∧
      s'.clients[owned.addr]? = some ⟨server, true, before ++ told⟩ ∧
      owned.output = before.flatMap server.wire ∧ owned'.output = owned.output ++ told.flatMap server.wire ∧
      told.filterMap Told.event? =
        registrations ((Daemon.system M).project (fun d step _ => published M d step) d more) ∧
      told.filter Told.isResponse =
        ((replay M d.modem stretch).2.filter fun response => response.1 = owned.addr).map Prod.snd := by
  intro history stretch
  obtain ⟨s, run'', r⟩ := exec_represents run (exec_bound run' (reachable_subscribed run).1 bound)
  obtain ⟨s', actions', events, r'⟩ := exec_stretch (fun _ _ _ _ r bound => project_actions r bound) r run' bound
  obtain ⟨before, client, e⟩ := r.live server fd owned here
  obtain ⟨after, client', e'⟩ := r'.live server fd' owned' there
  obtain ⟨last, client'', -, heard⟩ := exec_told client actions'
  rw [same] at client'
  rw [client'] at client''
  cases client''
  obtain ⟨-, all⟩ := heard rfl
  simp only at all
  -- the responses are all that the client has been told before, and more
  have responses := exec_responses (c := owned.addr) actions'
  rw [SharedModem.responses, SharedModem.responses, client, client'] at responses
  simp only [Option.map_some, Option.getD_some, all, List.filter_append, List.append_cancel_left_eq]
    at responses
  rw [all] at client' e'
  refine ⟨s, s', before, _, run'', actions', client, client', e, ?_, ?_, ?_⟩
  · rw [e', List.flatMap_append, e]
  · rw [project_toldTo, events]
  · rw [responses, ← r.modem, exec_replay actions']
    exact (project_answers _ _ _).symm

/-- The first steps of the run, and the others. -/
theorem registrations_agree_lineAndRequest :
    ∃ d d', ∃ owned owned' : Owned .qmiServer,
      (Daemon.system sampleModem).exec (boot sampleDescriptors false) (lineAndRequest.take 2) = some d ∧
      (Daemon.system sampleModem).exec d (lineAndRequest.drop 2) = some d' ∧
      d.session? .qmiServer 8 = some owned ∧ d'.session? .qmiServer 8 = some owned' ∧
      ∃ told : List Told, owned'.output = owned.output ++ told.flatMap Server.qmiServer.wire ∧
        told.filterMap Told.event? = registrations ((Daemon.system sampleModem).project
          (fun d step _ => published sampleModem d step) d (lineAndRequest.drop 2)) := by
  have ran : ∃ d d', ∃ owned owned' : Owned .qmiServer,
      (Daemon.system sampleModem).exec (boot sampleDescriptors false) (lineAndRequest.take 2) = some d ∧
      (Daemon.system sampleModem).exec d (lineAndRequest.drop 2) = some d' ∧ d'.allocated < 2 ^ 64 ∧
      d.session? .qmiServer 8 = some owned ∧ d'.session? .qmiServer 8 = some owned' ∧
      owned'.addr = owned.addr := ⟨_, _, _, _, rfl, rfl, by decide, rfl, rfl, rfl⟩
  obtain ⟨d, d', owned, owned', run, run', bound, here, there, same⟩ := ran
  obtain ⟨-, -, -, told, -, -, -, -, -, output, registered, -⟩ :=
    registrations_agree sampleModem sampleDescriptors false _ _ d d' run run' bound .qmiServer 8 8 owned
      owned' here there same
  exact ⟨d, d', owned, owned', run, run', here, there, told, output, registered⟩

/-- Whatever the sessions do at the same time, the modem is in the state, and the responses are those, that
one user gets who does alone, one after the other, what the sessions have asked for. This is so for the
sessions that are there and for those that have been destroyed. -/
theorem responses_serial {σ : Type*} (M : MiniModem.Modem σ) (fds : Descriptors) (modem : σ)
    (steps : List Step) (d : Daemon σ) (run : (Daemon.system M).exec (boot fds modem) steps = some d)
    (bound : d.allocated < 2 ^ 64) :
    let history := (Daemon.system M).project (fun d step _ => actions M d step) (boot fds modem) steps
    d.modem = (replay M modem history).1 ∧
      ∀ server (owned : Owned server), d.HasSession owned →
        ∃ told : List Told, owned.output = told.flatMap server.wire ∧
          told.filter Told.isResponse =
            ((replay M modem history).2.filter fun response => response.1 = owned.addr).map Prod.snd := by
  intro history
  obtain ⟨s, run', r⟩ := exec_represents run bound
  have alone := exec_replay run'
  have got : ∀ {present} {server : Server} (owned : Owned server), s.Tells present owned →
      ∃ told : List Told, owned.output = told.flatMap server.wire ∧
        told.filter Told.isResponse =
          ((replay M modem history).2.filter fun response => response.1 = owned.addr).map Prod.snd := by
    intro present server owned tells
    obtain ⟨told, client, e⟩ := tells
    have all := exec_responses (c := owned.addr) run'
    rw [responses, client] at all
    refine ⟨told, e, all.trans ?_⟩
    rw [alone, project_answers]
    rfl
  refine ⟨?_, ?_⟩
  · rw [alone]
    exact r.modem.symm
  · intro server owned has
    rcases has with ⟨fd, here⟩ | mem
    · exact got owned (r.live server fd owned here)
    · exact got owned (r.gone _ mem)

/-- The modem after the run is the one that a single user gets. -/
theorem responses_serial_lineAndRequest :
    ∃ d, (Daemon.system sampleModem).exec (boot sampleDescriptors false) lineAndRequest = some d ∧
      d.modem = (replay sampleModem false ((Daemon.system sampleModem).project
        (fun d step _ => actions sampleModem d step) (boot sampleDescriptors false) lineAndRequest)).1 := by
  have ran : ∃ d, (Daemon.system sampleModem).exec (boot sampleDescriptors false) lineAndRequest = some d ∧
      d.allocated < 2 ^ 64 := ⟨_, rfl, by decide⟩
  obtain ⟨d, run, bound⟩ := ran
  exact ⟨d, run, (responses_serial sampleModem sampleDescriptors false lineAndRequest d run bound).1⟩

end MiniModem.SharedModem
