import MiniModem.Daemon.Main
import MiniModem.Qmi.Fragmentation

/-!
# What the process leaves

How far `main` comes before it ends (`main_reaches`). If `main` returns, there is no session and no handler
left, and it has closed what it has opened, with one exception: if the listening socket cannot be registered,
it stays open, and its file stays. If SIGPIPE kills the process, everything is left as it is (`main_leaves`).
-/

namespace MiniModem.Daemon
open Lib Transport Modem

variable {σ : Type*} {M : MiniModem.Modem σ} {fds : Descriptors} {d c : Daemon σ}

/-! ### The constructors -/

section
variable {openFds : List Fd}

/-- A descriptor is closed. -/
lemma Unwound.close (u : Unwound openFds c) (fd : Fd) : Unwound (openFds.filter (· ≠ fd)) (c.close fd) :=
  ⟨u.sessions, u.handlers, u.accounted, u.once, u.openFds.filter _⟩

/-- A descriptor is opened. -/
lemma Unwound.openFd (u : Unwound openFds c) {fd : Fd} (real : fd ≠ -1) :
    Unwound (fd :: openFds) (c.openFd fd) := by
  rw [Daemon.openFd, if_neg real]
  exact ⟨u.sessions, u.handlers, u.accounted, u.once, u.openFds.cons fd⟩

/-- `~EventLoop` closes two descriptors. -/
lemma Unwound.destroyLoop (u : Unwound openFds c) {k : Kernel} (real : k.signalFd ≠ -1) :
    Unwound ((openFds.filter (· ≠ k.signalFd)).filter (· ≠ k.epollFd)) (c.destroyLoop k) := by
  rw [Daemon.destroyLoop, if_pos real]
  exact (u.close k.signalFd).close k.epollFd

/-- The descriptor of the socket is noted. -/
lemma Unwound.listens (u : Unwound openFds c) (listenFd : Fd) : Unwound openFds { c with listenFd } :=
  ⟨u.sessions, u.handlers, u.accounted, u.once, u.openFds⟩

/-- Without sessions `~at::Server` does nothing. -/
lemma Unwound.destructor (u : Unwound openFds c) (order : SessionOrder) :
    c.destructor .atServer order = c := by
  rw [Daemon.destructor, u.sessions]
  rfl

/-- A new descriptor is none of those that are open. -/
lemma filter_new {fd : Fd} {openFds : List Fd} (new : fd ∉ openFds) : openFds.filter (· ≠ fd) = openFds := by
  refine List.filter_eq_self.mpr fun fd' mem => ?_
  simp only [ne_eq, decide_eq_true_eq]
  rintro rfl
  exact new mem

/-- At the start there is nothing to unwind. -/
lemma start_unwound (openFds : List Fd) (modem : σ) (socketFile : Bool) :
    Unwound openFds (start openFds modem socketFile).daemon :=
  ⟨fun _ => rfl, fun _ => rfl, fun _ lt => absurd lt (Nat.not_lt_zero _), rfl, .refl _⟩

/-- The process when the event loop is there. -/
def looped (k : Kernel) (openFds : List Fd) (modem : σ) : Daemon σ where
  signalFd := k.signalFd
  listenFd := -1
  timerFd := -1
  openFds := k.signalFd :: k.epollFd :: openFds
  loop :=
    { epoll := ⟨AList.insert k.signalFd EPOLLIN ∅⟩
      callbacks := UnorderedMap.emplace k.signalFd .signal ∅ }
  modem

/-- Nor is there when the event loop has been constructed, but for its descriptors. -/
lemma looped_unwound (k : Kernel) (openFds : List Fd) (modem : σ) :
    Unwound (k.signalFd :: k.epollFd :: openFds) (looped k openFds modem) :=
  ⟨fun _ => rfl, fun _ => rfl, fun _ lt => absurd lt (Nat.not_lt_zero _), rfl, .refl _⟩

/-- Without a socket nothing is bound. -/
lemma Kernel.binds_of_opens {k : Kernel} (path : Bytes) (socketFile : Bool) (opens : k.opens = false) :
    k.binds path socketFile = false := by
  simp [Kernel.binds, opens]

/-- The descriptors of the event loop are closed. -/
lemma Kernel.Possible.closed {k : Kernel} (possible : k.Possible openFds) (loops : k.epollFd ≠ -1)
    (real : k.signalFd ≠ -1) (more : List Fd) (new : k.signalFd ∉ more ∧ k.epollFd ∉ more) :
    ((more ++ k.signalFd :: k.epollFd :: openFds).filter (· ≠ k.signalFd)).filter (· ≠ k.epollFd) =
      more ++ openFds := by
  have mem : k.signalFd ∈ k.fds ∧ k.epollFd ∈ k.fds := by
    simp [Kernel.fds, loops, real]
  have signal := (possible.new _ mem.1).2
  have epoll := (possible.new _ mem.2).2
  rw [List.filter_append, filter_new new.1, List.filter_cons_of_neg (by simp), List.filter_append,
    filter_new new.2, List.filter_filter]
  congr 1
  rw [List.filter_cons_of_neg (by simp), ← List.filter_filter, filter_new signal, filter_new epoll]

/-- The event loop is constructed, or nothing is left of it. -/
lemma createLoop_cases {k : Kernel} (possible : k.Possible openFds) (modem : σ) (socketFile : Bool) :
    (k.loops = true ∧ createLoop k (start openFds modem socketFile).daemon =
        .returned (looped k openFds modem)) ∨
      (k.loops = false ∧ ∃ d, createLoop k (start openFds modem socketFile).daemon = .threw d ∧
        Unwound openFds d) := by
  have first := start_unwound openFds modem socketFile
  rw [createLoop]
  by_cases epoll : k.epollFd = -1
  · rw [if_pos epoll]
    exact .inr ⟨by simp [Kernel.loops, epoll], _, rfl, first⟩
  · rw [if_neg epoll]
    by_cases signal : k.signalFd = -1
    · have mem : k.epollFd ∈ k.fds := by
        simp [Kernel.fds, epoll]
      have closed := (first.openFd epoll).close k.epollFd
      rw [List.filter_cons_of_neg (by simp), filter_new (possible.new _ mem).2] at closed
      refine .inr ⟨by simp [Kernel.loops, signal], ?_⟩
      have cannot : (k.signalRegisters && k.signalFd != -1) = false := by
        simp [signal]
      have none : ((start openFds modem socketFile).daemon.openFd k.epollFd).openFd k.signalFd =
          (start openFds modem socketFile).daemon.openFd k.epollFd := if_pos signal
      simp only [none, cannot, addFd_false]
      rw [Daemon.destroyLoop, if_neg (not_not.mpr signal)]
      exact ⟨_, rfl, closed.sessions, closed.handlers, closed.accounted, closed.once, closed.openFds⟩
    · have both := (first.openFd epoll).openFd signal
      cases registers : k.signalRegisters with
      | true =>
        refine .inl ⟨by simp [Kernel.loops, epoll, signal, registers], ?_⟩
        have can : (true && k.signalFd != -1) = true := by
          simp [signal]
        simp only [can, EventLoop.addFd, Epoll.add, Outcome.map, Outcome.andThen, Daemon.openFd, if_neg epoll,
          if_neg signal]
        rfl
      | false =>
        have closed := both.destroyLoop signal
        have back := possible.closed epoll signal [] ⟨List.not_mem_nil, List.not_mem_nil⟩
        rw [List.nil_append, List.nil_append] at back
        rw [back] at closed
        refine .inr ⟨by simp [Kernel.loops, registers], ?_⟩
        simp only [Bool.false_and, addFd_false]
        rw [Daemon.destroyLoop, if_pos signal] at closed ⊢
        exact ⟨_, rfl, closed.sessions, closed.handlers, closed.accounted, closed.once, closed.openFds⟩

/-- The process when the timer is there, but not registered. -/
def timed (k : Kernel) (timerFd : Fd) (openFds : List Fd) (modem : σ) : Daemon σ :=
  { (looped k openFds modem).openFd timerFd with timerFd }

/-- With the timer one more descriptor is open. -/
lemma timed_unwound (k : Kernel) {timerFd : Fd} (real : timerFd ≠ -1) (openFds : List Fd) (modem : σ) :
    Unwound (timerFd :: k.signalFd :: k.epollFd :: openFds) (timed k timerFd openFds modem) := by
  have u := (looped_unwound k openFds modem).openFd real
  exact ⟨u.sessions, u.handlers, u.accounted, u.once, u.openFds⟩

/-- The descriptors are new, and the listening one is none of the others. -/
lemma Kernel.Possible.listenFd {k : Kernel} (possible : k.Possible openFds) (loops : k.loops = true)
    (real : k.listenFd ≠ -1) {timerFd : Fd} (timer : k.timerFd = some timerFd) :
    k.fds = [k.epollFd, k.signalFd, k.listenFd, timerFd] ∧
      k.listenFd ∉ timerFd :: k.signalFd :: k.epollFd :: openFds := by
  simp only [Kernel.loops, Bool.and_eq_true, bne_iff_ne] at loops
  have fds : k.fds = [k.epollFd, k.signalFd, k.listenFd, timerFd] := by
    simp [Kernel.fds, loops, real, timer]
  have once := possible.once
  have new := (possible.new k.listenFd (by simp [fds])).2
  rw [fds] at once
  simp only [List.nodup_cons, List.mem_cons, List.not_mem_nil, or_false, not_or] at once ⊢
  exact ⟨fds, once.2.2.1, Ne.symm once.2.1.1, Ne.symm once.1.2.1, new⟩

/-- The constructor of the server throws. -/
lemma createServer_threw {k : Kernel} (possible : k.Possible openFds) (loops : k.loops = true) {timerFd : Fd}
    (timer : k.timerFd = some timerFd) (path : Bytes) (modem : σ) (socketFile : Bool)
    (fails : k.serves path socketFile = false) :
    ∃ p, createServer k path ⟨timed k timerFd openFds modem, socketFile⟩ = .threw p ∧
      p.socketFile = k.leavesFile path socketFile ∧
      Unwound ((if k.leaks path socketFile then [k.listenFd] else []) ++
        timerFd :: k.signalFd :: k.epollFd :: openFds) p.daemon := by
  have real : timerFd ≠ -1 := by
    rintro rfl
    have mem : (-1 : Fd) ∈ k.fds := by
      simp [Kernel.fds, timer]
    exact absurd (possible.new _ mem).1 (by decide)
  have u := timed_unwound k real openFds modem
  rw [createServer]
  by_cases listenFd : k.listenFd = -1
  · have opens : k.opens = false := by
      simp [Kernel.opens, listenFd]
    have binds := Kernel.binds_of_opens path socketFile opens
    refine ⟨_, if_pos listenFd, ?_, ?_⟩
    · simp [Kernel.leavesFile, binds, Kernel.stale, opens]
    · simpa [Kernel.leaks, binds] using u
  · have opens : k.opens = true := by
      simp [Kernel.opens, loops, timer, listenFd]
    have stale : k.stale socketFile = (socketFile && !k.unlink) := by
      simp [Kernel.stale, opens]
    have u' := (u.openFd listenFd).listens k.listenFd
    obtain ⟨fds, new⟩ := possible.listenFd loops listenFd timer
    have closed := u'.close k.listenFd
    rw [List.filter_cons_of_neg (by simp), filter_new new] at closed
    rw [if_neg listenFd]
    by_cases short : path.length ≥ sunPathSize
    · have binds : k.binds path socketFile = false := by
        simp [Kernel.binds, Nat.not_lt.mpr short]
      refine ⟨_, if_pos short, by simp [Kernel.leavesFile, stale, binds], ?_⟩
      simp only [Kernel.leaks, binds, Bool.false_and, Bool.false_eq_true, if_false, List.nil_append]
      exact closed
    · rw [if_neg short]
      by_cases cannot : (!k.bind || (socketFile && !k.unlink)) = true
      · have binds : k.binds path socketFile = false := by
          rw [Bool.or_eq_true, Bool.not_eq_true'] at cannot
          rcases cannot with bind | there
          · simp [Kernel.binds, bind]
          · simp [Kernel.binds, stale, there]
        refine ⟨_, if_pos cannot, by simp [Kernel.leavesFile, stale, binds], ?_⟩
        simp only [Kernel.leaks, binds, Bool.false_and, Bool.false_eq_true, if_false, List.nil_append]
        exact closed
      · rw [if_neg cannot]
        have binds : k.binds path socketFile = true := by
          rw [Bool.not_eq_true, Bool.or_eq_false_iff, Bool.not_eq_false'] at cannot
          simp [Kernel.binds, opens, cannot, stale, Nat.not_le.mp short]
        cases listen : k.listen with
        | false =>
          refine ⟨_, rfl, by simp [Kernel.leavesFile, Kernel.serves, binds, listen], ?_⟩
          simp only [Kernel.leaks, listen, Bool.and_false, Bool.false_and, Bool.false_eq_true, if_false,
            List.nil_append]
          exact closed
        | true =>
          -- the registration fails, and the socket stays open
          have registers : k.listenRegisters = false := by
            simpa [Kernel.serves, binds, listen] using fails
          refine ⟨_, by
            simp only [registers, Bool.not_true, Bool.false_eq_true, if_false, addFd_false]
            rfl, by simp [Kernel.leavesFile, Kernel.serves, binds, listen, registers], ?_⟩
          simp only [Kernel.leaks, binds, listen, registers, Bool.not_false, Bool.and_true, if_true]
          exact u'

/-- Both servers are there, and the socket has its file. -/
structure Equipped (k : Kernel) (path : Bytes) (openFds : List Fd) (modem : σ) (socketFile : Bool)
    (fds : Descriptors) (p : Process σ) : Prop where
  loops : k.loops = true
  timer : k.timerFd = some fds.timerFd
  serves : k.serves path socketFile = true
  listens : k.listenFd ≠ -1
  signalFd : fds.signalFd = k.signalFd
  listenFd : fds.listenFd = k.listenFd
  all : fds.all = [k.signalFd, k.listenFd, fds.timerFd] ++ k.epollFd :: openFds
  booted : Booted fds modem p.daemon
  file : p.socketFile = true

/-- The constructor of the server returns. -/
lemma createServer_returned {k : Kernel} (possible : k.Possible openFds) (loops : k.loops = true)
    {timerFd : Fd} (timer : k.timerFd = some timerFd) {path : Bytes} (modem : σ) (socketFile : Bool)
    (serves : k.serves path socketFile = true) :
    ∃ p fds, createServer k path ⟨timed k timerFd openFds modem, socketFile⟩ = .returned p ∧
      Equipped k path openFds modem socketFile fds p := by
  have both := serves
  simp only [Kernel.serves, Kernel.binds, Bool.and_eq_true, Bool.not_eq_true', decide_eq_true_eq] at both
  obtain ⟨⟨⟨⟨⟨opens, short⟩, bind⟩, gone⟩, listen⟩, registers⟩ := both
  have real : k.listenFd ≠ -1 := by
    simp only [Kernel.opens, Bool.and_eq_true, bne_iff_ne] at opens
    exact opens.2
  rw [Kernel.stale, opens, Bool.true_and] at gone
  obtain ⟨all, -⟩ := possible.listenFd loops real timer
  have once := possible.once
  rw [all] at once
  simp only [List.nodup_cons, List.mem_cons, List.not_mem_nil, or_false, not_or] at once
  have real' : timerFd ≠ -1 := by
    rintro rfl
    exact absurd (possible.new (-1) (by simp [all])).1 (by decide)
  have distinct : [k.signalFd, k.listenFd, timerFd].Nodup := by
    simp only [List.nodup_cons, List.mem_cons, List.not_mem_nil, or_false, not_or]
    exact ⟨once.2.1, once.2.2.1, not_false, List.nodup_nil⟩
  have absent : k.listenFd ∉ AList.insert k.signalFd EPOLLIN (∅ : UnorderedMap Fd Events) := by
    rw [AList.mem_insert, not_or]
    exact ⟨Ne.symm once.2.1.1, AList.notMem_empty _⟩
  have added : (looped k openFds modem).loop.addFd true k.listenFd EPOLLIN .acceptClients =
      .returned
        { epoll := ⟨(AList.insert k.signalFd EPOLLIN ∅).insert k.listenFd EPOLLIN⟩
          callbacks := UnorderedMap.emplace k.listenFd .acceptClients
            (UnorderedMap.emplace k.signalFd .signal ∅) } :=
    EventLoop.addFd_returned.mpr ⟨⟨rfl, absent⟩, rfl⟩
  rw [createServer, if_neg real]
  simp only [gone]
  rw [if_neg (Nat.not_le.mpr short), bind, listen, registers]
  simp only [timed, openFd, if_neg real, if_neg real', Bool.not_true, Bool.or_false, Bool.false_eq_true,
    if_false]
  rw [added]
  refine ⟨_, ⟨k.signalFd, k.listenFd, timerFd, k.epollFd :: openFds, distinct⟩, rfl, loops, timer, serves, real,
    rfl, rfl, rfl, ⟨⟨rfl, rfl, rfl, rfl, ?_⟩, rfl, rfl, rfl, rfl, rfl⟩, rfl⟩
  rw [List.filter_eq_self.mpr fun fd _ => by simp]
  have perm : ([k.listenFd, timerFd] ++ [k.signalFd]).Perm ([k.signalFd] ++ [k.listenFd, timerFd]) :=
    List.perm_append_comm
  exact perm.append_right (k.epollFd :: openFds)

/-- The descriptors of the event loop are none of the others. -/
lemma Kernel.Possible.loopFds {k : Kernel} (possible : k.Possible openFds) (loops : k.loops = true)
    {timerFd : Fd} (timer : k.timerFd = some timerFd) (path : Bytes)
    (socketFile : Bool) :
    k.signalFd ∉ (if k.leaks path socketFile then [k.listenFd] else []) ++ [timerFd] ∧
      k.epollFd ∉ (if k.leaks path socketFile then [k.listenFd] else []) ++ [timerFd] := by
  have real := loops
  simp only [Kernel.loops, Bool.and_eq_true, bne_iff_ne] at real
  have once := possible.once
  by_cases listenFd : k.listenFd = -1
  · have leaks : k.leaks path socketFile = false := by
      simp [Kernel.leaks, Kernel.binds, Kernel.opens, listenFd]
    have all : k.fds = [k.epollFd, k.signalFd, timerFd] := by
      simp [Kernel.fds, real, listenFd, timer]
    rw [all] at once
    simp only [List.nodup_cons, List.mem_cons, List.not_mem_nil, or_false, not_or] at once
    rw [leaks]
    simp [once]
  · obtain ⟨all, -⟩ := possible.listenFd loops listenFd timer
    rw [all] at once
    simp only [List.nodup_cons, List.mem_cons, List.not_mem_nil, or_false, not_or] at once
    split
    · simp [once]
    · simp [once]

end

/-- The destructors leave the descriptor of the timer. -/
lemma Kernel.Possible.unwound {k : Kernel} {openFds : List Fd} (possible : k.Possible openFds)
    (loops : k.loops = true) (real : k.listenFd ≠ -1) {timerFd : Fd} (timer : k.timerFd = some timerFd) :
    ((([k.signalFd, k.listenFd, timerFd] ++ k.epollFd :: openFds).filter (· ≠ k.listenFd)).filter
      (· ≠ k.signalFd)).filter (· ≠ k.epollFd) = timerFd :: openFds := by
  obtain ⟨all, new⟩ := possible.listenFd loops real timer
  have once := possible.once
  rw [all] at once
  simp only [List.nodup_cons, List.mem_cons, List.not_mem_nil, or_false, not_or] at once new
  have epoll := (possible.new k.epollFd (by simp [all])).2
  have signal := (possible.new k.signalFd (by simp [all])).2
  have rest : ∀ fd, fd ∉ openFds → fd ≠ k.epollFd →
      (k.epollFd :: openFds).filter (· ≠ fd) = k.epollFd :: openFds := by
    intro fd new ne
    exact filter_new (by simp [new, ne])
  have last : (k.epollFd :: openFds).filter (· ≠ k.epollFd) = openFds := by
    rw [List.filter_cons_of_neg (by simp), filter_new epoll]
  have first : (([k.signalFd, k.listenFd, timerFd].filter (· ≠ k.listenFd)).filter (· ≠ k.signalFd)).filter
      (· ≠ k.epollFd) = [timerFd] := by
    have ne := Ne.symm new.1
    have ne' := Ne.symm once.2.1.2
    have ne'' := Ne.symm once.1.2.2
    simp [once.2.1.1, ne, ne', ne'']
  rw [List.filter_append, rest _ new.2.2.2 new.2.2.1, List.filter_append, rest _ signal (Ne.symm once.1.1),
    List.filter_append, last, first]
  rfl

/-- There are no sessions and no handlers, each session ever created has been destroyed once, and these
descriptors are open and no others. A process that has ended well has closed its socket, and the file is gone
unless it could not be removed. -/
structure Leaves (k : Kernel) (path : Bytes) (openFds : List Fd) (socketFile : Bool) (exit : Exit σ) :
    Prop where
  unwound : Unwound (k.left path openFds socketFile) exit.process.daemon
  file : exit.process.socketFile = k.leavesFile path socketFile
  success : exit.ending = .exited 0 →
    k.leaks path socketFile = false ∧ exit.process.socketFile = !k.unlinkAtEnd

/-- Nothing has been destroyed or closed at the end: all that the process has opened is still open, with the
descriptors of the sessions that are there, and the file of the socket stays. A QMI client has not got all of
its output. -/
structure Abandons (k : Kernel) (openFds : List Fd) (exit : Exit σ) : Prop where
  balanced : ∃ fds : Descriptors, fds.all.Perm (k.fds ++ openFds) ∧ Balanced fds exit.process.daemon
  file : exit.process.socketFile = true
  unsent : exit.process.daemon.Unsent

section
variable {openFds : List Fd} {k : Kernel} {path : Bytes} {modem : σ} {socketFile : Bool}

/-- Without a socket none is leaked. -/
lemma Kernel.leaks_of_opens (opens : k.opens = false) : k.leaks path socketFile = false := by
  simp [Kernel.leaks, Kernel.binds, opens]

/-- What was there before stays, if the constructor of the server does not come to remove it. -/
lemma Kernel.leavesFile_of_opens (opens : k.opens = false) : k.leavesFile path socketFile = socketFile := by
  simp [Kernel.leavesFile, Kernel.binds, Kernel.stale, opens]

/-- The constructor of `TimerFd` throws. -/
lemma leaves_timerless (possible : k.Possible openFds) (loops : k.loops = true) (timer : k.timerFd = none) :
    Leaves k path openFds socketFile ⟨.exited 1, ⟨(looped k openFds modem).destroyLoop k, socketFile⟩⟩ := by
  have real := loops
  simp only [Kernel.loops, Bool.and_eq_true, bne_iff_ne] at real
  have opens : k.opens = false := by
    simp [Kernel.opens, timer]
  refine ⟨?_, (Kernel.leavesFile_of_opens opens).symm, by simp⟩
  have u := (looped_unwound k openFds modem).destroyLoop real.1.2
  have back := possible.closed real.1.1 real.1.2 [] ⟨List.not_mem_nil, List.not_mem_nil⟩
  rw [List.nil_append, List.nil_append] at back
  rw [back] at u
  simpa [Kernel.left, Kernel.leaks_of_opens opens, loops, timer] using u

/-- The constructor of the server throws. -/
lemma leaves_serverless (possible : k.Possible openFds) (loops : k.loops = true) {timerFd : Fd}
    (timer : k.timerFd = some timerFd) (order : SessionOrder) {p : Process σ}
    (file : p.socketFile = k.leavesFile path socketFile)
    (u : Unwound ((if k.leaks path socketFile then [k.listenFd] else []) ++
      timerFd :: k.signalFd :: k.epollFd :: openFds) p.daemon) :
    Leaves k path openFds socketFile
      ⟨.exited 1, { p with daemon := (p.daemon.destructor .atServer order).destroyLoop k }⟩ := by
  have real := loops
  simp only [Kernel.loops, Bool.and_eq_true, bne_iff_ne] at real
  refine ⟨?_, file, by simp⟩
  have closed := u.destroyLoop real.1.2
  rw [List.append_cons, possible.closed real.1.1 real.1.2 _ (possible.loopFds loops timer path socketFile)]
    at closed
  simp only [u.destructor, Kernel.left, loops, timer, if_true, Option.toList_some]
  exact closed

/-- The servers are there, and whatever is then returned or thrown leaves a state that the destructors can
unwind. -/
lemma Equipped.leaves {p : Process σ} (equipped : Equipped k path openFds modem socketFile fds p)
    (possible : k.Possible openFds) (order : SessionOrder) (code : ℕ) (recoverable : Recoverable fds d) :
    Leaves k path openFds socketFile
      ⟨.exited code, ⟨(d.unwind order).destroyLoop k, !k.unlinkAtEnd⟩⟩ := by
  have real := equipped.loops
  simp only [Kernel.loops, Bool.and_eq_true, bne_iff_ne] at real
  have both := equipped.serves
  simp only [Kernel.serves, Bool.and_eq_true] at both
  have leaks : k.leaks path socketFile = false := by
    simp [Kernel.leaks, both]
  refine ⟨?_, by simp [Kernel.leavesFile, both, equipped.serves], fun _ => ⟨leaks, rfl⟩⟩
  obtain ⟨e, accounts, t, same⟩ := recoverable
  have listens := equipped.listenFd.trans_ne equipped.listens
  have u := (unwind_unwound accounts t same listens order).destroyLoop real.1.2
  rw [equipped.all, equipped.listenFd, possible.unwound equipped.loops equipped.listens equipped.timer] at u
  simp only [Kernel.left, leaks, equipped.loops, equipped.timer, if_true, Option.toList_some]
  exact u

/-- SIGPIPE has killed the process. -/
lemma Equipped.abandons {p : Process σ} (equipped : Equipped k path openFds modem socketFile fds p)
    (possible : k.Possible openFds) (accounts : Accounts fds d) (unsent : d.Unsent) :
    Abandons k openFds ⟨.killed, { p with daemon := d }⟩ := by
  refine ⟨⟨fds, ?_, accounts.balanced⟩, equipped.file, unsent⟩
  rw [equipped.all, (possible.listenFd equipped.loops equipped.listens equipped.timer).1]
  exact List.perm_middle

/-- How far `main` comes, with what is known there, and how it then ends. -/
inductive Reaches (M : MiniModem.Modem σ) (order : SessionOrder) (path : Bytes) (k : Kernel) (openFds : List Fd)
    (modem : σ) (socketFile : Bool) : Exit σ → Prop
  | loopless {d : Daemon σ} (loops : k.loops = false) (unwound : Unwound openFds d) :
      Reaches M order path k openFds modem socketFile ⟨.exited 1, ⟨d, socketFile⟩⟩
  | timerless (loops : k.loops = true) (timer : k.timerFd = none) :
      Reaches M order path k openFds modem socketFile
        ⟨.exited 1, ⟨(looped k openFds modem).destroyLoop k, socketFile⟩⟩
  | serverless {timerFd : Fd} {p : Process σ} (loops : k.loops = true) (timer : k.timerFd = some timerFd)
      (fails : k.serves path socketFile = false) (file : p.socketFile = k.leavesFile path socketFile)
      (unwound : Unwound ((if k.leaks path socketFile then [k.listenFd] else []) ++
        timerFd :: k.signalFd :: k.epollFd :: openFds) p.daemon) :
      Reaches M order path k openFds modem socketFile
        ⟨.exited 1, { p with daemon := (p.daemon.destructor .atServer order).destroyLoop k }⟩
  | returned {fds : Descriptors} {p : Process σ} {d : Daemon σ}
      (equipped : Equipped k path openFds modem socketFile fds p)
      (served : serveClients M k p.daemon = some (.returned d)) :
      Reaches M order path k openFds modem socketFile
        ⟨.exited 0, ⟨(d.unwind order).destroyLoop k, !k.unlinkAtEnd⟩⟩
  | threw {fds : Descriptors} {p : Process σ} {d : Daemon σ}
      (equipped : Equipped k path openFds modem socketFile fds p)
      (served : serveClients M k p.daemon = some (.threw d)) :
      Reaches M order path k openFds modem socketFile
        ⟨.exited 1, ⟨(d.unwind order).destroyLoop k, !k.unlinkAtEnd⟩⟩
  | killed {fds : Descriptors} {p : Process σ} {d : Daemon σ}
      (equipped : Equipped k path openFds modem socketFile fds p)
      (served : serveClients M k p.daemon = some (.killed d)) :
      Reaches M order path k openFds modem socketFile ⟨.killed, { p with daemon := d }⟩

/-- One case for each way in which `main` ends. -/
lemma main_reaches {M : MiniModem.Modem σ} {order : SessionOrder} (possible : k.Possible openFds)
    {exit : Exit σ} (ends : main M order path k (start openFds modem socketFile) = some exit) :
    Reaches M order path k openFds modem socketFile exit := by
  rw [main] at ends
  rcases createLoop_cases possible modem socketFile with ⟨loops, made⟩ | ⟨loops, d, made, unwound⟩
  · rw [made] at ends
    rcases timer : k.timerFd with _ | timerFd
    · simp only [timer] at ends
      cases ends
      exact .timerless loops timer
    · simp only [timer] at ends
      cases serves : k.serves path socketFile with
      | true =>
        obtain ⟨p, fds, returned, equipped⟩ :=
          createServer_returned possible loops timer modem socketFile serves
        rw [timed] at returned
        simp only [start, returned] at ends
        rcases served : serveClients M k p.daemon with _ | course
        · simp only [served] at ends
          cases ends
        · simp only [served] at ends
          cases course with
          | returned d =>
            cases ends
            exact .returned equipped served
          | threw d =>
            cases ends
            exact .threw equipped served
          | killed d =>
            cases ends
            exact .killed equipped served
      | false =>
        obtain ⟨p, threw, file, unwound⟩ :=
          createServer_threw possible loops timer path modem socketFile serves
        rw [timed] at threw
        simp only [start, threw] at ends
        cases ends
        exact .serverless loops timer serves file unwound
  · rw [made] at ends
    cases ends
    exact .loopless loops unwound

end

/-- If `main` returns, there are no sessions and no handlers at the end, each session ever created has been
destroyed once, and what the process has opened is closed, but for the descriptor of the timer, which is left
to `~TimerFd`. The listening socket stays open exactly if it could be bound but not registered. A file stays
that could not be removed, or that the socket was bound to before an error. If SIGPIPE kills the process, all
of this stays as it is. -/
theorem main_leaves {σ : Type*} (M : MiniModem.Modem σ) (order : SessionOrder) (path : Bytes) (k : Kernel)
    (openFds : List Fd) (modem : σ) (socketFile : Bool) (possible : k.Possible openFds) (exit : Exit σ)
    (ends : main M order path k (start openFds modem socketFile) = some exit) :
    (∀ code, exit.ending = .exited code → Leaves k path openFds socketFile exit) ∧
      (exit.ending = .killed → Abandons k openFds exit) := by
  -- one of the two is about another ending
  have leaving : ∀ {code : ℕ} {p : Process σ}, Leaves k path openFds socketFile ⟨.exited code, p⟩ →
      (∀ code', Ending.exited code = .exited code' → Leaves k path openFds socketFile ⟨.exited code, p⟩) ∧
        (Ending.exited code = .killed → Abandons k openFds ⟨.exited code, p⟩) :=
    fun leaves => ⟨fun _ _ => leaves, fun e => by cases e⟩
  cases main_reaches possible ends with
  | loopless loops unwound =>
    have opens : k.opens = false := by
      simp [Kernel.opens, loops]
    refine leaving ⟨?_, (Kernel.leavesFile_of_opens opens).symm, by simp⟩
    simpa [Kernel.left, Kernel.leaks_of_opens opens, loops] using unwound
  | timerless loops timer => exact leaving (leaves_timerless possible loops timer)
  | serverless loops timer fails file unwound =>
    exact leaving (leaves_serverless possible loops timer order file unwound)
  | returned equipped served =>
    cases serveClients_ended equipped.booted served with
    | returned accounts => exact leaving (equipped.leaves possible order 0 accounts.recoverable)
  | threw equipped served =>
    cases serveClients_ended equipped.booted served with
    | threw recoverable => exact leaving (equipped.leaves possible order 1 recoverable)
  | killed equipped served =>
    cases serveClients_ended equipped.booted served with
    | killed accounts unsent =>
      refine ⟨?_, fun _ => equipped.abandons possible accounts unsent⟩
      intro code e
      cases e

/-- Everything succeeds. A client connects, its request and a signal are reported together, and then the
loop ends. -/
def stopped : Kernel where
  epollFd := 3
  signalFd := 4
  signalRegisters := true
  timerFd := some 5
  listenFd := 6
  unlink := true
  bind := true
  listen := true
  listenRegisters := true
  pty := some (7, 8)
  ptyRegisters := true
  timerRegisters := true
  waits :=
    [some [⟨6, EPOLLIN, { accepts := [.client 8 true] }⟩],
      some [⟨8, EPOLLIN, { reads := [.bytes Qmi.signalRequest] }⟩, ⟨4, EPOLLIN, {}⟩]]
  unlinkAtEnd := true

/-- A client connects, says that it will not read, and sends a request. The answer kills the process. -/
def abandoned : Kernel :=
  { stopped with
    waits :=
      [some [⟨6, EPOLLIN, { accepts := [.client 8 true] }⟩],
        some [⟨8, EPOLLIN, { reads := [.bytes Qmi.signalRequest] }⟩],
        some [⟨8, EPOLLOUT, { writes := [.error], sigpipe := true }⟩]] }

/-- The descriptors are new. -/
lemma stopped_possible : stopped.Possible [0, 1, 2] := ⟨by decide, by decide⟩

/-- The same descriptors. -/
lemma abandoned_possible : abandoned.Possible [0, 1, 2] := ⟨by decide, by decide⟩

/-- One process returns, and another is killed. -/
theorem main_leaves_stopped :
    (stopped.Possible [0, 1, 2] ∧ ∃ exit,
      main sampleModem .entries [47, 113] stopped (start [0, 1, 2] false true) = some exit ∧
        exit.ending = .exited 0 ∧ exit.process.daemon.allocated = 2 ∧
        Leaves stopped [47, 113] [0, 1, 2] true exit) ∧
      abandoned.Possible [0, 1, 2] ∧ ∃ exit,
        main sampleModem .entries [47, 113] abandoned (start [0, 1, 2] false true) = some exit ∧
          exit.ending = .killed ∧ exit.process.daemon.sessionFds = [7, 8] ∧
          Abandons abandoned [0, 1, 2] exit := by
  obtain ⟨exit, ends, ending, allocated⟩ : ∃ exit,
      main sampleModem .entries [47, 113] stopped (start [0, 1, 2] false true) = some exit ∧
        exit.ending = .exited 0 ∧ exit.process.daemon.allocated = 2 := ⟨_, rfl, rfl, rfl⟩
  obtain ⟨exit', ends', ending', sessionFds⟩ : ∃ exit,
      main sampleModem .entries [47, 113] abandoned (start [0, 1, 2] false true) = some exit ∧
        exit.ending = .killed ∧ exit.process.daemon.sessionFds = [7, 8] := ⟨_, rfl, rfl, rfl⟩
  have leaves := main_leaves sampleModem .entries [47, 113] stopped [0, 1, 2] false true stopped_possible exit
    ends
  have abandons := main_leaves sampleModem .entries [47, 113] abandoned [0, 1, 2] false true
    abandoned_possible exit' ends'
  exact ⟨⟨stopped_possible, exit, ends, ending, allocated, leaves.1 0 ending⟩, abandoned_possible, exit', ends',
    ending', sessionFds, abandons.2 ending'⟩

/-- If the kernel refuses the listening socket, it stays open, with its file. -/
example :
    ({ stopped with listenRegisters := false } : Kernel).left [47, 113] [0, 1, 2] false = [6, 5, 0, 1, 2] ∧
    ({ stopped with listenRegisters := false } : Kernel).leavesFile [47, 113] false = true := by
  decide

/-- An old file that cannot be removed keeps the socket from being bound, and stays. -/
example : ({ stopped with unlink := false } : Kernel).serves [47, 113] true = false ∧
    ({ stopped with unlink := false } : Kernel).leavesFile [47, 113] true = true := by
  decide

end MiniModem.Daemon
