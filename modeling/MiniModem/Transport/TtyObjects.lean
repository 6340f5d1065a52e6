import MiniModem.Lib.Ownership
import MiniModem.Lib.System
import MiniModem.Transport.Tty

/-!
# The owners of descriptors

The constructors, the destructor and the assignment of `src/transport/Tty.cpp`, for any number of objects
under their addresses. The descriptors that have been handed to an object and not been closed are owned,
each by one object; this is the general `Movable.Exact`. From it, every `close` is for a descriptor that an
object owns, and every descriptor that is handed over is closed once (`descriptors_closed_once`).
-/

namespace MiniModem.Transport
open Lib

/-- The address of an object of the class. -/
abbrev TtyPtr := ℕ

/-- The live objects, and the descriptors handed to an object that are open. Two records that no code
reads: the descriptors handed over, and the calls of `close`. -/
structure Ttys where
  objects : UnorderedMap TtyPtr Tty := ∅
  openFds : List Fd := []
  handed : List Fd := []
  closed : List Fd := []

namespace Ttys

/-- The system call. -/
def close (fd : Fd) (ttys : Ttys) : Ttys :=
  { ttys with openFds := ttys.openFds.filter (· ≠ fd), closed := ttys.closed ++ [fd] }

/-- The kernel has opened a descriptor, and it is handed to an object. -/
def handOver (fd : Fd) (ttys : Ttys) : Ttys :=
  { ttys with openFds := fd :: ttys.openFds, handed := ttys.handed ++ [fd] }

/-- The life of an object ends, after its destructor. -/
def endLife (this : TtyPtr) (ttys : Ttys) : Ttys := { ttys with objects := ttys.objects.erase this }

/-- What the destructor and the assignment do with the descriptor that the object has. -/
def closeOwned (tty : Tty) (ttys : Ttys) : Ttys := if tty.fd ≠ -1 then ttys.close tty.fd else ttys

/-- `Tty()` -/
def constructDefault (this : TtyPtr) (ttys : Ttys) : Ttys :=
  { ttys with objects := ttys.objects.insert this {} }

/-- `Tty(int fd)` -/
def construct (this : TtyPtr) (fd : Fd) (ttys : Ttys) : Ttys :=
  { ttys with objects := ttys.objects.insert this ⟨fd⟩ }

/-- `Tty(Tty&& other)`, where `source` is the object at `other` -/
def moveConstruct (this other : TtyPtr) (source : Tty) (ttys : Ttys) : Ttys :=
  { ttys with objects := (ttys.objects.insert this ⟨source.fd⟩).insert other ⟨-1⟩ }

/-- `operator=(Tty&& other)` -/
def moveAssign (this other : TtyPtr) (tty source : Tty) (ttys : Ttys) : Ttys :=
  if this = other then ttys
  else
    let ttys := ttys.closeOwned tty
    { ttys with objects := (ttys.objects.insert this ⟨source.fd⟩).insert other ⟨-1⟩ }

/-- `~Tty()` -/
def destruct (tty : Tty) (ttys : Ttys) : Ttys := ttys.closeOwned tty

end Ttys

/-- A constructor, an assignment or the destructor, with the address of the object. -/
inductive TtyStep
  | constructDefault (this : TtyPtr)
  | construct (this : TtyPtr) (fd : Fd)
  | moveConstruct (this other : TtyPtr)
  | moveAssign (this other : TtyPtr)
  | destruct (this : TtyPtr)

/-- The objects as a system. A constructor runs at an address where no object lives, everything else on live
objects; a descriptor that is handed over is a new one of the kernel, and after its destructor an object is
no more. -/
def ttySystem : System Ttys TtyStep where
  step ttys
    | .constructDefault this =>
      if this ∉ ttys.objects then some (ttys.constructDefault this) else none
    | .construct this fd =>
      if this ∉ ttys.objects ∧ fd ≠ -1 ∧ fd ∉ ttys.openFds then some ((ttys.construct this fd).handOver fd)
      else none
    | .moveConstruct this other =>
      if this ∉ ttys.objects then
        (ttys.objects.lookup other).map fun source => ttys.moveConstruct this other source
      else none
    | .moveAssign this other =>
      (ttys.objects.lookup this).bind fun tty =>
        (ttys.objects.lookup other).map fun source => ttys.moveAssign this other tty source
    | .destruct this => (ttys.objects.lookup this).map fun tty => (ttys.destruct tty).endLife this

/-- What a step does that is possible. -/
inductive TtyEffect (ttys : Ttys) : TtyStep → Ttys → Prop
  | constructDefault {this : TtyPtr} (new : this ∉ ttys.objects) :
      TtyEffect ttys (.constructDefault this) (ttys.constructDefault this)
  | construct {this : TtyPtr} {fd : Fd} (new : this ∉ ttys.objects) (valid : fd ≠ -1)
      (fresh : fd ∉ ttys.openFds) : TtyEffect ttys (.construct this fd) ((ttys.construct this fd).handOver fd)
  | moveConstruct {this other : TtyPtr} {source : Tty} (new : this ∉ ttys.objects)
      (there : ttys.objects.lookup other = some source) :
      TtyEffect ttys (.moveConstruct this other) (ttys.moveConstruct this other source)
  | moveAssign {this other : TtyPtr} {tty source : Tty} (here : ttys.objects.lookup this = some tty)
      (there : ttys.objects.lookup other = some source) :
      TtyEffect ttys (.moveAssign this other) (ttys.moveAssign this other tty source)
  | destruct {this : TtyPtr} {tty : Tty} (here : ttys.objects.lookup this = some tty) :
      TtyEffect ttys (.destruct this) ((ttys.destruct tty).endLife this)

/-- One case for each kind of step. -/
lemma ttySystem_effect {ttys ttys' : Ttys} {step : TtyStep}
    (run : ttySystem.step ttys step = some ttys') : TtyEffect ttys step ttys' := by
  cases step with
  | constructDefault this =>
    simp only [ttySystem, Option.ite_none_right_eq_some, Option.some.injEq] at run
    obtain ⟨new, rfl⟩ := run
    exact .constructDefault new
  | construct this fd =>
    simp only [ttySystem, Option.ite_none_right_eq_some, Option.some.injEq] at run
    obtain ⟨⟨new, valid, fresh⟩, rfl⟩ := run
    exact .construct new valid fresh
  | moveConstruct this other =>
    simp only [ttySystem, Option.ite_none_right_eq_some, Option.map_eq_some_iff] at run
    obtain ⟨new, source, there, rfl⟩ := run
    exact .moveConstruct new there
  | moveAssign this other =>
    simp only [ttySystem, Option.bind_eq_some_iff, Option.map_eq_some_iff] at run
    obtain ⟨tty, here, source, there, rfl⟩ := run
    exact .moveAssign here there
  | destruct this =>
    simp only [ttySystem, Option.map_eq_some_iff] at run
    obtain ⟨tty, here, rfl⟩ := run
    exact .destruct here

/-- What a `Tty` owns. -/
def ttyOwner : Movable Tty Fd where
  owned tty := if tty.fd ≠ -1 then some tty.fd else none
  empty := ⟨-1⟩
  owned_empty := rfl

/-- An object owns its descriptor unless this is -1. -/
lemma ttyOwner_owned {tty : Tty} {fd : Fd} : ttyOwner.owned tty = some fd ↔ tty.fd = fd ∧ fd ≠ -1 := by
  simp only [ttyOwner]
  split
  · next valid =>
    rw [Option.some.injEq, iff_self_and]
    rintro rfl
    exact valid
  · next invalid =>
    simp only [reduceCtorEq, false_iff, not_and, not_not]
    rintro rfl
    simpa using invalid

/-- The open descriptors are owned, and all others that were handed over have been closed. -/
structure Ttys.Sound (ttys : Ttys) : Prop where
  exact : ttyOwner.Exact ttys.objects {fd | fd ∈ ttys.openFds}
  balance : ∀ fd, ttys.handed.count fd = ttys.closed.count fd + if fd ∈ ttys.openFds then 1 else 0

namespace Ttys

/-- Closing leaves the objects as they are. -/
lemma closeOwned_objects (tty : Tty) (ttys : Ttys) : (ttys.closeOwned tty).objects = ttys.objects := by
  rw [closeOwned]
  split
  · rfl
  · rfl

/-- Closing hands over nothing. -/
lemma closeOwned_handed (tty : Tty) (ttys : Ttys) : (ttys.closeOwned tty).handed = ttys.handed := by
  rw [closeOwned]
  split
  · rfl
  · rfl

/-- The descriptor that is owned is closed, if there is one. -/
lemma closeOwned_closed (tty : Tty) (ttys : Ttys) :
    (ttys.closeOwned tty).closed = ttys.closed ++ (ttyOwner.owned tty).toList := by
  simp only [closeOwned, ttyOwner]
  split
  · rfl
  · simp

/-- The other descriptors stay open. -/
lemma mem_closeOwned {tty : Tty} {ttys : Ttys} {fd : Fd} :
    fd ∈ (ttys.closeOwned tty).openFds ↔ fd ∈ ttys.openFds ∧ ttyOwner.owned tty ≠ some fd := by
  rw [closeOwned]
  split
  · next valid =>
    rw [ne_eq, ttyOwner_owned]
    simp only [close, List.mem_filter, decide_eq_true_eq, ne_eq]
    refine and_congr_right fun _ => not_congr ?_
    refine ⟨?_, ?_⟩
    · rintro rfl
      exact ⟨rfl, valid⟩
    · exact fun both => both.1.symm
  · next invalid =>
    simp [ttyOwner, invalid]

namespace Sound
variable {ttys : Ttys}

/-- What an object owns is open. -/
lemma open_of_owned (sound : ttys.Sound) {this : TtyPtr} {tty : Tty}
    (here : ttys.objects.lookup this = some tty) {fd : Fd} (owns : ttyOwner.owned tty = some fd) :
    fd ∈ ttys.openFds :=
  (sound.exact.held fd).mpr ⟨this, tty, here, owns⟩

/-- Closing the descriptor of an object settles its account. -/
lemma closeOwned_balance (sound : ttys.Sound) {this : TtyPtr} {tty : Tty}
    (here : ttys.objects.lookup this = some tty) (fd : Fd) :
    (ttys.closeOwned tty).handed.count fd =
      (ttys.closeOwned tty).closed.count fd + if fd ∈ (ttys.closeOwned tty).openFds then 1 else 0 := by
  rw [closeOwned_handed, closeOwned_closed, sound.balance fd, List.count_append]
  simp only [mem_closeOwned]
  by_cases owns : ttyOwner.owned tty = some fd
  · simp [owns, sound.open_of_owned here owns]
  · have other : (ttyOwner.owned tty).toList.count fd = 0 := by
      rw [List.count_eq_zero, Option.mem_toList]
      exact owns
    simp [owns, other]

/-- What is open when an object has closed its descriptor. -/
lemma closeOwned_open {this : TtyPtr} {tty : Tty} (here : ttys.objects.lookup this = some tty) :
    {fd | fd ∈ (ttys.closeOwned tty).openFds} =
      {fd | fd ∈ ttys.openFds} \ {fd | ttyOwner.Owns ttys.objects this fd} := by
  ext fd
  simp only [Set.mem_sdiff, Set.mem_ofPred_eq, mem_closeOwned, Movable.owns_of_lookup here]

/-- The account of a new descriptor. -/
lemma construct (sound : ttys.Sound) {this : TtyPtr} {fd : Fd} (new : this ∉ ttys.objects)
    (valid : fd ≠ -1) (fresh : fd ∉ ttys.openFds) : ((ttys.construct this fd).handOver fd).Sound := by
  have owned : ∀ fd', ttyOwner.owned ⟨fd⟩ = some fd' ↔ fd' = fd := by
    intro fd'
    rw [ttyOwner_owned]
    refine ⟨?_, ?_⟩
    · exact fun both => both.1.symm
    · rintro rfl
      exact ⟨rfl, valid⟩
  refine ⟨?_, ?_⟩
  · have exact := sound.exact.construct ⟨fd⟩ new (by simpa [owned] using fresh)
    have opened : {fd' | fd' ∈ ((ttys.construct this fd).handOver fd).openFds} =
        {fd' | fd' ∈ ttys.openFds} ∪ {fd' | ttyOwner.owned ⟨fd⟩ = some fd'} := by
      ext fd'
      simp [handOver, Ttys.construct, owned]
    rw [opened]
    exact exact
  · intro fd'
    have balance := sound.balance fd'
    simp only [handOver, Ttys.construct, List.count_append, List.count_singleton, List.mem_cons]
    rw [balance]
    by_cases this : fd' = fd
    · subst this
      simp [fresh]
    · simp [this, Ne.symm this]

/-- Each step keeps the ownership sound. -/
lemma step (sound : ttys.Sound) {step : TtyStep} {ttys' : Ttys} (effect : TtyEffect ttys step ttys') :
    ttys'.Sound := by
  cases effect with
  | constructDefault new => exact ⟨sound.exact.constructEmpty new, sound.balance⟩
  | construct new valid fresh => exact sound.construct new valid fresh
  | moveConstruct new there => exact ⟨sound.exact.moveConstruct new there, sound.balance⟩
  | @moveAssign this other tty source here there =>
    rw [Ttys.moveAssign]
    split
    · exact sound
    · next ne =>
      refine ⟨?_, sound.closeOwned_balance here⟩
      have moved := sound.exact.move ne there
      rw [← closeOwned_open here] at moved
      simp only [closeOwned_objects]
      exact moved
  | @destruct this tty here =>
    refine ⟨?_, sound.closeOwned_balance here⟩
    have destroyed := sound.exact.destroy this
    rw [← closeOwned_open here] at destroyed
    simp only [endLife, Ttys.destruct, closeOwned_objects]
    exact destroyed

/-- Without objects nothing is owned, open or closed. -/
lemma nil : Sound {} := by
  refine ⟨?_, fun fd => rfl⟩
  have none : {fd | fd ∈ ([] : List Fd)} = ∅ := by simp
  show ttyOwner.Exact ∅ {fd | fd ∈ ([] : List Fd)}
  rw [none]
  exact .nil

end Sound

/-- The `Tty` at an address has a descriptor. -/
def Has (ttys : Ttys) (this : TtyPtr) (fd : Fd) : Prop :=
  (ttys.objects.lookup this).map Tty.fd = some fd

/-- Every descriptor that is open and was handed over is that of one object; the descriptors of objects are
open; and the calls of `close` are as many as the descriptors handed over, but for those that are open, and
for all if no objects are left. -/
structure ClosedOnce (ttys : Ttys) : Prop where
  owner : ∀ fd ∈ ttys.openFds, ∃! this, ttys.Has this fd
  isOpen : ∀ this fd, ttys.Has this fd → fd ≠ -1 → fd ∈ ttys.openFds
  balance : ∀ fd, ttys.handed.count fd = ttys.closed.count fd + if fd ∈ ttys.openFds then 1 else 0
  settled : ttys.objects = ∅ → ∀ fd, ttys.handed.count fd = ttys.closed.count fd

/-- The step calls `close` at most once, for an open descriptor that an object has. -/
def ClosesOwned (ttys : Ttys) (step : TtyStep) : Prop :=
  ∀ ttys', ttySystem.step ttys step = some ttys' →
    ttys'.closed = ttys.closed ∨
      ∃ fd ∈ ttys.openFds, (∃ this, ttys.Has this fd) ∧ ttys'.closed = ttys.closed ++ [fd]

/-- Owning a descriptor is having it in the object, unless it is -1. -/
lemma owns_iff {ttys : Ttys} {this : TtyPtr} {fd : Fd} :
    ttyOwner.Owns ttys.objects this fd ↔ ttys.Has this fd ∧ fd ≠ -1 := by
  simp only [Movable.Owns, Has, Option.map_eq_some_iff, ttyOwner_owned]
  refine ⟨?_, ?_⟩
  · intro owns
    obtain ⟨tty, here, e, valid⟩ := owns
    exact ⟨⟨tty, here, e⟩, valid⟩
  · intro has
    obtain ⟨⟨tty, here, e⟩, valid⟩ := has
    exact ⟨tty, here, e, valid⟩

/-- No descriptor that has been handed over is closed twice. -/
lemma Sound.closedOnce {ttys : Ttys} (sound : ttys.Sound) : ttys.ClosedOnce := by
  refine ⟨?_, ?_, sound.balance, ?_⟩
  · intro fd isOpen
    obtain ⟨this, owns⟩ := (sound.exact.held fd).mp isOpen
    obtain ⟨has, valid⟩ := owns_iff.mp owns
    refine ⟨this, has, ?_⟩
    intro other has'
    exact sound.exact.unique this other fd owns (owns_iff.mpr ⟨has', valid⟩)
  · intro this fd has valid
    exact (sound.exact.held fd).mpr ⟨this, owns_iff.mpr ⟨has, valid⟩⟩
  · intro empty fd
    have none : fd ∉ ttys.openFds := by
      intro isOpen
      obtain ⟨this, tty, here, -⟩ := (sound.exact.held fd).mp isOpen
      rw [empty] at here
      cases here
    rw [sound.balance fd, if_neg none, Nat.add_zero]

/-- The `close` of the destructor and of the assignment. -/
lemma Sound.closeOwned_cases {ttys : Ttys} (sound : ttys.Sound) {this : TtyPtr} {tty : Tty}
    (here : ttys.objects.lookup this = some tty) :
    (ttys.closeOwned tty).closed = ttys.closed ∨
      ∃ fd ∈ ttys.openFds, (∃ this, ttys.Has this fd) ∧
        (ttys.closeOwned tty).closed = ttys.closed ++ [fd] := by
  rw [closeOwned_closed]
  rcases owned : ttyOwner.owned tty with _ | fd
  · exact .inl (List.append_nil _)
  · refine .inr ⟨fd, sound.open_of_owned here owned, ⟨this, ?_⟩, rfl⟩
    rw [Has, here, Option.map_some, (ttyOwner_owned.mp owned).1]

/-- A step closes what its object owns, and nothing else. -/
lemma Sound.closesOwned {ttys : Ttys} (sound : ttys.Sound) (step : TtyStep) : ttys.ClosesOwned step := by
  intro ttys' run
  cases ttySystem_effect run with
  | constructDefault | construct | moveConstruct => exact .inl rfl
  | moveAssign here there =>
    rw [Ttys.moveAssign]
    split
    · exact .inl rfl
    · exact sound.closeOwned_cases here
  | destruct here => exact sound.closeOwned_cases here

end Ttys

/-- In every run descriptors are owned by one object each and closed once, and every call of `close` is
for a descriptor that is owned. -/
theorem descriptors_closed_once (steps : List TtyStep) :
    ttySystem.Always Ttys.ClosedOnce {} steps ∧ ttySystem.Each Ttys.ClosesOwned {} steps := by
  have sound : ttySystem.Always Ttys.Sound {} steps :=
    System.always_of_step (fun _ _ _ sound next => sound.step (ttySystem_effect next)) .nil steps
  refine ⟨?_, ?_⟩
  · intro before sub ttys run
    exact (sound before sub ttys run).closedOnce
  · intro before step sub ttys ttys' run _
    exact (sound before ((List.prefix_append _ _).trans sub) ttys run).closesOwned step

/-- The path of a descriptor from `accept4` or `openpty` to its session: a local object, the parameter of the
constructor, the member of the session. The session has the descriptor, and nothing is closed. -/
lemma exec_handover {ttys : Ttys} {fd : Fd} {socket parameter member : TtyPtr} (valid : fd ≠ -1)
    (fresh : fd ∉ ttys.openFds) (distinct : [socket, parameter, member].Nodup)
    (new : ∀ this ∈ [socket, parameter, member], this ∉ ttys.objects) :
    ∃ ttys', ttySystem.exec ttys [.construct socket fd, .moveConstruct parameter socket,
        .moveConstruct member parameter, .destruct parameter, .destruct socket] = some ttys' ∧
      ttys'.Has member fd ∧ ttys'.openFds = fd :: ttys.openFds ∧ ttys'.closed = ttys.closed := by
  simp only [List.nodup_cons, List.mem_cons, List.not_mem_nil, or_false, not_or] at distinct
  obtain ⟨⟨ne, ne'⟩, ne'', -⟩ := distinct
  simp only [List.forall_mem_cons, List.not_mem_nil, false_implies, implies_true, and_true] at new
  obtain ⟨new, new', new''⟩ := new
  -- after the moves the local object and the parameter are empty: their destructors close nothing
  simp [System.exec, ttySystem, Ttys.construct, Ttys.handOver, Ttys.moveConstruct, Ttys.destruct,
    Ttys.endLife, Ttys.closeOwned, Ttys.Has, valid, fresh, ne, ne', Ne.symm ne, Ne.symm ne', Ne.symm ne'', new, new', new'',
    AList.lookup_insert_ne, AList.lookup_erase_ne]

/-- The descriptor is closed by its last owner. -/
example : (ttySystem.exec {} [.construct 0 7, .moveConstruct 1 0, .destruct 0, .destruct 1]).map
    (fun ttys => (ttys.handed, ttys.closed, ttys.openFds, ttys.objects.keys)) = some ([7], [7], [], []) := rfl

end MiniModem.Transport
