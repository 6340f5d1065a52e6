import Mathlib.Data.List.Infix

/-!
# Runs of a system

A system takes one input at a time; an input may be impossible in a state. A run is a list of inputs
taken one after the other. `Always` speaks of every state of a run, `Each` of every step that it takes.
An invariant is carried along a run by one lemma (`always_of_step`), and a property that one step
preserves exactly under a condition holds along a run exactly if every step meets the condition
(`always_iff_each`). Two systems are compared by what a run of one becomes in the other
(`exec_project`).
-/

namespace MiniModem.Lib

/-- What an input makes of a state, if it is possible there. -/
structure System (σ ι : Type*) where
  step : σ → ι → Option σ

namespace System
variable {σ ι : Type*} (S : System σ ι)

/-- The state after a list of inputs, if all of them are possible. -/
def exec : σ → List ι → Option σ
  | s, [] => some s
  | s, i :: is => (S.step s i).bind fun s' => exec s' is

/-- A run with a first input is a step and a run. -/
lemma exec_cons_eq_some {s s'' : σ} {i : ι} {is : List ι} :
    S.exec s (i :: is) = some s'' ↔ ∃ s', S.step s i = some s' ∧ S.exec s' is = some s'' :=
  Option.bind_eq_some_iff

/-- A run can be taken in two portions. -/
lemma exec_append (s : σ) (is is' : List ι) :
    S.exec s (is ++ is') = (S.exec s is).bind fun s' => S.exec s' is' := by
  induction is generalizing s with
  | nil => rfl
  | cons i is ih =>
    simp only [List.cons_append, exec, Option.bind_assoc, ih]

/-- `P` holds in every state of the run, the first and the last among them. -/
def Always (P : σ → Prop) (s : σ) (is : List ι) : Prop :=
  ∀ before, before <+: is → ∀ s', S.exec s before = some s' → P s'

/-- Every step that the run takes, from a state `s'` with an input `i`, meets `C s' i`. -/
def Each (C : σ → ι → Prop) (s : σ) (is : List ι) : Prop :=
  ∀ before i, before ++ [i] <+: is → ∀ s' s'', S.exec s before = some s' →
    S.step s' i = some s'' → C s' i

variable {S}

/-- The run that takes no step has one state. -/
lemma always_nil {P : σ → Prop} {s : σ} : S.Always P s [] ↔ P s := by
  refine ⟨?_, ?_⟩
  · intro all
    exact all [] (List.prefix_refl _) s rfl
  · intro here before sub s' e
    rw [List.prefix_nil] at sub
    subst sub
    cases e
    exact here

/-- The states of a run are the first and those after the first step. -/
lemma always_cons {P : σ → Prop} {s : σ} {i : ι} {is : List ι} :
    S.Always P s (i :: is) ↔ P s ∧ ∀ s', S.step s i = some s' → S.Always P s' is := by
  refine ⟨?_, ?_⟩
  · intro all
    refine ⟨all [] (List.nil_prefix) s rfl, ?_⟩
    intro s' first before sub s'' e
    exact all (i :: before) (List.cons_prefix_cons.mpr ⟨rfl, sub⟩) s''
      (exec_cons_eq_some S |>.mpr ⟨s', first, e⟩)
  · intro both before sub s'' e
    obtain ⟨here, rest⟩ := both
    cases before with
    | nil =>
      cases e
      exact here
    | cons j before =>
      obtain ⟨rfl, sub'⟩ := List.cons_prefix_cons.mp sub
      obtain ⟨s', first, e⟩ := (exec_cons_eq_some S).mp e
      exact rest s' first before sub' s'' e

/-- A run without inputs takes no step. -/
lemma each_nil {C : σ → ι → Prop} {s : σ} : S.Each C s [] := by
  intro before i sub
  simp at sub

/-- The steps of a run are the first and those after it. -/
lemma each_cons {C : σ → ι → Prop} {s : σ} {i : ι} {is : List ι} :
    S.Each C s (i :: is) ↔ ∀ s', S.step s i = some s' → C s i ∧ S.Each C s' is := by
  refine ⟨?_, ?_⟩
  · intro all s' first
    refine ⟨all [] i (by simp) s s' rfl first, ?_⟩
    intro before j sub t t' e next
    refine all (i :: before) j ?_ t t' ((exec_cons_eq_some S).mpr ⟨s', first, e⟩) next
    exact List.cons_prefix_cons.mpr ⟨rfl, sub⟩
  · intro step before j sub t t' e next
    cases before with
    | nil =>
      cases e
      obtain ⟨rfl, -⟩ := List.cons_prefix_cons.mp sub
      exact (step t' next).1
    | cons k before =>
      obtain ⟨rfl, sub'⟩ := List.cons_prefix_cons.mp sub
      obtain ⟨s', first, e⟩ := (exec_cons_eq_some S).mp e
      exact (step s' first).2 before j sub' t t' e next

/-- An invariant holds along every run. -/
theorem always_of_step {I : σ → Prop} (keep : ∀ s i s', I s → S.step s i = some s' → I s') {s : σ}
    (init : I s) (is : List ι) : S.Always I s is := by
  induction is generalizing s with
  | nil => exact always_nil.mpr init
  | cons i is ih => exact always_cons.mpr ⟨init, fun s' first => ih (keep s i s' init first)⟩

/-- An invariant holds at the end of a run. -/
lemma invariant {I : σ → Prop} (keep : ∀ s i s', I s → S.step s i = some s' → I s') {s s' : σ}
    (init : I s) {is : List ι} (run : S.exec s is = some s') : I s' :=
  always_of_step keep init is is (List.prefix_refl _) s' run

/-- Where a step from a state with `P` leads to a state with `P` exactly if it meets `C`, a run from a
state with `P` stays in `P` exactly if all its steps meet `C`. The invariant `I` may be used for this. -/
theorem always_iff_each {I P : σ → Prop} {C : σ → ι → Prop}
    (keep : ∀ s i s', I s → S.step s i = some s' → I s')
    (exact : ∀ s i s', I s → P s → S.step s i = some s' → (P s' ↔ C s i)) {s : σ} (init : I s)
    (start : P s) (is : List ι) : S.Always P s is ↔ S.Each C s is := by
  induction is generalizing s with
  | nil => exact ⟨fun _ => each_nil, fun _ => always_nil.mpr start⟩
  | cons i is ih =>
    rw [always_cons, each_cons]
    refine ⟨?_, ?_⟩
    · intro both s' first
      have rest := both.2
      have after : P s' := by
        have all := rest s' first
        exact all [] List.nil_prefix s' rfl
      exact ⟨(exact s i s' init start first).mp after,
        (ih (keep s i s' init first) after).mp (rest s' first)⟩
    · intro step
      refine ⟨start, fun s' first => ?_⟩
      obtain ⟨meets, rest⟩ := step s' first
      have after := (exact s i s' init start first).mpr meets
      exact (ih (keep s i s' init first) after).mpr rest

/-- Two conditions on steps that agree in all states with the invariant `I` are met by the same runs. -/
lemma each_congr {I : σ → Prop} {C C' : σ → ι → Prop}
    (keep : ∀ s i s', I s → S.step s i = some s' → I s')
    (same : ∀ s i s', I s → S.step s i = some s' → (C s i ↔ C' s i)) {s : σ} (init : I s)
    (is : List ι) : S.Each C s is ↔ S.Each C' s is := by
  induction is generalizing s with
  | nil => exact ⟨fun _ => each_nil, fun _ => each_nil⟩
  | cons i is ih =>
    rw [each_cons, each_cons]
    refine forall_congr' fun s' => forall_congr' fun first => ?_
    rw [same s i s' init first, ih (keep s i s' init first)]

/-- The system with an observer, whose notes are a second component of the state; `note` is what it adds
to them in a step. -/
def observed {γ : Type*} (S : System σ ι) (note : σ → ι → γ → γ) : System (σ × γ) ι where
  step s i := (S.step s.1 i).map fun s' => (s', note s.1 i s.2)

/-- The observer does not interfere. -/
lemma observed_step {γ : Type*} {note : σ → ι → γ → γ} {s s' : σ × γ} {i : ι} :
    (S.observed note).step s i = some s' ↔ S.step s.1 i = some s'.1 ∧ s'.2 = note s.1 i s.2 := by
  simp only [observed, Option.map_eq_some_iff, Prod.ext_iff]
  refine ⟨?_, ?_⟩
  · intro taken
    obtain ⟨after, first, e, e'⟩ := taken
    exact ⟨e ▸ first, e'.symm⟩
  · intro taken
    exact ⟨s'.1, taken.1, rfl, taken.2.symm⟩

/-! ### Projections -/

/-- The inputs for another system that `f` makes of the steps of a run. -/
def project {κ : Type*} (S : System σ ι) (f : σ → ι → σ → List κ) : σ → List ι → List κ
  | _, [] => []
  | s, i :: is =>
    match S.step s i with
    | none => []
    | some s' => f s i s' ++ project S f s' is

/-- What is made of the first step comes first. -/
lemma project_cons {κ : Type*} {f : σ → ι → σ → List κ} {s s' : σ} {i : ι} (first : S.step s i = some s')
    (is : List ι) : S.project f s (i :: is) = f s i s' ++ S.project f s' is := by
  rw [project, first]

/-- What is made of a run that is taken in two portions. -/
lemma project_append {κ : Type*} {f : σ → ι → σ → List κ} {s s' : σ} {is is' : List ι}
    (run : S.exec s is = some s') :
    S.project f s (is ++ is') = S.project f s is ++ S.project f s' is' := by
  induction is generalizing s with
  | nil =>
    cases run
    rfl
  | cons i is ih =>
    obtain ⟨between, first, rest⟩ := (exec_cons_eq_some S).mp run
    rw [List.cons_append, project_cons first, project_cons first, ih rest, List.append_assoc]

/-- A property of states that no step brings about holds before if it holds afterwards. -/
lemma exec_back {Q : σ → Prop} (back : ∀ s i s', S.step s i = some s' → Q s' → Q s) {s s' : σ}
    {is : List ι} (run : S.exec s is = some s') (last : Q s') : Q s := by
  induction is generalizing s with
  | nil =>
    cases run
    exact last
  | cons i is ih =>
    obtain ⟨between, first, rest⟩ := (exec_cons_eq_some S).mp run
    exact back s i between first (ih rest)

/-- Where the inputs made of a step carry a relation on, those made of a run do, as long as `Q` holds. -/
theorem exec_project {τ κ : Type*} {T : System τ κ} {f : σ → ι → σ → List κ} {R : σ → τ → Prop}
    {Q : σ → Prop} (back : ∀ s i s', S.step s i = some s' → Q s' → Q s)
    (carry : ∀ s i s' t, R s t → S.step s i = some s' → Q s' →
      ∃ t', T.exec t (f s i s') = some t' ∧ R s' t') {s s' : σ} {t : τ} (start : R s t)
    {is : List ι} (run : S.exec s is = some s') (last : Q s') :
    ∃ t', T.exec t (S.project f s is) = some t' ∧ R s' t' := by
  induction is generalizing s t with
  | nil =>
    cases run
    exact ⟨t, rfl, start⟩
  | cons i is ih =>
    obtain ⟨between, first, rest⟩ := (exec_cons_eq_some S).mp run
    obtain ⟨t', run', related⟩ := carry s i between t start first (exec_back back rest last)
    obtain ⟨t'', run'', related'⟩ := ih related rest
    refine ⟨t'', ?_, related'⟩
    rw [project_cons first, exec_append, run']
    exact run''

/-- What is made of all inputs together is made of each of them. -/
lemma map_project {κ ν : Type*} {f : σ → ι → σ → List κ} {g : List κ → List ν} (nil : g [] = [])
    (append : ∀ xs ys, g (xs ++ ys) = g xs ++ g ys) (s : σ) (is : List ι) :
    g (S.project f s is) = S.project (fun s i s' => g (f s i s')) s is := by
  induction is generalizing s with
  | nil => exact nil
  | cons i is ih =>
    rw [project, project]
    rcases S.step s i with _ | s'
    · exact nil
    · simp only [append, ih]

/-- Nothing is made of a run if nothing is made of its steps. -/
lemma project_eq_nil {κ : Type*} {f : σ → ι → σ → List κ} {is : List ι}
    (none : ∀ i ∈ is, ∀ s s', f s i s' = []) (s : σ) : S.project f s is = [] := by
  induction is generalizing s with
  | nil => rfl
  | cons i is ih =>
    rw [project]
    rcases S.step s i with _ | s'
    · rfl
    · simp only [none i List.mem_cons_self, ih fun j mem => none j (List.mem_cons_of_mem _ mem),
        List.append_nil]

/-- An invariant of the state and of what two observers have noted is carried along a run. -/
theorem invariant_project {κ ν : Type*} {f : σ → ι → σ → List κ} {g : σ → ι → σ → List ν}
    {I : σ → List κ → List ν → Prop}
    (keep : ∀ s i s' xs ys, I s xs ys → S.step s i = some s' → I s' (xs ++ f s i s') (ys ++ g s i s'))
    {s s' : σ} {xs : List κ} {ys : List ν} (init : I s xs ys) {is : List ι} (run : S.exec s is = some s') :
    I s' (xs ++ S.project f s is) (ys ++ S.project g s is) := by
  induction is generalizing s xs ys with
  | nil =>
    cases run
    simpa only [project, List.append_nil] using init
  | cons i is ih =>
    obtain ⟨between, first, rest⟩ := (exec_cons_eq_some S).mp run
    rw [project_cons first, project_cons first, ← List.append_assoc, ← List.append_assoc]
    exact ih (keep s i between xs ys init first) rest

/-- If moreover what is noted of the inputs made of a step is what is noted of the step, the notes of both
runs are the same. -/
theorem project_project {τ κ ν : Type*} {T : System τ κ} {f : σ → ι → σ → List κ}
    {g : τ → κ → τ → List ν} {h : σ → ι → σ → List ν} {R : σ → τ → Prop} {Q : σ → Prop}
    (back : ∀ s i s', S.step s i = some s' → Q s' → Q s)
    (carry : ∀ s i s' t, R s t → S.step s i = some s' → Q s' →
      ∃ t', T.exec t (f s i s') = some t' ∧ T.project g t (f s i s') = h s i s' ∧ R s' t') {s s' : σ}
    {t : τ} (start : R s t) {is : List ι} (run : S.exec s is = some s') (last : Q s') :
    ∃ t', T.exec t (S.project f s is) = some t' ∧
      T.project g t (S.project f s is) = S.project h s is ∧ R s' t' := by
  induction is generalizing s t with
  | nil =>
    cases run
    exact ⟨t, rfl, rfl, start⟩
  | cons i is ih =>
    obtain ⟨between, first, rest⟩ := (exec_cons_eq_some S).mp run
    obtain ⟨t', run', notes, related⟩ := carry s i between t start first (exec_back back rest last)
    obtain ⟨t'', run'', notes', related'⟩ := ih related rest
    refine ⟨t'', ?_, ?_, related'⟩
    · rw [project_cons first, exec_append, run']
      exact run''
    · rw [project_cons first, project_cons first, project_append run', notes, notes']

end System

end MiniModem.Lib
