import MiniModem.Lib.System

/-!
# Traces of a system

A trace is a run that does not end. What holds after every run holds at every time (`Trace.exec`); that
something happens at some time is shown with a measure that never grows and that a step makes less which a
fair environment brings about again and again (`Trace.leadsTo`).
-/

namespace MiniModem.Lib.System
variable {σ ι : Type*} {S : System σ ι}

/-- The states of a run without an end, and its inputs. -/
structure Trace (S : System σ ι) where
  state : ℕ → σ
  input : ℕ → ι
  next : ∀ n, S.step (state n) (input n) = some (state (n + 1))

namespace Trace

/-- Weak fairness: if from some time on help is always wanted, it comes. -/
def Fair (t : S.Trace) (wanted : σ → Prop) (helps : ι → Prop) : Prop :=
  ∀ n, (∀ k, n ≤ k → wanted (t.state k)) → ∃ k, n ≤ k ∧ helps (t.input k)

/-- The state at a time is that after the inputs before. -/
lemma exec (t : S.Trace) (n : ℕ) : S.exec (t.state 0) ((List.range n).map t.input) = some (t.state n) := by
  induction n with
  | zero => rfl
  | succ n ih =>
    rw [List.range_succ, List.map_append, exec_append, ih]
    exact (exec_cons_eq_some S).mpr ⟨_, t.next n, rfl⟩

/-- A property that every step carries on as long as it does not meet `C` holds up to the first that does. -/
lemma holds_or_meets {I : σ → Prop} {C : ι → Prop} (t : S.Trace)
    (carry : ∀ k, I (t.state k) → ¬ C (t.input k) → I (t.state (k + 1))) {n : ℕ} (start : I (t.state n))
    {k : ℕ} (le : n ≤ k) : I (t.state k) ∨ ∃ j, n ≤ j ∧ j < k ∧ I (t.state j) ∧ C (t.input j) := by
  induction k, le using Nat.le_induction with
  | base => exact .inl start
  | succ k le ih =>
    rcases ih with holds | ⟨j, after, before, holds, meets⟩
    · by_cases meets : C (t.input k)
      · exact .inr ⟨k, le, Nat.lt_succ_self k, holds, meets⟩
      · exact .inl (carry k holds meets)
    · exact .inr ⟨j, after, Nat.lt_succ_of_lt before, holds, meets⟩

/-- As long as `Q` does not come about, every step keeps `P` and does not make the measure greater, and one
that helps makes it less. In states with `P` help is wanted. Then `P` leads to `Q`. -/
theorem leadsTo {P Q wanted : σ → Prop} {helps : ι → Prop} (t : S.Trace) (fair : t.Fair wanted helps)
    (wants : ∀ s, P s → wanted s) (measure : σ → ℕ)
    (step : ∀ k, P (t.state k) → Q (t.state (k + 1)) ∨
      P (t.state (k + 1)) ∧ measure (t.state (k + 1)) ≤ measure (t.state k) ∧
        (helps (t.input k) → measure (t.state (k + 1)) < measure (t.state k)))
    {n : ℕ} (start : P (t.state n)) : ∃ k, n ≤ k ∧ Q (t.state k) := by
  -- induction on the measure
  generalize e : measure (t.state n) = m
  induction m using Nat.strong_induction_on generalizing n with
  | h m ih =>
    by_contra never
    push Not at never
    have waits : ∀ k, n ≤ k → P (t.state k) ∧ measure (t.state k) ≤ m := by
      intro k le
      induction k, le using Nat.le_induction with
      | base => exact ⟨start, e.le⟩
      | succ k le ih' =>
        rcases step k ih'.1 with done | ⟨further, small, -⟩
        · exact absurd done (never (k + 1) (Nat.le_succ_of_le le))
        · exact ⟨further, small.trans ih'.2⟩
    obtain ⟨k, le, help⟩ := fair n fun k le => wants _ (waits k le).1
    obtain ⟨wait, small⟩ := waits k le
    rcases step k wait with done | ⟨further, -, less⟩
    · exact absurd done (never (k + 1) (Nat.le_succ_of_le le))
    · obtain ⟨j, le', done⟩ := ih _ ((less help).trans_le small) further rfl
      exact absurd done (never j ((Nat.le_succ_of_le le).trans le'))

/-- A run that ends where an input changes nothing can go on with this input for ever. -/
lemma exists_idle {s s' : σ} {is : List ι} {i : ι} (run : S.exec s is = some s')
    (idle : S.step s' i = some s') :
    ∃ t : S.Trace, t.state 0 = s ∧ (∀ n j, is[n]? = some j → t.input n = j) ∧
      ∀ n, is.length ≤ n → t.state n = s' ∧ t.input n = i := by
  induction is generalizing s with
  | nil =>
    cases run
    refine ⟨⟨fun _ => s', fun _ => i, fun _ => idle⟩, rfl, ?_, fun _ _ => ⟨rfl, rfl⟩⟩
    intro n j there
    cases there
  | cons j is ih =>
    obtain ⟨between, first, rest⟩ := (exec_cons_eq_some S).mp run
    obtain ⟨t, start, inputs, last⟩ := ih rest
    let t' : S.Trace :=
      { state := fun n => n.casesOn s t.state
        input := fun n => n.casesOn j t.input
        next := by
          intro n
          cases n with
          | zero => exact first.trans (congrArg some start.symm)
          | succ n => exact t.next n }
    refine ⟨t', rfl, ?_, ?_⟩
    · intro n i' there
      cases n with
      | zero =>
        cases there
        rfl
      | succ n => exact inputs n i' there
    · intro n le
      cases n with
      | zero => exact absurd le (Nat.not_succ_le_zero _)
      | succ n => exact last n (Nat.le_of_succ_le_succ le)

end Trace

end MiniModem.Lib.System
