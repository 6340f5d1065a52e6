import Mathlib.Data.List.Basic
import Mathlib.Tactic.Common

/-!
# Maximal runs

The maximal runs of a list are its longest segments without separators, from left to right. A run can be
taken out of the list wherever it stands (`runs_of_runAt`, `mem_runs_iff`), and the list is read from
the left by cutting it behind a separator (`runs_append`).
-/

namespace MiniModem.Lib
variable {α : Type*} (sep : α → Bool)

/-- What stands between two separators, unless it is empty. -/
def runs (s : List α) : List (List α) := (s.splitOnP sep).filter (· ≠ [])

/-- The segment between `before` and `after` is a maximal run. -/
structure RunAt (before run after : List α) : Prop where
  nonempty : run ≠ []
  inside : ∀ x ∈ run, sep x = false
  left : ∀ x ∈ before.getLast?, sep x = true
  right : ∀ x ∈ after.head?, sep x = true

/-- The list is empty or ends in a separator. -/
def Ended (s : List α) : Prop := ∀ x ∈ s.getLast?, sep x = true

variable {sep}

/-- A separator cuts the text. -/
lemma runs_cut {t : α} (term : sep t = true) (s rest : List α) :
    runs sep (s ++ t :: rest) = runs sep s ++ runs sep rest := by
  rw [runs, List.splitOnP_append_cons _ _ term, List.filter_append]
  rfl

/-- Without separators there is one run, or none if there is no text. -/
lemma runs_clean {s : List α} (clean : ∀ x ∈ s, sep x = false) :
    runs sep s = [s].filter (· ≠ []) := by
  rw [runs, List.splitOnP_eq_singleton clean]

/-- No text has no runs. -/
@[simp] lemma runs_nil : runs sep [] = [] := rfl

/-- A list that ends in a separator can be read on its own. -/
lemma runs_append {s : List α} (ended : Ended sep s) (rest : List α) :
    runs sep (s ++ rest) = runs sep s ++ runs sep rest := by
  rcases List.eq_nil_or_concat s with rfl | ⟨s, t, rfl⟩
  · rfl
  · have term : sep t = true := ended t (by simp)
    rw [List.concat_eq_append, List.append_assoc, List.singleton_append, runs_cut term,
      runs_cut term, runs_nil, List.append_nil]

/-- Separators make no runs. -/
lemma runs_separators {s : List α} (all : ∀ x ∈ s, sep x = true) : runs sep s = [] := by
  induction s with
  | nil => rfl
  | cons t s ih =>
    have cut := runs_cut (all t (by simp)) [] s
    rw [ih fun x mem => all x (List.mem_cons_of_mem t mem)] at cut
    exact cut

/-- A list that starts with a separator, or is empty, continues no run. -/
lemma runs_of_right {s rest : List α} (right : ∀ x ∈ rest.head?, sep x = true) :
    runs sep (s ++ rest) = runs sep s ++ runs sep rest := by
  cases rest with
  | nil => simp
  | cons t rest =>
    have term : sep t = true := right t rfl
    have whole := runs_cut term [] rest
    rw [List.nil_append] at whole
    rw [runs_cut term, whole]
    rfl

/-- A maximal run is one of the runs, between those on its left and those on its right. -/
lemma runs_of_runAt {before run after : List α} (at_ : RunAt sep before run after) :
    runs sep (before ++ run ++ after) = runs sep before ++ run :: runs sep after := by
  rw [runs_of_right at_.right, runs_append at_.left, runs_clean at_.inside]
  simp [at_.nonempty]

/-- Every one of the runs is a maximal run. -/
lemma exists_runAt {s run : List α} (mem : run ∈ runs sep s) :
    ∃ before after, s = before ++ run ++ after ∧ RunAt sep before run after := by
  induction e : s.length using Nat.strongRecOn generalizing s with
  | ind n ih =>
    by_cases clean : ∀ x ∈ s, sep x = false
    · rw [runs_clean clean] at mem
      simp only [List.mem_filter, List.mem_singleton, decide_eq_true_eq] at mem
      obtain ⟨rfl, ne⟩ := mem
      exact ⟨[], [], by simp, ne, clean, by simp, by simp⟩
    · -- cut the list at a separator: the run is on its left or on its right
      push Not at clean
      obtain ⟨t, there, term⟩ := clean
      rw [ne_eq, Bool.not_eq_false] at term
      obtain ⟨left, right, rfl⟩ := List.append_of_mem there
      rw [List.length_append, List.length_cons] at e
      rw [runs_cut term, List.mem_append] at mem
      rcases mem with mem | mem
      · obtain ⟨before, after, rfl, at_⟩ := ih left.length (by omega) mem rfl
        refine ⟨before, after ++ t :: right, by simp, at_.nonempty, at_.inside, at_.left, ?_⟩
        cases after with
        | nil => simpa using term
        | cons x after => exact at_.right
      · obtain ⟨before, after, rfl, at_⟩ := ih right.length (by omega) mem rfl
        refine ⟨left ++ t :: before, after, by simp, at_.nonempty, at_.inside, ?_, at_.right⟩
        rcases List.eq_nil_or_concat before with rfl | ⟨before, x, rfl⟩
        · simpa using term
        · have left_ := at_.left
          rw [List.concat_eq_append, List.getLast?_concat] at left_
          rw [List.concat_eq_append, ← List.cons_append, ← List.append_assoc, List.getLast?_concat]
          exact left_

/-- The runs are the maximal parts without separators. -/
theorem mem_runs_iff {s run : List α} :
    run ∈ runs sep s ↔ ∃ before after, s = before ++ run ++ after ∧ RunAt sep before run after := by
  refine ⟨?_, ?_⟩
  · exact exists_runAt
  · intro segment
    obtain ⟨before, after, rfl, at_⟩ := segment
    rw [runs_of_runAt at_]
    simp

end MiniModem.Lib
