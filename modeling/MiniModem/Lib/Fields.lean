import Mathlib.Data.List.Basic
import Mathlib.Tactic.Common

/-!
# Fields between separators

A text is cut into fields at the occurrences of a separator (`List.splitOn`). It is a last field without
a separator, or a field, a separator and the rest of the text (`splitOn_induct`). A reader that stops
where the text ends does not see an empty field behind the last separator (`trimmed`); what it loses of
the text is this separator (`intercalate_trimmed`).
-/

namespace MiniModem.Lib

variable {α : Type*} {a : α}

/-- A text is cut at its first separator in one way only. -/
lemma append_cons_inj {xs xs' ys ys' : List α} (none : a ∉ xs) (none' : a ∉ xs')
    (e : xs ++ a :: ys = xs' ++ a :: ys') : xs = xs' ∧ ys = ys' := by
  induction xs generalizing xs' with
  | nil =>
    cases xs' with
    | nil =>
      cases e
      exact ⟨rfl, rfl⟩
    | cons x xs' =>
      cases e
      exact absurd List.mem_cons_self none'
  | cons x xs ih =>
    cases xs' with
    | nil =>
      cases e
      exact absurd List.mem_cons_self none
    | cons x' xs' =>
      rw [List.mem_cons, not_or] at none none'
      rw [List.cons_append, List.cons_append, List.cons.injEq] at e
      obtain ⟨rfl, rfl⟩ := ih none.2 none'.2 e.2
      exact ⟨by rw [e.1], rfl⟩

variable [DecidableEq α]

/-- The fields without the last one, if it is empty. -/
def trimmed (fields : List (List α)) : List (List α) :=
  if fields.getLast? = some [] then fields.dropLast else fields

/-- No fields are left as they are. -/
@[simp] lemma trimmed_nil : trimmed ([] : List (List α)) = [] := rfl

/-- Only the last field may be left out. -/
lemma trimmed_cons (field : List α) {fields : List (List α)} (some : fields ≠ []) :
    trimmed (field :: fields) = field :: trimmed fields := by
  rw [trimmed, trimmed, List.getLast?_cons_of_ne_nil some, List.dropLast_cons_of_ne_nil some]
  split
  · rfl
  · rfl

/-- Nothing is lost exactly if the last field has something in it. -/
lemma trimmed_eq_self {fields : List (List α)} : trimmed fields = fields ↔ fields.getLast? ≠ some [] := by
  rw [trimmed]
  split
  · next last =>
    refine ⟨?_, ?_⟩
    · intro same
      have length := congrArg List.length same
      rw [List.length_dropLast] at length
      have none : fields = [] := List.length_eq_zero_iff.mp (by omega)
      rw [none] at last
      cases last
    · exact fun full => absurd last full
  · next full => exact iff_of_true rfl full

/-- Something is left of every list of fields but that of the empty text. -/
lemma trimmed_ne_nil {fields : List (List α)} (some : fields ≠ []) (full : fields ≠ [[]]) :
    trimmed fields ≠ [] := by
  rw [trimmed]
  split
  · next last =>
    intro none
    have front := List.dropLast_append_getLast? [] last
    rw [none, List.nil_append] at front
    exact full front.symm
  · exact some

/-- No field is added. -/
lemma mem_of_mem_trimmed {field : List α} {fields : List (List α)} (mem : field ∈ trimmed fields) :
    field ∈ fields := by
  rw [trimmed] at mem
  split at mem
  · exact List.dropLast_subset fields mem
  · exact mem

/-- A text is a field without a separator, or starts with one that is followed by a separator. -/
lemma splitOn_induct {P : List α → Prop} (a : α) (last : ∀ xs, a ∉ xs → P xs)
    (more : ∀ field rest, a ∉ field → P rest → P (field ++ a :: rest)) : ∀ xs, P xs := by
  intro xs
  induction e : xs.length using Nat.strongRecOn generalizing xs with
  | _ n ih =>
    by_cases mem : a ∈ xs
    · obtain ⟨field, rest, rfl, none⟩ := List.eq_append_cons_of_mem mem
      refine more field rest none (ih rest.length ?_ rest rfl)
      rw [← e, List.length_append, List.length_cons]
      omega
    · exact last xs mem

/-- No field has a separator in it. -/
lemma notMem_of_mem_splitOn {xs field : List α} (mem : field ∈ xs.splitOn a) : a ∉ field := by
  induction xs using splitOn_induct a with
  | last xs none =>
    rw [List.splitOn_eq_singleton none, List.mem_singleton] at mem
    rw [mem]
    exact none
  | more first rest none ih =>
    rw [List.splitOn_append_cons_self_of_not_mem none, List.mem_cons] at mem
    rcases mem with rfl | mem
    · exact none
    · exact ih mem

/-- All fields but an empty last one give the text without the separator in front of that field. -/
lemma intercalate_trimmed (xs : List α) :
    [a].intercalate (trimmed (xs.splitOn a)) = if xs.getLast? = some a then xs.dropLast else xs := by
  induction xs using splitOn_induct a with
  | last xs none =>
    have other : xs.getLast? ≠ some a := fun last => none (List.mem_of_getLast? last)
    rw [if_neg other, List.splitOn_eq_singleton none, trimmed]
    split
    · next empty =>
      rw [List.getLast?_singleton, Option.some.injEq] at empty
      rw [empty]
      rfl
    · exact List.intercalate_singleton
  | more field rest none ih =>
    have some := List.splitOn_ne_nil a rest
    rw [List.splitOn_append_cons_self_of_not_mem none, trimmed_cons field some]
    rcases eq_or_ne rest [] with rfl | behind
    · have last : (field ++ [a]).getLast? = .some a := by simp
      rw [if_pos last, List.dropLast_concat]
      exact List.intercalate_singleton
    · have fields : trimmed (rest.splitOn a) ≠ [] := trimmed_ne_nil some fun one => behind (by
        have whole : [a].intercalate (rest.splitOn a) = rest := List.intercalate_splitOn a
        rw [← whole, one]
        exact List.intercalate_singleton)
      rw [List.intercalate_cons_of_ne_nil fields, ih, List.append_assoc, List.singleton_append]
      have last : (field ++ a :: rest).getLast? = rest.getLast? := by
        rw [List.getLast?_append_of_ne_nil _ (List.cons_ne_nil a rest),
          List.getLast?_cons_of_ne_nil behind]
      have front : (field ++ a :: rest).dropLast = field ++ a :: rest.dropLast := by
        rw [List.dropLast_append_of_ne_nil (List.cons_ne_nil a rest),
          List.dropLast_cons_of_ne_nil behind]
      rw [last, front]
      split
      · rfl
      · rfl

end MiniModem.Lib
