import Mathlib.Data.List.TakeWhile
import MiniModem.Lib.Runs
import MiniModem.Transport.LineReader

/-!
# Lines and runs

The non-empty lines are the maximal runs of bytes other than CR and LF in the stream, however `push` and
`next` are interleaved (`lines_are_runs`). The invariant is that the buffer is the end of the stream,
that the part in front of it ends in a terminator, and that the runs of this part have been returned
(`Consumed`).
-/

namespace MiniModem.Transport
open Lib Lib.Reader

/-- The lines that are not empty. -/
def nonEmpty (lines : List Bytes) : List Bytes := lines.filter (· ≠ [])

/-- The lines of two lists that are not empty. -/
@[simp] lemma nonEmpty_append (lines more : List Bytes) :
    nonEmpty (lines ++ more) = nonEmpty lines ++ nonEmpty more :=
  List.filter_append _ _

/-- The stream up to the buffer has been returned as lines. -/
def Consumed (s : Bytes) (lines : List Bytes) (buffer : Bytes) : Prop :=
  ∃ front, s = front ++ buffer ∧ Ended isTerminator front ∧ runs isTerminator front = nonEmpty lines

/-- No CR and no LF. -/
def Clean (s : Bytes) : Prop := ∀ b ∈ s, isTerminator b = false

/-- A line has no terminator. -/
lemma next_clean {b line rest : Bytes} (e : lineReader.next b = (some line, rest)) : Clean line := by
  rcases line_cases b with none | ⟨line', t, rest', rfl, none, term⟩
  · rw [reader_none none] at e
    cases e
  · rw [reader_line none term] at e
    cases e
    exact none

/-- Where no line is found the buffer has no terminator and stays as it is. -/
lemma next_nullopt {b rest : Bytes} (e : lineReader.next b = (none, rest)) : rest = b ∧ Clean rest := by
  rcases line_cases b with none | ⟨line', t, rest', rfl, none, term⟩
  · rw [reader_none none] at e
    cases e
    exact ⟨rfl, none⟩
  · rw [reader_line none term] at e
    cases e

namespace Consumed
variable {s buffer : Bytes} {lines : List Bytes}

/-- What is pushed has been neither consumed nor delivered. -/
lemma push (c : Consumed s lines buffer) (chunk : Bytes) :
    Consumed (s ++ chunk) lines (buffer ++ chunk) := by
  obtain ⟨front, rfl, ended, same⟩ := c
  exact ⟨front, List.append_assoc _ _ _, ended, same⟩

/-- A line goes over to the front, with the terminators that are skipped. -/
lemma next (c : Consumed s lines buffer) {line rest : Bytes}
    (e : lineReader.next buffer = (some line, rest)) : Consumed s (lines ++ [line]) rest := by
  obtain ⟨front, rfl, ended, same⟩ := c
  rcases line_cases buffer with none | ⟨line', t, rest', rfl, none, term⟩
  · rw [reader_none none] at e
    cases e
  rw [reader_line none term] at e
  cases e
  have skipped : ∀ x ∈ t :: rest'.takeWhile isTerminator, isTerminator x = true := by
    intro x mem
    rcases List.mem_cons.mp mem with rfl | mem
    · exact term
    · exact List.mem_takeWhile_imp mem
  refine ⟨front ++ (line ++ t :: rest'.takeWhile isTerminator), ?_, ?_, ?_⟩
  · simp
  · intro x last
    refine skipped x (List.mem_of_getLast? ?_)
    rwa [← List.append_assoc, List.getLast?_append_of_ne_nil _ (List.cons_ne_nil _ _)] at last
  · rw [runs_append ended, same, runs_cut term, runs_clean none,
      runs_separators fun x mem => skipped x (List.mem_cons_of_mem t mem), List.append_nil]
    exact (nonEmpty_append lines [line]).symm

/-- Draining, and what it leaves. -/
lemma drain (c : Consumed s lines buffer) :
    Consumed s (lines ++ (lineReader.drain buffer).1) (lineReader.drain buffer).2 ∧
      (∀ line ∈ (lineReader.drain buffer).1, Clean line) ∧ Clean (lineReader.drain buffer).2 := by
  induction buffer using lineReader.drain_induct generalizing lines with
  | none buffer rest e =>
    obtain ⟨rfl, clean⟩ := next_nullopt e
    rw [drain_none _ e]
    refine ⟨?_, by simp, clean⟩
    simpa using c
  | some buffer line rest e ih =>
    obtain ⟨consumed, clean, residue⟩ := ih (c.next e)
    rw [drain_some _ e]
    refine ⟨?_, ?_, residue⟩
    · rwa [List.append_assoc] at consumed
    · intro line' mem
      rcases List.mem_cons.mp mem with rfl | mem
      · exact next_clean e
      · exact clean line' mem

/-- The invariant over any interleaving of `push` and `next`. -/
lemma run (c : Consumed s lines buffer) (calls : List (Call UInt8)) :
    Consumed (s ++ pushed calls) (lines ++ (lineReader.run buffer calls).1)
        (lineReader.run buffer calls).2 ∧
      ∀ line ∈ (lineReader.run buffer calls).1, Clean line := by
  induction calls generalizing s lines buffer with
  | nil => exact ⟨by simpa [pushed, Reader.run] using c, by simp [Reader.run]⟩
  | cons call calls ih =>
    cases call with
    | push chunk =>
      obtain ⟨consumed, clean⟩ := ih (c.push chunk)
      rw [List.append_assoc] at consumed
      exact ⟨consumed, clean⟩
    | next =>
      rcases e : lineReader.next buffer with ⟨_ | line, rest⟩
      · obtain ⟨rfl, -⟩ := next_nullopt e
        rw [run_next _ e]
        exact ih c
      · obtain ⟨consumed, clean⟩ := ih (c.next e)
        rw [run_next _ e]
        refine ⟨by rwa [List.append_assoc] at consumed, ?_⟩
        intro line' mem
        rcases List.mem_cons.mp mem with rfl | mem
        · exact next_clean e
        · exact clean line' mem

/-- The invariant over chunks that are read as they come. -/
lemma feed (c : Consumed s lines buffer) (clean : Clean buffer) (chunks : List Bytes) :
    Consumed (s ++ chunks.flatten) (lines ++ (lineReader.feed buffer chunks).1)
        (lineReader.feed buffer chunks).2 ∧ Clean (lineReader.feed buffer chunks).2 := by
  induction chunks generalizing s lines buffer with
  | nil =>
    rw [List.flatten_nil, List.append_nil, feed_nil, List.append_nil]
    exact ⟨c, clean⟩
  | cons chunk chunks ih =>
    obtain ⟨consumed, -, residue⟩ := (c.push chunk).drain
    rw [List.flatten_cons, feed_cons, ← List.append_assoc, ← List.append_assoc]
    exact ih consumed residue

/-- What has been returned is the beginning of the lines of a longer stream. -/
lemma lines_begin (c : Consumed s lines buffer) (rest : Bytes) :
    nonEmpty lines <+: runs isTerminator (s ++ rest) := by
  obtain ⟨front, rfl, ended, same⟩ := c
  rw [List.append_assoc, runs_append ended, same]
  exact List.prefix_append _ _

/-- The lines of a part of the stream that ends in a terminator have been returned. -/
lemma lines_reach (c : Consumed s lines buffer) (clean : Clean buffer) {part : Bytes} (begins : part <+: s)
    (ended : Ended isTerminator part) : runs isTerminator part <+: nonEmpty lines := by
  obtain ⟨front, rfl, ended', same⟩ := c
  have inside : part <+: front := by
    rcases List.prefix_or_prefix_of_prefix begins (List.prefix_append front buffer) with shorter | longer
    · exact shorter
    · obtain ⟨more, rfl⟩ := longer
      rw [List.prefix_append_right_inj] at begins
      rcases List.eq_nil_or_concat more with rfl | ⟨more, last, rfl⟩
      · exact ⟨[], by simp⟩
      · -- the buffer would hold the terminator
        rw [List.concat_eq_append] at begins ended
        have term : isTerminator last = true := ended last (by simp)
        have none := clean last (begins.subset (by simp))
        rw [term] at none
        cases none
  obtain ⟨more, rfl⟩ := inside
  rw [← same, runs_append ended]
  exact List.prefix_append _ _

/-- The lines of a stream are the same, but for empty ones, whenever they have been taken. -/
lemma lines_eq {lines' : List Bytes} {buffer' : Bytes} (c : Consumed s lines buffer) (clean : Clean buffer)
    (c' : Consumed s lines' buffer') (clean' : Clean buffer') : nonEmpty lines' = nonEmpty lines := by
  have within : ∀ {lines lines' : List Bytes} {buffer buffer' : Bytes}, Consumed s lines buffer →
      Consumed s lines' buffer' → Clean buffer' → nonEmpty lines <+: nonEmpty lines' := by
    intro lines lines' buffer buffer' c c' clean'
    obtain ⟨front, e, ended, same⟩ := c
    rw [← same]
    exact c'.lines_reach clean' ⟨buffer, e.symm⟩ ended
  have le := within c' c clean
  exact le.eq_of_length_le (within c c' clean').length_le

end Consumed

/-- The lines of chunks are those of all their bytes at once, but for empty ones. -/
lemma nonEmpty_feed {b : Bytes} (clean : Clean b) (chunks : List Bytes) :
    nonEmpty (lineReader.feed b chunks).1 = nonEmpty (lineReader.drain (b ++ chunks.flatten)).1 := by
  have start : ∀ b, Consumed b [] b := fun b => ⟨[], rfl, by simp [Ended], rfl⟩
  obtain ⟨consumed, residue⟩ := (start b).feed clean chunks
  obtain ⟨consumed', -, residue'⟩ := (start (b ++ chunks.flatten)).drain
  exact consumed'.lines_eq residue' consumed residue

/-- However `push` and `next` are interleaved: the non-empty lines returned so far, those that draining
would still return and the residue are the maximal runs of the stream that hold neither CR nor LF. The
residue is empty exactly if the stream is or ends in a terminator, and the last run otherwise. No line
holds a terminator, a line shrinks the buffer, and no terminator is left where there is no line. -/
theorem lines_are_runs (calls : List (Call UInt8)) :
    let s := pushed calls
    let returned := (LineReader.run {} calls).1
    let buffer := (LineReader.run {} calls).2.buffer
    let more := (lineReader.drain buffer).1
    let residue := (lineReader.drain buffer).2
    nonEmpty returned ++ nonEmpty more ++ nonEmpty [residue] = runs isTerminator s ∧
      (∀ run, run ∈ runs isTerminator s ↔
        ∃ before after, s = before ++ run ++ after ∧ RunAt isTerminator before run after) ∧
      (residue = [] ↔ s = [] ∨ ∃ t, s.getLast? = some t ∧ isTerminator t = true) ∧
      (residue ≠ [] → (runs isTerminator s).getLast? = some residue) ∧
      (∀ line ∈ returned ++ more, Clean line) ∧
      (∀ line rest, lineReader.next buffer = (some line, rest) → rest.length < buffer.length) ∧
      ∀ rest, lineReader.next buffer = (none, rest) → Clean rest := by
  intro s returned buffer more residue
  have start : Consumed [] [] [] := ⟨[], rfl, by simp [Ended], rfl⟩
  obtain ⟨consumed, clean⟩ := start.run calls
  have concrete : lineReader.run [] calls = (returned, buffer) := LineReader.run_eq {} calls
  rw [concrete] at consumed clean
  obtain ⟨⟨front, split, ended, same⟩, clean', rest⟩ := consumed.drain
  have split : s = front ++ residue := split
  have same : runs isTerminator front = nonEmpty (returned ++ more) := same
  have all : runs isTerminator s = nonEmpty returned ++ nonEmpty more ++ nonEmpty [residue] := by
    rw [split, runs_append ended, same, runs_clean rest, nonEmpty_append]
    rfl
  refine ⟨all.symm, fun run => mem_runs_iff, ?_, ?_, ?_, ?_, ?_⟩
  · rw [split]
    refine ⟨?_, ?_⟩
    · intro none
      rw [none, List.append_nil]
      rcases last : front.getLast? with _ | t
      · exact .inl (List.getLast?_eq_none_iff.mp last)
      · exact .inr ⟨t, rfl, ended t last⟩
    · intro either
      rcases either with none | ⟨t, last, term⟩
      · exact (List.append_eq_nil_iff.mp none).2
      · by_contra some
        rw [List.getLast?_append_of_ne_nil _ some] at last
        have := rest t (List.mem_of_getLast? last)
        rw [term] at this
        cases this
  · intro some
    have last : nonEmpty [residue] = [residue] := by simp [nonEmpty, some]
    rw [all, last, List.getLast?_concat]
  · intro line mem
    rcases List.mem_append.mp mem with mem | mem
    · exact clean line mem
    · exact clean' line mem
  · intro line rest e
    exact lineReader.shrinks e
  · intro rest e
    exact (next_nullopt e).2

end MiniModem.Transport
