import MiniModem.Lib.LittleEndian
import MiniModem.Lib.Reader

/-!
# The line reader

`src/transport/line_reader.cpp`: a buffer of received bytes, from which `next` takes one line at a time.
A line ends at the first CR or LF, and the terminators that follow it *in the buffer* go with it. This
makes the reader stable on streams without two terminators in a row (`lineReader_stable`); where two
meet, a cut between them gives one line more (`drain_cut`).
-/

namespace MiniModem.Transport
open Lib Lib.Reader

/-- Bytes received and not yet read as lines. -/
structure LineReader where
  buffer : Bytes := []
  deriving DecidableEq, Repr

/-- `'\r'` or `'\n'`. -/
def isTerminator (b : UInt8) : Bool := b == 13 || b == 10

namespace LineReader

/-- Append the bytes to the buffer. -/
def push (reader : LineReader) (data : Bytes) : LineReader :=
  ⟨reader.buffer ++ data⟩

/-- The next line, without its terminators. -/
def next (reader : LineReader) : Option Bytes × LineReader :=
  match reader.buffer.findIdx? isTerminator with
  | none => (none, reader)
  | some pos =>
    (some (reader.buffer.take pos), ⟨(reader.buffer.drop (pos + 1)).dropWhile isTerminator⟩)

/-- Without a terminator there is no line. -/
lemma next_none {b : Bytes} (none : ∀ x ∈ b, isTerminator x = false) : next ⟨b⟩ = (.none, ⟨b⟩) := by
  have e : b.findIdx? isTerminator = .none := List.findIdx?_eq_none_iff.mpr none
  simp [next, e]

/-- A line is what stands before the first terminator, and the terminators that follow go with it. -/
lemma next_line {line rest : Bytes} {t : UInt8} (none : ∀ x ∈ line, isTerminator x = false)
    (term : isTerminator t = true) :
    next ⟨line ++ t :: rest⟩ = (some line, ⟨rest.dropWhile isTerminator⟩) := by
  have e : (line ++ t :: rest).findIdx? isTerminator = some line.length := by
    have before : line.findIdx? isTerminator = .none := List.findIdx?_eq_none_iff.mpr none
    rw [List.findIdx?_append, before]
    simp [List.findIdx?_cons, term]
  have after : (line ++ t :: rest).drop (line.length + 1) = rest := by
    rw [← List.drop_drop, List.drop_left]
    rfl
  simp [next, e, after]

end LineReader

/-- A buffer has no terminator, or a line and its first terminator. -/
lemma line_cases (b : Bytes) :
    (∀ x ∈ b, isTerminator x = false) ∨
      ∃ line t rest, b = line ++ t :: rest ∧ (∀ x ∈ line, isTerminator x = false) ∧
        isTerminator t = true := by
  induction b with
  | nil => exact .inl (by simp)
  | cons x b ih =>
    by_cases term : isTerminator x = true
    · exact .inr ⟨[], x, b, rfl, by simp, term⟩
    · rw [Bool.not_eq_true] at term
      rcases ih with none | ⟨line, t, rest, rfl, none, term'⟩
      · refine .inl ?_
        intro y mem
        rcases List.mem_cons.mp mem with rfl | mem
        · exact term
        · exact none y mem
      · refine .inr ⟨x :: line, t, rest, rfl, ?_, term'⟩
        intro y mem
        rcases List.mem_cons.mp mem with rfl | mem
        · exact term
        · exact none y mem

/-- What a line leaves in the buffer is shorter than the buffer. -/
lemma dropWhile_lt (line : Bytes) (t : UInt8) (rest : Bytes) :
    (rest.dropWhile isTerminator).length < (line ++ t :: rest).length := by
  have := (List.dropWhile_sublist (l := rest) isTerminator).length_le
  simp
  omega

/-- The reader as an incremental reader of lines. -/
def lineReader : Reader UInt8 Bytes where
  next b := ((LineReader.next ⟨b⟩).1, (LineReader.next ⟨b⟩).2.buffer)
  shrinks := by
    intro b line rest e
    rcases line_cases b with none | ⟨line', t, rest', rfl, none, term⟩
    · simp [LineReader.next_none none] at e
    · simp only [LineReader.next_line none term, Prod.mk.injEq] at e
      rw [← e.2]
      exact dropWhile_lt line' t rest'

/-- Any interleaving of `push` and `next`: the lines returned, and the reader afterwards. -/
def LineReader.run : LineReader → List (Call UInt8) → List Bytes × LineReader :=
  runWith LineReader.push LineReader.next

/-- The line reader is the reader of lines. -/
lemma LineReader.run_eq (reader : LineReader) (calls : List (Call UInt8)) :
    lineReader.run reader.buffer calls = ((reader.run calls).1, (reader.run calls).2.buffer) :=
  Implemented.run ⟨fun _ _ => rfl, fun _ => rfl⟩ reader calls

/-- The `while` loop around `next`: the lines it sees, and the reader afterwards. -/
def LineReader.drain (reader : LineReader) : List Bytes × LineReader :=
  ((lineReader.drain reader.buffer).1, ⟨(lineReader.drain reader.buffer).2⟩)

/-- The reader waits for a terminator. -/
lemma reader_none {b : Bytes} (none : ∀ x ∈ b, isTerminator x = false) :
    lineReader.next b = (.none, b) := by
  simp [lineReader, LineReader.next_none none]

/-- The reader delivers what stands before the first terminator. -/
lemma reader_line {line rest : Bytes} {t : UInt8} (none : ∀ x ∈ line, isTerminator x = false)
    (term : isTerminator t = true) :
    lineReader.next (line ++ t :: rest) = (some line, rest.dropWhile isTerminator) := by
  simp [lineReader, LineReader.next_line none term]

/-- No two terminators in a row. -/
def Separated (s : Bytes) : Prop :=
  ∀ before a b after, s = before ++ a :: b :: after →
    ¬ (isTerminator a = true ∧ isTerminator b = true)

/-- The rest of a separated text is separated. -/
lemma Separated.of_append {a b : Bytes} (sep : Separated (a ++ b)) : Separated b := by
  intro before x y after e
  exact sep (a ++ before) x y after (by rw [e, List.append_assoc])

/-- A terminator of a separated stream is followed by none, so that none is skipped. -/
lemma Separated.dropWhile_eq {t : UInt8} {rest : Bytes} (sep : Separated (t :: rest))
    (term : isTerminator t = true) : rest.dropWhile isTerminator = rest := by
  cases rest with
  | nil => rfl
  | cons x rest =>
    have no : isTerminator x = false := by
      rw [← Bool.not_eq_true]
      exact fun yes => sep [] t x rest rfl ⟨term, yes⟩
    simp [no]

/-- On separated streams each terminator ends one line, whatever has arrived after it. -/
lemma lineReader_stable : lineReader.Stable Separated where
  keep := by
    intro b more rest good e
    rcases line_cases b with none | ⟨line, t, rest', rfl, none, term⟩
    · rw [reader_none none] at e
      cases e
      rfl
    · rw [reader_line none term] at e
      cases e
  extend := by
    intro b more item rest good e
    rcases line_cases b with none | ⟨line, t, rest', rfl, none, term⟩
    · rw [reader_none none] at e
      cases e
    · rw [List.append_assoc, List.cons_append] at good ⊢
      have after : Separated (t :: (rest' ++ more)) := good.of_append
      have part : Separated (t :: rest') := by
        intro before x y after' eq
        apply after before x y (after' ++ more)
        rw [← List.cons_append, eq]
        simp
      rw [reader_line none term, part.dropWhile_eq term] at e
      rw [reader_line none term, after.dropWhile_eq term]
      cases e
      rfl
  tail := by
    intro b item rest good e
    rcases line_cases b with none | ⟨line, t, rest', rfl, none, term⟩
    · rw [reader_none none] at e
      cases e
    · have after : Separated (t :: rest') := good.of_append
      rw [reader_line none term, after.dropWhile_eq term] at e
      cases e
      exact Separated.of_append (a := [t]) after

/-- The number of lines a buffer holds. -/
def lineCount (b : Bytes) : ℕ := (lineReader.drain b).1.length

/-- A line counts once. -/
lemma lineCount_line {line rest : Bytes} {t : UInt8} (none : ∀ x ∈ line, isTerminator x = false)
    (term : isTerminator t = true) :
    lineCount (line ++ t :: rest) = lineCount (rest.dropWhile isTerminator) + 1 := by
  rw [lineCount, drain_some _ (reader_line none term)]
  rfl

/-- Where something is left of the first part the second is not touched. -/
lemma dropWhile_append_of_ne_nil {b more : Bytes} (ne : b.dropWhile isTerminator ≠ []) :
    (b ++ more).dropWhile isTerminator = b.dropWhile isTerminator ++ more := by
  rw [List.dropWhile_append, if_neg (by simpa using ne)]

/-- A cut between two terminators gives one line more, and leaves nothing in front of the cut. -/
lemma drain_cut {a b : UInt8} (termA : isTerminator a = true) (termB : isTerminator b = true)
    (before after : Bytes) :
    lineCount (before ++ a :: b :: after) + 1 = lineCount (before ++ [a]) + lineCount (b :: after) ∧
      (lineReader.drain (before ++ [a])).2 = [] := by
  induction e : before.length using Nat.strong_induction_on generalizing before with
  | _ n ih =>
    have second : lineCount (b :: after) = lineCount (after.dropWhile isTerminator) + 1 :=
      @lineCount_line [] after b (by simp) termB
    rcases line_cases before with none | ⟨line, t, rest, rfl, none, term⟩
    · have first : lineCount (before ++ [a]) = lineCount [] + 1 := lineCount_line none termA
      have whole : lineCount (before ++ a :: b :: after) = _ := lineCount_line none termA
      rw [List.dropWhile_cons_of_pos termB] at whole
      refine ⟨?_, ?_⟩
      · rw [whole, first, second]
        show _ = 0 + 1 + _
        omega
      · rw [drain_some _ (reader_line none termA)]
        rfl
    · rw [List.append_assoc, List.cons_append, List.append_assoc, List.cons_append]
      have first : lineCount (line ++ t :: (rest ++ [a])) = _ := lineCount_line none term
      have whole : lineCount (line ++ t :: (rest ++ a :: b :: after)) = _ := lineCount_line none term
      by_cases skipped : rest.dropWhile isTerminator = []
      · -- the terminators of the line reach up to the cut
        have gone : (rest ++ [a]).dropWhile isTerminator = [] := by
          rw [List.dropWhile_append, skipped]
          simp [termA]
        have gone' : (rest ++ a :: b :: after).dropWhile isTerminator =
            after.dropWhile isTerminator := by
          rw [List.dropWhile_append, skipped]
          simp [termA, termB]
        rw [gone] at first
        rw [gone'] at whole
        refine ⟨?_, ?_⟩
        · rw [whole, first, second]
          show _ = 0 + 1 + _
          omega
        · rw [drain_some _ (reader_line none term), gone]
          rfl
      · rw [dropWhile_append_of_ne_nil skipped] at first whole
        have shorter : (rest.dropWhile isTerminator).length < n := by
          rw [← e]
          exact dropWhile_lt line t rest
        obtain ⟨count, left⟩ := ih _ shorter (rest.dropWhile isTerminator) rfl
        refine ⟨by rw [whole, first]; omega, ?_⟩
        rw [drain_some _ (reader_line none term), dropWhile_append_of_ne_nil skipped]
        exact left

end MiniModem.Transport
