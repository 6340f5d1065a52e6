import MiniModem.Lib.Fields
import MiniModem.Lib.LittleEndian

/-!
# The parser of AT commands

`include/at/command.hpp` and `src/at/Parser.cpp`. The loop over the arguments looks for one comma after
the other. Its arguments are the fields of the text between the commas, but for an empty one at the end
(`splitArguments_eq`). So what the parser accepts can be said without positions, by one rule for each form
of a command (`Parsed`, `parse_iff`).
-/

namespace MiniModem.At
open Lib

/-- `AT`, `AT+NAME?` or `AT+NAME=...` -/
inductive CommandType
  | Basic | Query | Set
  deriving DecidableEq, Repr

/-- What a line asks for. -/
structure Command where
  name : Bytes
  type : CommandType
  arguments : List Bytes := []
  deriving DecidableEq, Repr

namespace Parser

/-- `AT` -/
def attentionPrefix : Bytes := [65, 84]

/-- `?` -/
def questionMark : UInt8 := 63

/-- `=` -/
def equalSign : UInt8 := 61

/-- `,` -/
def comma : UInt8 := 44

/-- `text.find(c, start)` -/
def find (text : Bytes) (c : UInt8) (start : ℕ) : Option ℕ :=
  ((text.drop start).idxOf? c).map (start + ·)

/-- The `while` loop over the arguments, from the position `start`. Each round moves it on, so the length
of the text bounds the number of rounds; it is the fuel `parse` passes. -/
def splitArguments (args : Bytes) : ℕ → ℕ → List Bytes → List Bytes
  | 0, _, arguments => arguments
  | fuel + 1, start, arguments =>
    if start < args.length then
      match find args comma start with
      | none => arguments ++ [args.drop start]
      | some comma =>
        splitArguments args fuel (comma + 1) (arguments ++ [(args.drop start).take (comma - start)])
    else arguments

/-- `Parser::parse` -/
def parse (input : Bytes) : Option Command :=
  if input.isEmpty then none
  else if input.length < 2 then none
  else if input.getD 0 0 ≠ 65 ∨ input.getD 1 0 ≠ 84 then none
  else
    let input := input.drop 2
    if input.isEmpty then some { name := [], type := .Basic }
    else if input.getLast? = some questionMark then
      some { name := input.dropLast, type := .Query }
    else
      match find input equalSign 0 with
      | some equalPos =>
        let args := input.drop (equalPos + 1)
        some
          { name := input.take equalPos
            type := .Set
            arguments := splitArguments args args.length 0 [] }
      | none => some { name := input, type := .Basic }

/-- The commands, by what follows `AT`. A question mark at the end comes first; then the first equals
sign decides. -/
inductive Parsed : Bytes → Command → Prop
  | query {name : Bytes} : Parsed (name ++ [questionMark]) { name, type := .Query }
  | set {name args : Bytes} (ends : (name ++ equalSign :: args).getLast? ≠ some questionMark)
      (first : equalSign ∉ name) :
      Parsed (name ++ equalSign :: args)
        { name, type := .Set, arguments := trimmed (args.splitOn comma) }
  | basic {name : Bytes} (ends : name.getLast? ≠ some questionMark) (none : equalSign ∉ name) :
      Parsed name { name, type := .Basic }

/-- The position found is behind a part of the text without the character. -/
lemma find_eq_some {text : Bytes} {c : UInt8} {start i : ℕ} (found : find text c start = some i) :
    ∃ field rest, text.drop start = field ++ c :: rest ∧ c ∉ field ∧ i = start + field.length := by
  rw [find, Option.map_eq_some_iff] at found
  obtain ⟨length, found, rfl⟩ := found
  obtain ⟨lt, here, before⟩ := List.idxOf?_eq_some_iff.mp found
  refine ⟨(text.drop start).take length, (text.drop start).drop (length + 1), ?_, ?_, ?_⟩
  · rw [← here, ← List.drop_eq_getElem_cons lt, List.take_append_drop]
  · intro mem
    obtain ⟨j, lt', e⟩ := List.mem_take_iff_getElem.mp mem
    exact before j (by omega) e
  · rw [List.length_take_of_le lt.le]

/-- Nothing is found exactly if the character does not occur. -/
lemma find_eq_none {text : Bytes} {c : UInt8} {start : ℕ} :
    find text c start = none ↔ c ∉ text.drop start := by
  rw [find, Option.map_eq_none_iff, List.idxOf?_eq_none_iff]

/-- The arguments from a position on are the fields from there on. -/
lemma splitArguments_eq {args : Bytes} {fuel start : ℕ} (enough : args.length ≤ start + fuel)
    (arguments : List Bytes) :
    splitArguments args fuel start arguments =
      arguments ++ trimmed ((args.drop start).splitOn comma) := by
  have done : ∀ start, args.length ≤ start → trimmed ((args.drop start).splitOn comma) = [] := by
    intro start le
    rw [List.drop_eq_nil_of_le le]
    rfl
  induction fuel generalizing start arguments with
  | zero => rw [splitArguments, done start enough, List.append_nil]
  | succ fuel ih =>
    rw [splitArguments]
    split
    · next lt =>
      rcases found : find args comma start with _ | i
      · have none := find_eq_none.mp found
        simp only
        rw [List.splitOn_eq_singleton none, trimmed_eq_self.mpr]
        simpa using lt
      · obtain ⟨field, rest, split, none, rfl⟩ := find_eq_some found
        have behind : args.drop (start + field.length + 1) = rest := by
          rw [Nat.add_assoc, ← List.drop_drop, split]
          simp
        simp only
        rw [ih (by omega), split, Nat.add_sub_cancel_left, List.take_left, behind,
          List.splitOn_append_cons_self_of_not_mem none, trimmed_cons field (List.splitOn_ne_nil _ _),
          List.append_assoc, List.singleton_append]
    · next ge => rw [done start (by omega), List.append_nil]

/-- What follows `AT` decides. -/
lemma parse_append (text : Bytes) :
    parse (attentionPrefix ++ text) =
      if text.isEmpty then some { name := [], type := .Basic }
      else if text.getLast? = some questionMark then
        some { name := text.dropLast, type := .Query }
      else
        match find text equalSign 0 with
        | some equalPos =>
          some
            { name := text.take equalPos
              type := .Set
              arguments := trimmed ((text.drop (equalPos + 1)).splitOn comma) }
        | none => some { name := text, type := .Basic } := by
  have long : ¬ (attentionPrefix ++ text).length < 2 := by simp [attentionPrefix]
  have starts : ¬ ((attentionPrefix ++ text).getD 0 0 ≠ 65 ∨ (attentionPrefix ++ text).getD 1 0 ≠ 84) := by
    simp [attentionPrefix]
  have split : ∀ args, splitArguments args args.length 0 [] = trimmed (args.splitOn comma) :=
    fun args => splitArguments_eq (by omega) []
  rw [parse, if_neg (by simp [attentionPrefix]), if_neg long, if_neg starts]
  simp only [split]
  rfl

/-- A line without `AT` is no command. -/
lemma parse_eq_none {input : Bytes} (other : ¬ attentionPrefix <+: input) : parse input = none := by
  rw [parse]
  split
  · rfl
  · split
    · rfl
    · split
      · rfl
      · next some long starts =>
        -- the first two characters are there, and they are the right ones
        match input with
        | [] => simp at some
        | [_] => simp at long
        | first :: second :: text =>
          simp only [List.getD_cons_zero, List.getD_cons_succ, ne_eq, not_or, not_not] at starts
          obtain ⟨rfl, rfl⟩ := starts
          exact absurd (List.prefix_append attentionPrefix text) other

/-- There is a rule for every text. -/
lemma exists_parsed (text : Bytes) : ∃ command, Parsed text command := by
  by_cases last : text.getLast? = some questionMark
  · rw [← List.dropLast_append_getLast? _ last]
    exact ⟨_, .query⟩
  · by_cases mem : equalSign ∈ text
    · obtain ⟨name, args, rfl, first⟩ := List.eq_append_cons_of_mem mem
      exact ⟨_, .set last first⟩
    · exact ⟨_, .basic last mem⟩

/-- The rules are those of the parser. -/
lemma Parsed.parse {text : Bytes} {command : Command} (parsed : Parsed text command) :
    Parser.parse (attentionPrefix ++ text) = some command := by
  rw [parse_append]
  cases parsed with
  | query => simp
  | @set name args ends first =>
    rw [if_neg (by simp), if_neg ends]
    rcases found : find (name ++ equalSign :: args) equalSign 0 with _ | i
    · refine absurd ?_ (find_eq_none.mp found)
      simp
    · obtain ⟨name', args', split, first', rfl⟩ := find_eq_some found
      rw [List.drop_zero] at split
      obtain ⟨rfl, rfl⟩ := append_cons_inj first first' split
      simp
  | basic ends none =>
    rw [if_neg ends, find_eq_none.mpr none]
    split
    · next empty =>
      rw [List.isEmpty_iff] at empty
      rw [empty]
    · rfl

/-- The parser accepts exactly what starts with `AT`, and follows the rules. -/
theorem parse_iff {input : Bytes} {command : Command} :
    parse input = some command ↔ ∃ text, input = attentionPrefix ++ text ∧ Parsed text command := by
  refine ⟨?_, ?_⟩
  · intro run
    by_cases starts : attentionPrefix <+: input
    · obtain ⟨text, rfl⟩ := starts
      obtain ⟨command', parsed⟩ := exists_parsed text
      rw [parsed.parse, Option.some.injEq] at run
      exact ⟨text, rfl, run ▸ parsed⟩
    · rw [parse_eq_none starts] at run
      cases run
  · intro split
    obtain ⟨text, rfl, parsed⟩ := split
    exact parsed.parse

end Parser

end MiniModem.At
