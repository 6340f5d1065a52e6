import MiniModem.Daemon.Blocking
import MiniModem.SharedModem.Answers
import MiniModem.Transport.LineRuns

/-!
# What a terminal reads

A program at the other end of a PTY reads lines, in any pieces. A registration is in lines of its own, whatever
the modem has answered before or answers after it: `\r\n` stands at its beginning and at its end
(`runs_registered`). So the terminal finds it in its place among the lines of the responses, as soon as it has
been sent, and no line is made of two things that it has been told (`at_served`).
-/

namespace MiniModem
open Lib Transport Modem Daemon

namespace At

/-- `+COPS: 1,2,"` with the operator code and `"` -/
def copsLine (event : ModemEvent) : Bytes := Session.copsPrefix.drop 2 ++ event.operatorCode ++ [34]

/-- If the operator code has no CR and no LF, there is one line. -/
lemma runs_copsLine {event : ModemEvent} (clean : Clean event.operatorCode) :
    runs isTerminator (copsLine event) = [copsLine event] := by
  have opening : ((Session.copsPrefix.drop 2).all fun b => !isTerminator b) = true := rfl
  have inside : Clean (copsLine event) := by
    intro b mem
    rw [copsLine, List.mem_append, List.mem_append] at mem
    rcases mem with (mem | mem) | mem
    · have none := List.all_eq_true.mp opening b mem
      rwa [Bool.not_eq_true'] at none
    · exact clean b mem
    · obtain rfl := List.mem_singleton.mp mem
      rfl
  rw [runs_clean inside]
  rfl

end At

namespace SharedModem
open At

/-- A registration between its terminators. -/
lemma wire_registered (event : ModemEvent) :
    Server.atServer.wire (.registered event) = 13 :: 10 :: (copsLine event ++ [13, 10]) := by
  show Session.copsPrefix ++ event.operatorCode ++ Session.copsSuffix = _
  simp [copsLine, Session.copsPrefix, Session.copsSuffix]

/-- A registration is cut off from what stands before and after it. -/
lemma runs_registered (before after : Bytes) (event : ModemEvent) :
    runs isTerminator (before ++ (Server.atServer.wire (.registered event) ++ after)) =
      runs isTerminator before ++ (runs isTerminator (copsLine event) ++ runs isTerminator after) := by
  have cr : isTerminator 13 = true := rfl
  have lf : isTerminator 10 = true := rfl
  have second : ∀ rest, runs isTerminator (10 :: rest) = runs isTerminator rest :=
    fun rest => runs_cut lf [] rest
  rw [wire_registered, List.cons_append, List.cons_append, List.append_assoc, runs_cut cr, second]
  show _ ++ runs isTerminator (copsLine event ++ 13 :: 10 :: after) = _
  rw [runs_cut cr, second]

/-- A registration ends in a terminator. -/
lemma ended_registered (before : Bytes) (event : ModemEvent) :
    Ended isTerminator (before ++ Server.atServer.wire (.registered event)) := by
  intro b last
  rw [wire_registered, List.getLast?_append_of_ne_nil _ (List.cons_ne_nil _ _)] at last
  have ends : 13 :: 10 :: (copsLine event ++ [13, 10]) = 13 :: 10 :: (copsLine event ++ [13]) ++ [10] := by simp
  rw [ends, List.getLast?_concat] at last
  cases last
  rfl

/-- The lines that a terminal has read, when a session has told something and sent a part of it: they are lines
of this output, in their order, with all lines of what has been sent up to a terminator. A registration that has
been sent is in its place, in lines of its own, which is one if the operator code has no CR and no LF. -/
structure Reads (told : List Told) (sent : Bytes) (lines : List Bytes) : Prop where
  begins : lines <+: runs isTerminator (told.flatMap Server.atServer.wire)
  reaches : ∀ part, part <+: sent → Ended isTerminator part → runs isTerminator part <+: lines
  registration : ∀ before event after, told = before ++ .registered event :: after →
    (before ++ [.registered event]).flatMap Server.atServer.wire <+: sent →
      runs isTerminator (before.flatMap Server.atServer.wire) ++ runs isTerminator (copsLine event) <+: lines
  single : ∀ before event after, told = before ++ .registered event :: after → Clean event.operatorCode →
    (before ++ [.registered event]).flatMap Server.atServer.wire <+: sent →
      runs isTerminator (before.flatMap Server.atServer.wire) ++ [copsLine event] <+: lines

/-- What a terminal reads of the bytes sent, in any pieces. -/
lemma reads_feed {told : List Told} {sent pending : Bytes}
    (output : sent ++ pending = told.flatMap Server.atServer.wire) {pieces : List Bytes}
    (cut : pieces.flatten = sent) : Reads told sent (nonEmpty (lineReader.feed [] pieces).1) := by
  have start : Consumed [] [] [] := ⟨[], rfl, by simp [Ended], rfl⟩
  obtain ⟨consumed, clean⟩ := start.feed (fun _ mem => by cases mem) pieces
  rw [List.nil_append, List.nil_append, cut] at consumed
  have registration : ∀ before event,
      (before ++ [.registered event]).flatMap Server.atServer.wire <+: sent →
        runs isTerminator (before.flatMap Server.atServer.wire) ++ runs isTerminator (copsLine event) <+:
          nonEmpty (lineReader.feed [] pieces).1 := by
    intro before event inside
    have alone := runs_registered (before.flatMap Server.atServer.wire) [] event
    rw [List.append_nil, runs_nil, List.append_nil] at alone
    rw [List.flatMap_append, List.flatMap_singleton] at inside
    rw [← alone]
    exact consumed.lines_reach clean inside (ended_registered _ event)
  refine ⟨?_, ?_, ?_, ?_⟩
  · rw [← output]
    exact consumed.lines_begin pending
  · intro part begins ended
    exact consumed.lines_reach clean begins ended
  · intro before event after split
    exact registration before event
  · intro before event after split clean'
    rw [← runs_copsLine clean']
    exact registration before event

/-- A session of the AT server, whether it is there or has been destroyed, has answered each line that its
reader has found in what was read from its descriptor by one response of the modem to this line, in their order.
In between it has told the registrations that were published while it was there, all of them, once each and in
their order. A terminal that reads what the session has sent, in any pieces, reads the lines of this, and no line
is made of a registration and something else. -/
theorem at_served {σ : Type*} (M : MiniModem.Modem σ) (fds : Descriptors) (modem : σ) (steps : List Step)
    (d : Daemon σ) (run : (Daemon.system M).exec (boot fds modem) steps = some d)
    (bound : d.allocated < 2 ^ 64) (owned : Owned .atServer) (has : d.HasSession owned) :
    ∃ told : List Told, SessionTold M fds modem steps owned told ∧
      (∀ before event after, told = before ++ .registered event :: after →
        runs isTerminator owned.output = runs isTerminator (before.flatMap Server.atServer.wire) ++
          (runs isTerminator (copsLine event) ++
            runs isTerminator (after.flatMap Server.atServer.wire))) ∧
      ∀ pieces : List Bytes, pieces.flatten = owned.sent →
        Reads told owned.sent (nonEmpty (lineReader.feed [] pieces).1) ∧
          (owned.session.outbox.pending = [] → Ended isTerminator owned.sent →
            nonEmpty (lineReader.feed [] pieces).1 = runs isTerminator owned.output) := by
  obtain ⟨told, session⟩ := session_told run bound owned has
  have output := session.output
  refine ⟨told, session, ?_, ?_⟩
  · intro before event after split
    rw [output, split, List.flatMap_append, List.flatMap_cons, runs_registered]
  · intro pieces cut
    have reads := reads_feed output cut
    refine ⟨reads, ?_⟩
    intro nothing ended
    have all : owned.output = owned.sent := by rw [Owned.output, nothing, List.append_nil]
    have begins := reads.begins
    rw [← output, all] at begins
    rw [all]
    exact begins.eq_of_length_le (reads.reaches _ (List.prefix_refl _) ended).length_le

/-- A registration is published while nobody has opened the terminal, and is sent when somebody has. Then a line
is read, and the terminal is closed, so that the session goes with the response. -/
def registrationAndLine : List Step :=
  [.createPty (some (7, 8)) true, .deliver 5 EPOLLIN {}, .deliver 7 EPOLLHUP {},
    .deliver 7 EPOLLOUT { writes := [.room 4096] },
    .deliver 7 EPOLLIN { reads := [.bytes At.attention, .error] }]

/-- No call of the run waits. The terminal reads `+COPS: 1,2,"25001"`, the registration published in the run, and
the line is answered. -/
theorem at_served_registrationAndLine :
    ((Daemon.system sampleModem).project (fun d step _ => issued d step) (boot sampleDescriptors false)
        registrationAndLine).all (fun call => !call.waits) = true ∧
      ∃ d, ∃ owned : Owned .atServer,
        (Daemon.system sampleModem).exec (boot sampleDescriptors false) registrationAndLine = some d ∧
        d.HasSession owned ∧ ∃ told : List Told,
          SessionTold sampleModem sampleDescriptors false registrationAndLine owned told ∧
          told.filterMap Told.event? = [⟨.NetworkRegistered, [50, 53, 48, 48, 49], 0⟩] ∧
          (told.filter Told.isResponse).length = 1 ∧
          Reads told owned.sent [copsLine ⟨.NetworkRegistered, [50, 53, 48, 48, 49], 0⟩] := by
  have ran : ∃ d, ∃ owned : Owned .atServer,
      (Daemon.system sampleModem).exec (boot sampleDescriptors false) registrationAndLine = some d ∧
      d.allocated < 2 ^ 64 ∧ ⟨.atServer, owned⟩ ∈ d.destroyed ∧
      (lineReader.feed [] (chunksOf owned.addr ((Daemon.system sampleModem).project
        (fun d step _ => chunksRead d step) (boot sampleDescriptors false) registrationAndLine))).1.length = 1 ∧
      registrations ((Daemon.system sampleModem).project
        (fun d step _ => publishedTo sampleModem owned.addr d step) (boot sampleDescriptors false)
        registrationAndLine) = [⟨.NetworkRegistered, [50, 53, 48, 48, 49], 0⟩] ∧
      nonEmpty (lineReader.feed [] [owned.sent]).1 =
        [copsLine ⟨.NetworkRegistered, [50, 53, 48, 48, 49], 0⟩] :=
    ⟨_, _, rfl, by decide, .head _, by decide, by decide, by decide⟩
  obtain ⟨d, owned, run, bound, gone, lines, published, sent⟩ := ran
  obtain ⟨told, session, -, reads⟩ := at_served sampleModem sampleDescriptors false registrationAndLine d run
    bound owned (.inr gone)
  have read := (reads [owned.sent] (by simp)).1
  rw [sent] at read
  refine ⟨rfl, d, owned, run, .inr gone, told, session, ?_, ?_, read⟩
  · rw [session.registrations, published]
  · rw [← session.responses.length_eq]
    exact lines

end SharedModem

end MiniModem
