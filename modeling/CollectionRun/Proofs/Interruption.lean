import CollectionRun.Proofs.Execution.Reported

namespace CollectionRun

open Text Forwarded

namespace Text

/-- The octets are lines, each with a line feed behind it, and a rest in which there is none. -/
structure Lined (octets : List UInt8) (lines : List (List UInt8)) (rest : List UInt8) : Prop where
  parts : octets = lines.flatMap (· ++ [lineFeed]) ++ rest
  whole : ∀ line ∈ lines, lineFeed ∉ line
  unfinished : lineFeed ∉ rest

theorem flatMap_lines_append_rest (octets : List UInt8) :
    (cut octets).lines.flatMap (· ++ [lineFeed]) ++ (cut octets).rest = octets := by
  induction octets with
  | nil => rfl
  | cons x octets ih =>
    rw [cut_cons, Cut.prepend]
    by_cases feed : x = lineFeed
    · rw [if_pos feed, List.flatMap_cons, List.append_assoc, ih, feed]
      rfl
    · rw [if_neg feed]
      cases lines : (cut octets).lines with
      | nil =>
        rw [lines] at ih
        exact congrArg (x :: ·) ih
      | cons line later =>
        rw [lines] at ih
        exact congrArg (x :: ·) ih

theorem lineFeed_notMem_lines (octets : List UInt8) :
    ∀ line ∈ (cut octets).lines, lineFeed ∉ line := by
  induction octets with
  | nil => exact List.forall_mem_nil _
  | cons x octets ih =>
    rw [cut_cons, Cut.prepend]
    by_cases feed : x = lineFeed
    · rw [if_pos feed]
      exact List.forall_mem_cons.mpr ⟨List.not_mem_nil, ih⟩
    · rw [if_neg feed]
      cases lines : (cut octets).lines with
      | nil => exact List.forall_mem_nil _
      | cons line later =>
        rw [lines] at ih
        obtain ⟨first, others⟩ := List.forall_mem_cons.mp ih
        refine List.forall_mem_cons.mpr ⟨?_, others⟩
        rw [List.mem_cons, not_or]
        exact ⟨Ne.symm feed, first⟩

theorem lined_cut (octets : List UInt8) : Lined octets (cut octets).lines (cut octets).rest :=
  ⟨(flatMap_lines_append_rest octets).symm, lineFeed_notMem_lines octets,
    lineFeed_notMem_rest octets⟩

end Text

/-- Reading the stream gives these lines, and may end in a fault. The rest behind the lines that
have ended is a line of its own at the end of the stream, but not before a fault. -/
inductive Reads : List Chunk → Option String → List (List UInt8) → Prop
  | ended {parts lines : List (List UInt8)} {rest : List UInt8}
      (lined : Lined parts.flatten lines rest) :
    Reads (chunks parts) none (lines ++ if rest = [] then [] else [rest])
  | failed {parts lines : List (List UInt8)} {rest : List UInt8}
      (lined : Lined parts.flatten lines rest) (text : String) (later : List Chunk) :
    Reads (chunks parts ++ .fault text :: later) (some text) lines

theorem exists_chunks (stream : List Chunk) :
    (∃ parts, stream = chunks parts) ∨
      ∃ parts text later, stream = chunks parts ++ .fault text :: later := by
  induction stream with
  | nil => exact .inl ⟨[], rfl⟩
  | cons chunk stream ih =>
    cases chunk with
    | fault text => exact .inr ⟨[], text, stream, rfl⟩
    | octets part =>
      rcases ih with ⟨parts, rfl⟩ | ⟨parts, text, later, rfl⟩
      · exact .inl ⟨part :: parts, rfl⟩
      · exact .inr ⟨part :: parts, text, later, rfl⟩

theorem exists_reads (stream : List Chunk) :
    ∃ fault? lines, Reads stream fault? lines ∧
      ofStream stream = ⟨lines.map lineText, fault?⟩ := by
  rcases exists_chunks stream with ⟨parts, rfl⟩ | ⟨parts, text, later, rfl⟩
  · refine ⟨none, _, .ended (lined_cut _), ?_⟩
    rw [ofStream_chunks, ← lines_append_flush]
    simp only [LineBuffer.flush, List.isEmpty_iff]
  · -- The fault leaves before the buffer is flushed, so that the rest is not forwarded.
    refine ⟨some text, _, .failed (lined_cut _) text later, ?_⟩
    have forwarded := ofChunks_chunks parts (.fault text :: later) {} List.not_mem_nil
    rw [ofStream, forwarded]
    exact congrArg (Forwarded.mk · (some text)) (List.append_nil _)

namespace Event

def output? : Event → Option String
  | outputLine line _ => some line
  | _ => none

def error? : Event → Option String
  | errorLine line _ => some line
  | _ => none

end Event

namespace Runner

variable (r : Runner) (executable : String) (arguments : List String)

section

variable (stdout stderr : List Chunk) (exitCode : Int)

theorem perform_of_fault {text : String}
    (failed : (ofStream stdout).fault.or (ofStream stderr).fault = some text) :
    r.perform executable arguments (.plays stdout stderr exitCode) =
      { events := .commandStarted executable arguments ::
          (ofStream stdout).lines.map (.outputLine · executable) ++
            (ofStream stderr).lines.map (.errorLine · executable)
        failure := some ⟨.system text, []⟩
        killed := true } := by
  unfold perform
  simp only [failed]

theorem exists_events_perform :
    ∃ tail, (r.perform executable arguments (.plays stdout stderr exitCode)).events =
        .commandStarted executable arguments ::
          (ofStream stdout).lines.map (.outputLine · executable) ++
            (ofStream stderr).lines.map (.errorLine · executable) ++ tail ∧
      tail.filterMap Event.output? = [] ∧ tail.filterMap Event.error? = [] := by
  unfold perform
  dsimp only
  split
  · exact ⟨[], (List.append_nil _).symm, rfl, rfl⟩
  · split
    · exact ⟨[], (List.append_nil _).symm, rfl, rfl⟩
    · exact ⟨_, rfl, rfl, rfl⟩

/-- What is forwarded of one stream does not depend on the other. -/
theorem filterMap_events_perform :
    let events := (r.perform executable arguments (.plays stdout stderr exitCode)).events
    events.filterMap Event.output? = (ofStream stdout).lines ∧
      events.filterMap Event.error? = (ofStream stderr).lines := by
  -- Through either view the lines of one stream are all there, and those of the other are gone.
  have outOut : Event.output? ∘ (Event.outputLine · executable) = some := rfl
  have outErr : Event.error? ∘ (Event.outputLine · executable) = fun _ => none := rfl
  have errOut : Event.output? ∘ (Event.errorLine · executable) = fun _ => none := rfl
  have errErr : Event.error? ∘ (Event.errorLine · executable) = some := rfl
  obtain ⟨tail, events, noOutput, noError⟩ :=
    exists_events_perform r executable arguments stdout stderr exitCode
  rw [events, List.cons_append, List.cons_append]
  constructor
  · rw [List.filterMap_cons_none rfl, List.filterMap_append, List.filterMap_append,
      List.filterMap_map, List.filterMap_map, outOut, errOut, noOutput]
    simp
  · rw [List.filterMap_cons_none rfl, List.filterMap_append, List.filterMap_append,
      List.filterMap_map, List.filterMap_map, outErr, errErr, noError]
    simp

theorem filterMap_events_run (j : Journal World) :
    let events := ((r.run executable arguments).play
      (j.expecting (.plays stdout stderr exitCode))).2.events
    events.filterMap Event.output? = j.events.filterMap Event.output? ++ (ofStream stdout).lines ∧
      events.filterMap Event.error? =
        j.events.filterMap Event.error? ++ (ofStream stderr).lines := by
  intro events
  have appended : events =
      j.events ++ (r.perform executable arguments (.plays stdout stderr exitCode)).events := by
    show Journal.events (Act.play _ _).2 = _
    rw [play_run]
    rfl
  obtain ⟨output, error⟩ := filterMap_events_perform r executable arguments stdout stderr exitCode
  rw [appended, List.filterMap_append, List.filterMap_append, output, error]
  exact ⟨rfl, rfl⟩

end

/-- A launch of which a stream cannot be read to its end, or neither can, ends in the failure of the
system, that of standard output first, and in none of the command; the program is ended. Of a stream
that fails, the lines that have ended before are forwarded. What is forwarded of a stream is the
same in every launch, whatever comes of the other stream and of the program. -/
theorem run_of_fault (exitCode : Int) (j : Journal World) {stdout stderr : List Chunk}
    (unread : (Script.plays stdout stderr exitCode).IsUnread) :
    let played (script : Script) := (r.run executable arguments).play (j.expecting script)
    let ending := played (.plays stdout stderr exitCode)
    ∃ outFault errFault outLines errLines text out err noted,
      Reads stdout outFault outLines ∧ Reads stderr errFault errLines ∧
        outFault.or errFault = some text ∧
        List.Forall₂ IsLineText outLines out ∧ List.Forall₂ IsLineText errLines err ∧
        ending.1 = .error ⟨.system text, []⟩ ∧
        ending.2.world = j.world.launched ⟨executable :: arguments, r.environment, true⟩ ∧
        ending.2.events = j.events ++ noted ∧
        noted = .commandStarted executable arguments :: out.map (.outputLine · executable) ++
          err.map (.errorLine · executable) ∧
        (∀ name category, .commandFailed name category ∉ noted) ∧
        (∀ other code,
          (played (.plays stdout other code)).2.events.filterMap Event.output? =
            ending.2.events.filterMap Event.output?) ∧
        ∀ other code,
          (played (.plays other stderr code)).2.events.filterMap Event.error? =
            ending.2.events.filterMap Event.error? := by
  intro played ending
  obtain ⟨outFault, outLines, readsOut, forwardedOut⟩ := exists_reads stdout
  obtain ⟨errFault, errLines, readsErr, forwardedErr⟩ := exists_reads stderr
  have texts (lines : List (List UInt8)) : List.Forall₂ IsLineText lines (lines.map lineText) :=
    List.forall₂_map_right_iff.mpr (List.forall₂_same.mpr fun line _ => isLineText_lineText line)
  have faults := mt (faults_eq_none stdout stderr).mp fun never => unread.elim never
  rw [forwardedOut, forwardedErr] at faults
  obtain ⟨text, failed⟩ := Option.ne_none_iff_exists'.mp faults
  have found : (ofStream stdout).fault.or (ofStream stderr).fault = some text := by
    rw [forwardedOut, forwardedErr, failed]
  have performed := r.perform_of_fault executable arguments stdout stderr exitCode found
  rw [forwardedOut, forwardedErr] at performed
  have ended : ending = _ := play_run _ _ _ _
  simp only [Journal.expecting, World.nextScript, performed] at ended
  refine ⟨outFault, errFault, outLines, errLines, text, _, _, _, readsOut, readsErr, failed,
    texts outLines, texts errLines, ?_, ?_, ?_, rfl, ?_, ?_, ?_⟩
  · rw [ended]
  · rw [ended]
  · rw [ended]
  · intro name category member
    simp at member
  · intro other code
    have here := (r.filterMap_events_run executable arguments stdout stderr exitCode j).1
    rw [(r.filterMap_events_run executable arguments stdout other code j).1, here]
  · intro other code
    have here := (r.filterMap_events_run executable arguments stdout stderr exitCode j).2
    rw [(r.filterMap_events_run executable arguments other stderr code j).2, here]

theorem run_of_fault_of_cut_character :
    let stdout : List Chunk :=
      [.octets [0x61, 0x0D, 0x0A, 0x62], .octets [0xC3], .fault "boom", .octets [0xA9, 0x0A]]
    let stderr : List Chunk := [.octets [0x54, 0x79, 0x70, 0x65, 0x45, 0x72, 0x72, 0x6F, 0x72]]
    let ending := (run {} "bru" ["run"]).play (Journal.expecting ⟨[], {}⟩ (.plays stdout stderr 1))
    (Script.plays stdout stderr 1).IsUnread ∧
      ending.1 = .error ⟨.system "boom", []⟩ ∧
      ending.2.world.launches.map Launch.killed = [true] ∧
      ending.2.events = [.commandStarted "bru" ["run"], .outputLine "a" "bru",
        .errorLine "TypeError" "bru"] := by
  intro stdout stderr ending
  have unread : (Script.plays stdout stderr 1).IsUnread := ⟨"boom", by decide⟩
  obtain ⟨_, _, _, _, _, _, _, _, -, -, -, -, -, -, launched, -⟩ :=
    run_of_fault {} "bru" ["run"] 1 ⟨[], {}⟩ unread
  have forwarded : ending.1 = .error ⟨.system "boom", []⟩ ∧ ending.2.events =
      [.commandStarted "bru" ["run"], .outputLine "a" "bru", .errorLine "TypeError" "bru"] :=
    ⟨rfl, rfl⟩
  refine ⟨unread, forwarded.1, ?_, forwarded.2⟩
  rw [launched]
  rfl

end Runner

end CollectionRun
