import CollectionRun.Proofs.Text.DecodedLines

namespace CollectionRun

open Text Forwarded

def carriageReturn : UInt8 := 13

/-- A line as a program prints it: no line feed in it and no carriage return at its end, but any
number of them after it. -/
structure PrintedLine where
  text : String
  returns : Nat
  whole : '\n' ∉ text.toList
  bare : text.toList.getLast? ≠ some '\r'

/-- Printed lines, each ended by a line feed; a last line may be left without one unless it is
empty. -/
structure Printout where
  ended : List PrintedLine
  last : Option PrintedLine
  nonempty : ∀ line ∈ last, line.text ≠ ""

def PrintedLine.octets (line : PrintedLine) : List UInt8 :=
  Utf8.octetsOf line.text ++ List.replicate line.returns carriageReturn

namespace Printout

def octets (p : Printout) : List UInt8 :=
  (p.ended.map PrintedLine.octets).flatMap (· ++ [lineFeed]) ++ p.last.elim [] PrintedLine.octets

def texts (p : Printout) : List String :=
  (p.ended ++ p.last.toList).map PrintedLine.text

end Printout

namespace Text

theorem Utf8.encode_returns (n : Nat) :
    encode (List.replicate n '\r') = List.replicate n carriageReturn := by
  induction n with
  | zero => rfl
  | succ n ih =>
    rw [List.replicate_succ, List.replicate_succ, encode, List.flatMap_cons, ← encode, ih]
    rfl

theorem splitOn_ended {bodies : List (List UInt8)} {last : List UInt8}
    (whole : ∀ body ∈ bodies, lineFeed ∉ body) (open_ : lineFeed ∉ last) :
    (bodies.flatMap (· ++ [lineFeed]) ++ last).splitOn lineFeed = bodies ++ [last] := by
  induction bodies with
  | nil => exact List.splitOn_eq_singleton open_
  | cons body bodies ih =>
    obtain ⟨first, later⟩ := List.forall_mem_cons.mp whole
    rw [List.flatMap_cons, List.append_assoc, List.append_assoc, List.singleton_append,
      List.splitOn_append_cons_self_of_not_mem first, ih later, List.cons_append]

theorem pieces_ended {bodies : List (List UInt8)} {last : List UInt8}
    (whole : ∀ body ∈ bodies, lineFeed ∉ body) (open_ : lineFeed ∉ last) :
    pieces (bodies.flatMap (· ++ [lineFeed]) ++ last) =
      bodies ++ if last = [] then [] else [last] := by
  simp only [pieces, splitOn_ended whole open_, List.getLast?_concat, List.dropLast_concat,
    Option.some.injEq]
  split
  · rw [List.append_nil]
  · rfl

end Text

namespace PrintedLine

variable (line : PrintedLine)

theorem octets_eq_encode :
    line.octets = Utf8.encode (line.text.toList ++ List.replicate line.returns '\r') := by
  rw [octets, ← Utf8.encode_returns]
  exact List.flatMap_append.symm

theorem lineFeed_notMem_octets : lineFeed ∉ line.octets := by
  rw [octets_eq_encode]
  refine Utf8.lineFeed_notMem_encode fun member => ?_
  obtain within | final := List.mem_append.mp member
  · exact line.whole within
  · exact absurd (List.eq_of_mem_replicate final) (by decide)

theorem lineText_octets : lineText line.octets = line.text := by
  refine Trimmed.lineText_eq ⟨line.bare, line.returns, ?_⟩
  rw [octets_eq_encode, Utf8.decodeLossy_encode]

theorem octets_ne_nil (nonempty : line.text ≠ "") : line.octets ≠ [] := by
  intro none
  have text := line.lineText_octets
  rw [none] at text
  exact nonempty text.symm

end PrintedLine

namespace Printout

theorem pieces_octets (p : Printout) :
    pieces p.octets = (p.ended ++ p.last.toList).map PrintedLine.octets := by
  have whole : ∀ body ∈ p.ended.map PrintedLine.octets, lineFeed ∉ body := by
    intro body member
    obtain ⟨line, -, rfl⟩ := List.mem_map.mp member
    exact line.lineFeed_notMem_octets
  rw [octets, List.map_append]
  cases last : p.last with
  | none => exact pieces_ended whole List.not_mem_nil
  | some line =>
    have printed := line.octets_ne_nil (p.nonempty line last)
    rw [Option.elim_some, pieces_ended whole line.lineFeed_notMem_octets, if_neg printed]
    rfl

theorem map_lineText_pieces (p : Printout) : (pieces p.octets).map lineText = p.texts := by
  rw [pieces_octets, List.map_map, texts]
  exact List.map_congr_left fun line _ => line.lineText_octets

end Printout

/-- What a program prints to its two streams, in whatever chunks it is read, is forwarded line for
line: the texts of the lines are what the category is decided by and what the events of the launch
say, in order and with nothing between them. -/
theorem Runner.run_of_printouts (r : Runner) (executable : String) (arguments : List String)
    (exitCode : Int) (j : Journal World) {out err : Printout} {outs errs : List (List UInt8)}
    (sameOut : outs.flatten = out.octets) (sameErr : errs.flatten = err.octets) :
    let played := (r.run executable arguments).play
      (j.expecting (.plays (chunks outs) (chunks errs) exitCode))
    let category := r.patterns.categorize (out.texts ++ err.texts)
    ofStream (chunks outs) = ⟨out.texts, none⟩ ∧ ofStream (chunks errs) = ⟨err.texts, none⟩ ∧
      played.1 = (if exitCode = 0 then .ok ()
        else .error ⟨.command executable arguments (some exitCode) category, []⟩) ∧
      played.2.events = j.events ++ (.commandStarted executable arguments ::
        out.texts.map (.outputLine · executable) ++ err.texts.map (.errorLine · executable) ++
        if exitCode = 0 then [] else [.commandFailed executable category]) ∧
      played.2.events.map Event.message = j.events.map Event.message ++
        ((Event.commandStarted executable arguments).message :: out.texts ++ err.texts ++
        if exitCode = 0 then [] else [(Event.commandFailed executable category).message]) := by
  intro played category
  have outTexts : (pieces outs.flatten).map lineText = out.texts := by
    rw [sameOut, out.map_lineText_pieces]
  have errTexts : (pieces errs.flatten).map lineText = err.texts := by
    rw [sameErr, err.map_lineText_pieces]
  have performed : played = _ := play_run _ _ _ _
  simp only [Journal.expecting, World.nextScript, perform_chunks, outTexts, errTexts] at performed
  have events : played.2.events = j.events ++ (.commandStarted executable arguments ::
      out.texts.map (.outputLine · executable) ++ err.texts.map (.errorLine · executable) ++
      if exitCode = 0 then [] else [.commandFailed executable category]) := by
    rw [performed]
  refine ⟨?_, ?_, ?_, events, ?_⟩
  · rw [ofStream_chunks, outTexts]
  · rw [ofStream_chunks, errTexts]
  · rw [performed]
    by_cases zero : exitCode = 0
    · simp only [zero, if_true]
    · simp only [zero, if_false]
      rfl
  · have outSaid : Event.message ∘ (Event.outputLine · executable) = id := rfl
    have errSaid : Event.message ∘ (Event.errorLine · executable) = id := rfl
    rw [events]
    simp only [List.map_append, List.map_cons, List.map_map, outSaid, errSaid, List.map_id,
      apply_ite (List.map Event.message), List.map_nil]

theorem Runner.run_of_printouts_of_cut_character :
    let out : Printout :=
      { ended := [⟨"é", 2, by decide, by decide⟩, ⟨"", 0, by decide, by decide⟩,
          ⟨"a\rb", 1, by decide, by decide⟩],
        last := some ⟨"end", 0, by decide, by decide⟩,
        nonempty := by simp }
    let err : Printout := ⟨[⟨"1 test failed", 0, by decide, by decide⟩], none, by simp⟩
    let outs : List (List UInt8) := [[0xC3], [0xA9, 0x0D], [0x0D, 0x0A, 0x0A, 0x61, 0x0D],
      [0x62, 0x0D, 0x0A, 0x65, 0x6E, 0x64]]
    let errs := [err.octets]
    outs.flatten = out.octets ∧ errs.flatten = err.octets ∧
      ofStream (chunks outs) = ⟨["é", "", "a\rb", "end"], none⟩ ∧
      ((Runner.run {} "bru" ["run"]).play
        (Journal.expecting ⟨[], {}⟩ (.plays (chunks outs) (chunks errs) 1))).1 =
          .error ⟨.command "bru" ["run"] (some 1) .test, []⟩ := by
  intro out err outs errs
  have sameOut : outs.flatten = out.octets := by decide
  have sameErr : errs.flatten = err.octets := by decide
  obtain ⟨forwarded, -, outcome, -⟩ :=
    run_of_printouts {} "bru" ["run"] 1 ⟨[], {}⟩ sameOut sameErr
  have category : ({} : Runner).patterns.categorize (out.texts ++ err.texts) = .test := by
    decide
  refine ⟨sameOut, sameErr, forwarded, outcome.trans ?_⟩
  rw [category]
  rfl

end CollectionRun
