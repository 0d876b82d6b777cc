import CollectionRun.Proofs.Acts
import Mathlib.Data.List.Forall2

/-! A stream is read in chunks, and what is forwarded of it are the pieces between its line feeds
(`pieces`), wherever the chunks end. -/

namespace CollectionRun

namespace Text

/-- The pieces of octets between their line feeds; a last piece without octets does not count. -/
def pieces (octets : List UInt8) : List (List UInt8) :=
  let all := octets.splitOn lineFeed
  if all.getLast? = some [] then all.dropLast else all

theorem cut_append (a b : List UInt8) :
    cut (a ++ b) =
      ⟨(cut a).lines ++ (cut ((cut a).rest ++ b)).lines, (cut ((cut a).rest ++ b)).rest⟩ := by
  induction a with
  | nil => rfl
  | cons x a ih =>
    rw [List.cons_append, cut_cons, cut_cons, ih]
    by_cases hx : x = lineFeed
    · simp only [Cut.prepend, if_pos hx, List.cons_append]
    · cases ha : (cut a).lines with
      | nil => simp only [Cut.prepend, if_neg hx, ha, List.nil_append, List.cons_append, cut_cons]
      | cons line later => simp only [Cut.prepend, if_neg hx, ha, List.cons_append]

theorem cut_of_notMem {octets : List UInt8} (h : lineFeed ∉ octets) :
    cut octets = ⟨[], octets⟩ := by
  induction octets with
  | nil => rfl
  | cons x octets ih =>
    rw [List.mem_cons, not_or] at h
    rw [cut_cons, ih h.2, Cut.prepend, if_neg (Ne.symm h.1)]

theorem lines_append_rest (octets : List UInt8) :
    (cut octets).lines ++ [(cut octets).rest] = octets.splitOn lineFeed := by
  induction octets with
  | nil => rfl
  | cons x octets ih =>
    rw [cut_cons, List.splitOn_cons_eq_if_modifyHead, ← ih, Cut.prepend]
    by_cases hx : x = lineFeed
    · rw [if_pos hx, if_pos (beq_iff_eq.2 hx), List.cons_append]
    · rw [if_neg hx, if_neg (by simpa using hx)]
      cases (cut octets).lines <;> rfl

/-- What a reader that has come to the end of the octets has forwarded. -/
theorem lines_append_flush (octets : List UInt8) :
    (cut octets).lines ++ LineBuffer.flush ⟨(cut octets).rest⟩ = pieces octets := by
  simp only [pieces, LineBuffer.flush, ← lines_append_rest, List.getLast?_concat,
    List.dropLast_concat]
  cases (cut octets).rest <;> simp

end Text

namespace Forwarded

open Text

def IsLineText (octets : List UInt8) (text : String) : Prop :=
  text.toList.getLast? ≠ some '\r' ∧
    ∃ returns, Utf8.decodeLossy octets = text.toList ++ List.replicate returns '\r'

theorem isLineText_lineText (octets : List UInt8) : IsLineText octets (lineText octets) := by
  unfold IsLineText lineText
  rw [String.toList_ofList]
  generalize Utf8.decodeLossy octets = cs
  constructor
  · rw [List.getLast?_reverse]
    intro h
    have := List.head?_dropWhile_not (· == '\r') cs.reverse
    rw [h] at this
    simp at this
  · have returns : ∀ c ∈ cs.reverse.takeWhile (· == '\r'), c = '\r' := fun c hc =>
      beq_iff_eq.1 (List.all_eq_true.1 List.all_takeWhile c hc)
    refine ⟨(cs.reverse.takeWhile (· == '\r')).length, ?_⟩
    rw [← List.reverse_replicate, ← List.eq_replicate_of_mem returns, ← List.reverse_append,
      List.takeWhile_append_dropWhile, List.reverse_reverse]

def chunks (parts : List (List UInt8)) : List Chunk := parts.map .octets

/-- The buffer holds no line feed, so what it holds and what follows are cut as one. -/
theorem ofChunks_chunks (parts : List (List UInt8)) (rest : List Chunk) (buffer : LineBuffer)
    (open_ : lineFeed ∉ buffer.pending) :
    ofChunks buffer (chunks parts ++ rest) =
      let c := cut (buffer.pending ++ parts.flatten)
      ⟨c.lines.map lineText ++ (ofChunks ⟨c.rest⟩ rest).lines, (ofChunks ⟨c.rest⟩ rest).fault⟩ := by
  induction parts generalizing buffer with
  | nil =>
    simp [chunks, cut_of_notMem open_]
  | cons part parts ih =>
    have step : ofChunks buffer (chunks (part :: parts) ++ rest) =
        let later := ofChunks (buffer.push part).2 (chunks parts ++ rest)
        ⟨(buffer.push part).1.map lineText ++ later.lines, later.fault⟩ := rfl
    have both := cut_append (buffer.pending ++ part) parts.flatten
    rw [step, ih _ (lineFeed_notMem_rest _), List.flatten_cons, ← List.append_assoc, both]
    simp only [LineBuffer.push, List.map_append, List.append_assoc]

/-- A stream is forwarded as the pieces between its line feeds, wherever its chunks end. -/
theorem ofStream_chunks (parts : List (List UInt8)) :
    ofStream (chunks parts) = ⟨(pieces parts.flatten).map lineText, none⟩ := by
  have h := ofChunks_chunks parts [] {} (List.not_mem_nil)
  rw [List.append_nil, List.nil_append] at h
  rw [ofStream, h, ← lines_append_flush, List.map_append]
  rfl

theorem fault_ofChunks_eq_none (buffer : LineBuffer) (cs : List Chunk) :
    (ofChunks buffer cs).fault = none ↔ ∀ text, .fault text ∉ cs := by
  induction cs generalizing buffer with
  | nil => exact iff_of_true rfl fun _ => List.not_mem_nil
  | cons c rest ih =>
    cases c with
    | fault text =>
      refine iff_of_false (Option.some_ne_none text) fun never => never text List.mem_cons_self
    | octets bs =>
      have later : (ofChunks buffer (.octets bs :: rest)).fault =
          (ofChunks (buffer.push bs).2 rest).fault := rfl
      rw [later, ih]
      constructor
      · intro never text member
        rcases List.mem_cons.mp member with same | earlier
        · contradiction
        · exact never text earlier
      · intro never text member
        exact never text (List.mem_cons_of_mem _ member)

end Forwarded

namespace Runner

open Text Forwarded

theorem perform_chunks (r : Runner) (executable : String) (arguments : List String)
    (outs errs : List (List UInt8)) (exitCode : Int) :
    let out := (pieces outs.flatten).map lineText
    let err := (pieces errs.flatten).map lineText
    let category := r.patterns.categorize (out ++ err)
    r.perform executable arguments (.plays (chunks outs) (chunks errs) exitCode) =
      { events := .commandStarted executable arguments :: out.map (.outputLine · executable) ++
          err.map (.errorLine · executable) ++
          if exitCode = 0 then [] else [.commandFailed executable category]
        failure := if exitCode = 0 then none
          else some ⟨.command executable arguments (some exitCode) category, []⟩ } := by
  simp only [perform, ofStream_chunks, Option.or_none]
  by_cases zero : exitCode = 0
  · simp [zero]
  · simp [zero]

/-- Where chunks end changes neither the events of a launch nor its outcome. The lines are those
of the whole streams, and those of standard output followed by those of standard error decide the
category. -/
theorem run_of_flatten_eq (r : Runner) (executable : String) (arguments : List String)
    (exitCode : Int) (j : Journal World) {outs outs' errs errs' : List (List UInt8)}
    (sameOut : outs'.flatten = outs.flatten) (sameErr : errs'.flatten = errs.flatten) :
    let played (outs errs : List (List UInt8)) := (r.run executable arguments).play
      (j.expecting (.plays (chunks outs) (chunks errs) exitCode))
    played outs' errs' = played outs errs ∧
      ∃ out err : List String,
        List.Forall₂ IsLineText (pieces outs.flatten) out ∧
        List.Forall₂ IsLineText (pieces errs.flatten) err ∧
        (played outs errs).1 = (if exitCode = 0 then .ok ()
          else .error ⟨.command executable arguments (some exitCode)
            (r.patterns.categorize (out ++ err)), []⟩) ∧
        (played outs errs).2.events = j.events ++
          (.commandStarted executable arguments :: out.map (.outputLine · executable) ++
            err.map (.errorLine · executable) ++
            if exitCode = 0 then []
            else [.commandFailed executable (r.patterns.categorize (out ++ err))]) := by
  have texts (octets : List UInt8) :
      List.Forall₂ IsLineText (pieces octets) ((pieces octets).map lineText) :=
    List.forall₂_map_right_iff.2 (List.forall₂_same.2 fun line _ => isLineText_lineText line)
  intro played
  constructor
  · show Act.play _ _ = Act.play _ _
    rw [play_run, play_run]
    simp only [Journal.expecting, World.nextScript, perform_chunks, sameOut, sameErr]
  · refine ⟨_, _, texts outs.flatten, texts errs.flatten, ?_⟩
    simp only [played, play_run, Journal.expecting, World.nextScript, perform_chunks]
    by_cases zero : exitCode = 0
    · simp [zero]
    · simp [zero]

theorem run_of_flatten_eq_test_failed :
    let outs : List (List UInt8) := [[0xC3], [0xA9, 0x0D], [0x0A, 0x74, 0x65, 0x73, 0x74, 0x20],
      [0x66, 0x61, 0x69, 0x6C, 0x65, 0x64]]
    let played (outs : List (List UInt8)) := (({} : Runner).run "bru" ["run"]).play
      (Journal.expecting ⟨[], {}⟩ (.plays (chunks outs) (chunks []) 1))
    [outs.flatten].flatten = outs.flatten ∧ ([] : List (List UInt8)).flatten = [].flatten ∧
      played [outs.flatten] = played outs :=
  ⟨by decide, rfl, (run_of_flatten_eq {} "bru" ["run"] 1 ⟨[], {}⟩ (by decide) rfl).1⟩

end Runner

end CollectionRun
