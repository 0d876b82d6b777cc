import CollectionRun.Proofs.Forwarding
import CollectionRun.Proofs.Text.Utf8

namespace CollectionRun

namespace Text.Utf8

theorem Begun.Partial.le_of_mem {s : Begun} (h : s.Partial) {b : UInt8} (member : b ∈ s.octets) :
    128 ≤ b.toNat := by
  cases h <;> simp only [List.mem_cons, List.not_mem_nil, or_false] at member
  all_goals
    rcases member with rfl | rfl | rfl
    all_goals
      rw [toNat_octet (by omega)]
      omega

theorem encode_newline : String.utf8EncodeChar '\n' = [lineFeed] := by
  decide

theorem eq_of_lineFeed_mem {c : Char} (member : lineFeed ∈ String.utf8EncodeChar c) : c = '\n' := by
  obtain ⟨n, ascii, rfl⟩ | ⟨s, h, last, a, small, rfl⟩ := char_cases c
  · rw [encode_one ascii, List.mem_singleton] at member
    have value := congrArg UInt8.toNat member
    rw [toNat_octet (by omega)] at value
    rw [← value]
    rfl
  · rw [h.encode_last last small, List.mem_append, List.mem_singleton] at member
    obtain early | final := member
    · exact absurd (h.le_of_mem early) (by decide)
    · have value := congrArg UInt8.toNat final
      rw [toNat_octet (by omega)] at value
      exact absurd value.symm (Nat.ne_of_gt (Nat.lt_of_lt_of_le (by decide) (Nat.le_add_left 128 a)))

theorem lineFeed_notMem_encode {cs : List Char} (h : '\n' ∉ cs) : lineFeed ∉ encode cs := by
  intro member
  obtain ⟨c, among, within⟩ := List.mem_flatMap.mp member
  exact h (eq_of_lineFeed_mem within ▸ among)

theorem prefix_of_lineFeed_notMem {part front after : List UInt8}
    (begins : part <+: front ++ lineFeed :: after) (none : lineFeed ∉ part) : part <+: front := by
  obtain ⟨left, split⟩ := begins
  obtain ⟨more, rfl, -⟩ | ⟨beyond, rfl, rest⟩ := List.append_eq_append_iff.mp split
  · exact List.prefix_append _ _
  · cases beyond with
    | nil => simp
    | cons b beyond =>
      obtain ⟨rfl, -⟩ := List.cons.inj rest
      exact absurd (List.mem_append_right front List.mem_cons_self) none

/-- What is ill-formed before a line feed is so whatever follows the line feed. -/
theorem MaximalPart.append_lineFeed {part rest : List UInt8} (h : MaximalPart part rest)
    (after : List UInt8) : MaximalPart part (rest ++ lineFeed :: after) where
  nonempty := h.nonempty
  begins := h.begins
  unconvertible := by
    intro c begins
    rw [← List.append_assoc] at begins
    refine h.unconvertible c ?_
    -- A character with a line feed among its octets is the line feed, and the part is before it.
    by_cases member : lineFeed ∈ String.utf8EncodeChar c
    · obtain ⟨b, part, rfl⟩ := List.exists_cons_of_ne_nil h.nonempty
      obtain rfl := eq_of_lineFeed_mem member
      rw [encode_newline] at begins ⊢
      obtain ⟨rfl, -⟩ := List.cons_prefix_cons.mp begins
      exact List.cons_prefix_cons.mpr ⟨rfl, List.nil_prefix⟩
    · exact prefix_of_lineFeed_notMem begins member
  longest := by
    intro more c front begins
    by_cases member : lineFeed ∈ more
    · have newline := eq_of_lineFeed_mem (begins.subset (List.mem_append_right part member))
      rw [newline, encode_newline] at begins
      have size := begins.length_le
      have some := List.length_pos_iff.mpr h.nonempty
      rw [List.length_append, List.length_singleton] at size
      exact List.length_eq_zero_iff.mp (by omega)
    · exact h.longest more c (prefix_of_lineFeed_notMem front member) begins

theorem Decodes.append_lineFeed {before after : List UInt8} {text text' : List Char}
    (h : Decodes before text) (h' : Decodes after text') :
    Decodes (before ++ lineFeed :: after) (text ++ '\n' :: text') := by
  induction h with
  | nil => exact .char '\n' h'
  | char c _ ih =>
    rw [List.append_assoc]
    exact .char c ih
  | replaced part _ ih =>
    rw [List.append_assoc]
    exact .replaced (part.append_lineFeed after) ih

theorem Decodes.lineFeed_mem {octets : List UInt8} {text : List Char} (h : Decodes octets text)
    (member : '\n' ∈ text) : lineFeed ∈ octets := by
  induction h with
  | nil => exact absurd member List.not_mem_nil
  | char c _ ih =>
    obtain rfl | later := List.mem_cons.mp member
    · exact List.mem_append_left _ (encode_newline ▸ List.mem_singleton_self _)
    · exact List.mem_append_right _ (ih later)
  | replaced _ _ ih =>
    obtain same | later := List.mem_cons.mp member
    · exact absurd same (by decide)
    · exact List.mem_append_right _ (ih later)

theorem decodeLossy_append_lineFeed (before after : List UInt8) :
    decodeLossy (before ++ lineFeed :: after) =
      decodeLossy before ++ '\n' :: decodeLossy after :=
  (decodes_iff.mp
    ((decodes_decodeLossy before).append_lineFeed (decodes_decodeLossy after))).symm

theorem decodeLossy_eq_nil_iff {octets : List UInt8} : decodeLossy octets = [] ↔ octets = [] := by
  constructor
  · intro none
    have decodes := decodes_decodeLossy octets
    rw [none] at decodes
    cases decodes
    rfl
  · rintro rfl
    rfl

theorem map_decodeLossy_splitOn (octets : List UInt8) :
    (octets.splitOn lineFeed).map decodeLossy = (decodeLossy octets).splitOn '\n' := by
  induction size : octets.length using Nat.strongRecOn generalizing octets with
  | ind n ih =>
    by_cases member : lineFeed ∈ octets
    · obtain ⟨before, after, rfl⟩ := List.append_of_mem member
      rw [List.length_append, List.length_cons] at size
      have first := ih before.length (by omega) before rfl
      have later := ih after.length (by omega) after rfl
      rw [decodeLossy_append_lineFeed, List.splitOn_append_cons_self,
        List.splitOn_append_cons_self, List.map_append, first, later]
    · have none : '\n' ∉ decodeLossy octets := fun newline =>
        member ((decodes_decodeLossy octets).lineFeed_mem newline)
      rw [List.splitOn_eq_singleton member, List.splitOn_eq_singleton none]
      rfl

end Text.Utf8

namespace Text

open Utf8 (decodeLossy)

/-- The lines of a text; a last line without characters does not count. -/
def textLines (text : List Char) : List (List Char) :=
  let all := text.splitOn '\n'
  if all.getLast? = some [] then all.dropLast else all

theorem map_decodeLossy_pieces (octets : List UInt8) :
    (pieces octets).map decodeLossy = textLines (decodeLossy octets) := by
  have last : ((decodeLossy octets).splitOn '\n').getLast? = some [] ↔
      (octets.splitOn lineFeed).getLast? = some [] := by
    rw [← Utf8.map_decodeLossy_splitOn, List.getLast?_map, Option.map_eq_some_iff]
    simp only [Utf8.decodeLossy_eq_nil_iff, exists_eq_right]
  simp only [pieces, textLines, last]
  split
  · rw [List.map_dropLast, Utf8.map_decodeLossy_splitOn]
  · exact Utf8.map_decodeLossy_splitOn octets

end Text

namespace Forwarded

open Text

def Trimmed (line : List Char) (text : String) : Prop :=
  text.toList.getLast? ≠ some '\r' ∧ ∃ returns, line = text.toList ++ List.replicate returns '\r'

theorem Trimmed.lineText_eq {octets : List UInt8} {text : String}
    (h : Trimmed (Utf8.decodeLossy octets) text) : lineText octets = text := by
  obtain ⟨bare, returns, line⟩ := h
  have front : text.toList.reverse.dropWhile (· == '\r') = text.toList.reverse := by
    rw [← List.head?_reverse] at bare
    cases reversed : text.toList.reverse with
    | nil => rfl
    | cons c cs =>
      rw [reversed] at bare
      have different : c ≠ '\r' := fun same => bare (congrArg some same)
      rw [List.dropWhile_cons_of_neg (by simpa using different)]
  have returnsFirst : ∀ c ∈ List.replicate returns '\r', (c == '\r') = true := fun c member =>
    beq_iff_eq.mpr (List.eq_of_mem_replicate member)
  rw [lineText, line, List.reverse_append, List.reverse_replicate,
    List.dropWhile_append_of_pos returnsFirst, front, List.reverse_reverse, String.ofList_toList]

/-- Octets decode to one text, and to the same lines whether they are cut before they are decoded
or after, so the lines that are forwarded, one by one and wherever the chunks end, are those of the
text that the whole stream decodes to. What comes before a line feed, complete or not, does not
reach over it. -/
theorem decoded_linewise (parts : List (List UInt8)) :
    let octets := parts.flatten
    (∀ text, Utf8.Decodes octets text ↔ text = Utf8.decodeLossy octets) ∧
      (octets.splitOn lineFeed).map Utf8.decodeLossy = (Utf8.decodeLossy octets).splitOn '\n' ∧
      (∀ piece ∈ octets.splitOn lineFeed, piece ≠ [] → Utf8.decodeLossy piece ≠ []) ∧
      (∀ before after, octets = before ++ lineFeed :: after →
        Utf8.decodeLossy octets = Utf8.decodeLossy before ++ '\n' :: Utf8.decodeLossy after) ∧
      ∃ texts, ofStream (chunks parts) = ⟨texts, none⟩ ∧
        List.Forall₂ Trimmed (textLines (Utf8.decodeLossy octets)) texts := by
  intro octets
  refine ⟨fun text => Utf8.decodes_iff, Utf8.map_decodeLossy_splitOn octets, ?_, ?_, ?_⟩
  · exact fun piece _ some none => some (Utf8.decodeLossy_eq_nil_iff.mp none)
  · intro before after split
    rw [split, Utf8.decodeLossy_append_lineFeed]
  · refine ⟨_, ofStream_chunks parts, ?_⟩
    rw [← map_decodeLossy_pieces, List.forall₂_map_left_iff, List.forall₂_map_right_iff,
      List.forall₂_same]
    exact fun piece _ => isLineText_lineText piece

theorem decoded_linewise_of_truncated :
    let parts : List (List UInt8) :=
      [[0x61, 0xE2, 0x82], [0x0A, 0xC3, 0xA9, 0x0D], [0x0A, 0xF0, 0x9F]]
    let octets := parts.flatten
    [0xF0, 0x9F] ∈ octets.splitOn lineFeed ∧ Utf8.decodeLossy [0xF0, 0x9F] ≠ [] ∧
      octets = [0x61, 0xE2, 0x82] ++ lineFeed :: [0xC3, 0xA9, 0x0D, 0x0A, 0xF0, 0x9F] ∧
      Utf8.decodeLossy octets = Utf8.decodeLossy [0x61, 0xE2, 0x82] ++
        '\n' :: Utf8.decodeLossy [0xC3, 0xA9, 0x0D, 0x0A, 0xF0, 0x9F] ∧
      (Utf8.decodeLossy octets).splitOn '\n' = [['a', '\uFFFD'], ['é', '\r'], ['\uFFFD']] := by
  intro parts octets
  obtain ⟨-, cuts, keeps, resets, -⟩ := decoded_linewise parts
  have last : [0xF0, 0x9F] ∈ octets.splitOn lineFeed := by decide
  refine ⟨last, keeps _ last (by decide), rfl, resets _ _ rfl, ?_⟩
  rw [← cuts]
  decide

end Forwarded

end CollectionRun
