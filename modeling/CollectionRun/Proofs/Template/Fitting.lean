import CollectionRun.Proofs.Template.Comments
import CollectionRun.Proofs.Template.Locating

/-! A comment is looked at from both ends, so one text is taken for a comment that is none: the
closing mark of `/*/` begins in the opening one. It is the only one (`terminated_iff`). -/

namespace CollectionRun.Template

def sharedStar : List Char := ['/', '*', '/']

inductive Fits : List Char → Prop
  | comment (comment : List Char) : Fits (written comment)
  | sharedStar : Fits sharedStar
  | pipeline {content : List Char} {p : Pipeline} (reads : Pipeline.read content = .ok p) :
    Fits content

theorem written_ne_sharedStar (comment : List Char) : written comment ≠ sharedStar := by
  intro same
  have := congrArg List.length same
  simp [written, sharedStar] at this

theorem eq_of_opensComment {content : List Char} (opens : Body.opensComment content = true) :
    ∃ later, content = '/' :: '*' :: later := by
  obtain ⟨later, rfl⟩ := List.isPrefixOf_iff_prefix.mp opens
  exact ⟨later, rfl⟩

/-- Behind the opening mark stands the closing mark as a whole, or all that there is is its
slash. -/
theorem closesComment_iff (later : List Char) :
    Body.closesComment ('/' :: '*' :: later) = true ↔
      (∃ comment, '/' :: '*' :: later = written comment) ∨ '/' :: '*' :: later = sharedStar := by
  rw [Body.closesComment, List.isSuffixOf_iff_suffix]
  constructor
  · rintro ⟨front, whole⟩
    -- The closing mark begins at the first character, at the second, or behind the opening mark.
    cases front with
    | nil => cases whole
    | cons a front =>
      obtain ⟨-, rest⟩ := List.cons.inj whole
      cases front with
      | nil => exact .inr (congrArg _ rest.symm)
      | cons b comment =>
        obtain ⟨-, rest⟩ := List.cons.inj rest
        exact .inl ⟨comment, congrArg (fun later => '/' :: '*' :: later) rest.symm⟩
  · rintro (⟨comment, same⟩ | same)
    · rw [same]
      exact ⟨'/' :: '*' :: comment, rfl⟩
    · rw [same]
      exact ⟨['/'], rfl⟩

theorem read_slash (cs : List Char) : Pipeline.read ('/' :: cs) = .error (.unexpected '/') := by
  rw [Pipeline.read, if_neg (by simp), lexemes_cons, if_neg (by decide)]
  rfl

/-- Of all that fits and opens as a comment, only the marks that share a star are none. -/
theorem written_iff {content : List Char} (fits : Fits content)
    (opens : Body.opensComment content = true) :
    (∃ comment, content = written comment) ↔ content ≠ sharedStar := by
  cases fits with
  | comment comment => exact iff_of_true ⟨comment, rfl⟩ (written_ne_sharedStar comment)
  | sharedStar =>
    refine iff_of_false ?_ (fun other => other rfl)
    rintro ⟨comment, same⟩
    exact written_ne_sharedStar comment same.symm
  | pipeline reads =>
    obtain ⟨later, rfl⟩ := eq_of_opensComment opens
    rw [read_slash] at reads
    cases reads

theorem exists_pipeline?_of_opens {b : Body} (opens : Body.opensComment b.content = true) :
    (∃ p?, b.pipeline? = .ok p?) ↔ Body.closesComment b.content = true := by
  rw [Body.pipeline?, if_pos opens]
  split
  · next closes => exact iff_of_true ⟨none, rfl⟩ closes
  · next runs =>
    refine iff_of_false ?_ runs
    rintro ⟨p?, ends⟩
    cases ends

theorem exists_pipeline?_of_not_opens {b : Body} (other : Body.opensComment b.content = false) :
    (∃ p?, b.pipeline? = .ok p?) ↔ ∃ p, Pipeline.read b.content = .ok p := by
  rw [Body.pipeline?, other, if_neg Bool.false_ne_true]
  constructor
  · rintro ⟨p?, ends⟩
    obtain ⟨p, reads, -⟩ := map_eq_ok_iff.mp ends
    exact ⟨p, reads⟩
  · rintro ⟨p, reads⟩
    exact ⟨some p, map_eq_ok_iff.mpr ⟨p, reads, rfl⟩⟩

theorem exists_pipeline?_iff (b : Body) : (∃ p?, b.pipeline? = .ok p?) ↔ Fits b.content := by
  cases opens : Body.opensComment b.content with
  | true =>
    obtain ⟨later, shape⟩ := eq_of_opensComment opens
    rw [exists_pipeline?_of_opens opens, shape, closesComment_iff, ← shape]
    constructor
    · rintro (⟨comment, same⟩ | same)
      · exact same ▸ .comment comment
      · exact same ▸ .sharedStar
    · intro fits
      rw [written_iff fits opens]
      exact (eq_or_ne b.content sharedStar).symm
  | false =>
    rw [exists_pipeline?_of_not_opens opens]
    constructor
    · rintro ⟨p, reads⟩
      exact .pipeline reads
    · intro fits
      generalize b.content = content at fits opens
      cases fits with
      | comment | sharedStar => cases opens
      | @pipeline _ p reads => exact ⟨p, reads⟩

theorem fault?_body_eq_none_iff {name : String} {cs : List Char} {line : Nat} :
    (Segment.body cs line).fault? name = none ↔ Fits (Body.ofChars cs).content := by
  rw [← exists_pipeline?_iff, Segment.fault?]
  cases (Body.ofChars cs).pipeline? with
  | ok p? => exact iff_of_true rfl ⟨p?, rfl⟩
  | error problem =>
    refine iff_of_false (fun none => by cases none) ?_
    rintro ⟨p?, ends⟩
    cases ends

theorem forall_fault?_iff {name : String} {segs : List Segment} :
    (∀ seg ∈ segs, seg.fault? name = none) ↔
      (∀ line, .unclosed line ∉ segs) ∧ ∀ b ∈ bodies segs, Fits b.content := by
  induction segs with
  | nil => exact iff_of_true nofun ⟨nofun, nofun⟩
  | cons seg segs ih =>
    rw [List.forall_mem_cons, ih]
    cases seg with
    | text cs => simp [Segment.fault?, bodies]
    | body cs line =>
      rw [fault?_body_eq_none_iff]
      simp [bodies, and_left_comm]
    | unclosed line =>
      refine iff_of_false (fun fits => by cases fits.1) fun fits => ?_
      exact fits.1 line List.mem_cons_self

def Terminated (source : String) : Prop :=
  ∀ b ∈ bodies (segments source), Body.opensComment b.content = true →
    ∃ comment, b.content = written comment

theorem exists_read_iff (source name : String) : (∃ t, Template.read source name = .ok t) ↔
    (∀ line, .unclosed line ∉ segments source) ∧
      ∀ b ∈ bodies (segments source), Fits b.content := by
  constructor
  · rintro ⟨t, reads⟩
    obtain ⟨nodes, cut, -⟩ := map_eq_ok_iff.mp reads
    exact forall_fault?_iff.mp (exists_nodesOf_iff.mp ⟨nodes, cut⟩)
  · intro fits
    obtain ⟨nodes, cut⟩ := exists_nodesOf_iff.mpr (forall_fault?_iff.mpr fits)
    exact ⟨⟨name, nodes⟩, map_eq_ok_iff.mpr ⟨nodes, cut, rfl⟩⟩

/-- A source is read exactly if its actions are closed and what they hold fits, and of all that
fits and opens as a comment only the marks that share a star are none. -/
theorem terminated_iff (source name : String) :
    ((∃ t, Template.read source name = .ok t) ↔
      (∀ line, .unclosed line ∉ segments source) ∧
        ∀ b ∈ bodies (segments source), Fits b.content) ∧
    ((∃ t, Template.read source name = .ok t) →
      (Terminated source ↔ ∀ b ∈ bodies (segments source), b.content ≠ sharedStar)) := by
  refine ⟨exists_read_iff source name, fun reads => ?_⟩
  have fits := ((exists_read_iff source name).mp reads).2
  constructor
  · intro terminated b mem same
    have opens : Body.opensComment b.content = true := by
      rw [same]
      rfl
    exact (written_iff (fits b mem) opens).mp (terminated b mem opens) same
  · intro other b mem opens
    exact (written_iff (fits b mem) opens).mpr (other b mem)

theorem terminated_iff_of_written :
    let source := "a\x7b\x7b- /* x */ -\x7d\x7d b\x7b\x7b/**/\x7d\x7d"
    (∃ t, Template.read source "t" = .ok t) ∧ Terminated source ∧
      ∀ b ∈ bodies (segments source), b.content ≠ sharedStar := by
  intro source
  have cut : segments source = [.text ['a'], .body "- /* x */ -".toList 1, .text [' ', 'b'],
      .body "/**/".toList 1, .text []] := by
    decide +kernel
  have reads : Template.read source "t" = .ok ⟨"t", [.text "a", .text "b"]⟩ := by
    rw [Template.read, cut]
    with_unfolding_all rfl
  have apart : ∀ b ∈ bodies (segments source), b.content ≠ sharedStar := by
    rw [cut]
    decide +kernel
  exact ⟨⟨_, reads⟩, ((terminated_iff source "t").2 ⟨_, reads⟩).mpr apart, apart⟩

theorem not_terminated_of_shared_star :
    Template.read "\x7b\x7b/*/\x7d\x7d" = .ok ⟨standardName, []⟩ ∧
      ¬ Terminated "\x7b\x7b/*/\x7d\x7d" := by
  have cut : segments "\x7b\x7b/*/\x7d\x7d" = [.text [], .body sharedStar 1, .text []] := by
    decide +kernel
  constructor
  · rw [Template.read, cut]
    with_unfolding_all rfl
  · intro terminated
    have inside : Body.ofChars sharedStar ∈ bodies (segments "\x7b\x7b/*/\x7d\x7d") := by
      rw [cut]
      exact List.mem_singleton.mpr rfl
    obtain ⟨comment, whole⟩ := terminated _ inside (by decide +kernel)
    have content : (Body.ofChars sharedStar).content = sharedStar := by decide +kernel
    exact written_ne_sharedStar comment (whole.symm.trans content)

end CollectionRun.Template
