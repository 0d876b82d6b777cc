import CollectionRun.EnvFile.Statement

/-! Every statement of an environment file takes at least one character, whether it fits or not,
so that a file has finitely many. -/

namespace CollectionRun.EnvFile

open Text

theorem length_afterLineEnd_le (cs : List Char) : (afterLineEnd cs).length ≤ cs.length := by
  unfold afterLineEnd
  split <;> simp only [List.length_cons, List.length_nil] <;> omega

theorem length_afterLineEnd_lt {cs : List Char} (h : cs ≠ []) :
    (afterLineEnd cs).length < cs.length := by
  unfold afterLineEnd
  split
  · simp only [List.length_cons]; omega
  · simp only [List.length_cons]; omega
  · exact absurd rfl h

theorem length_dropLine_lt {cs : List Char} (h : cs ≠ []) : (dropLine cs).length < cs.length := by
  unfold dropLine
  have hd := length_dropWhile_le (!endsLine ·) cs
  by_cases he : cs.dropWhile (!endsLine ·) = []
  · rw [he]
    exact List.length_pos_iff.2 h
  · exact Nat.lt_of_lt_of_le (length_afterLineEnd_lt he) hd

theorem length_dropBlanks_le (cs : List Char) : (dropBlanks cs).length ≤ cs.length :=
  length_dropWhile_le _ _

theorem length_skipExport_le (cs : List Char) : (skipExport cs).length ≤ cs.length := by
  unfold skipExport
  split
  · split
    · have := length_dropBlanks_le (by assumption : List Char)
      simp; omega
    · exact Nat.le_refl _
  · exact Nat.le_refl _

theorem length_skipComment_le (cs : List Char) : (skipComment cs).length ≤ cs.length := by
  unfold skipComment
  split
  · next rest h =>
    have h₁ := length_dropBlanks_le cs
    have h₂ := length_dropWhile_le (!endsLine ·) rest
    rw [h] at h₁
    simp at h₁
    omega
  · exact Nat.le_refl _

theorem length_finish_le {content found : Content} {cs rest : List Char}
    (h : finish content cs = .ok (found, rest)) : rest.length ≤ (skipComment cs).length := by
  have hd := length_dropBlanks_le (skipComment cs)
  unfold finish at h
  dsimp only at h
  split at h
  · cases h
    exact Nat.zero_le _
  · split at h
    · cases h
      exact Nat.le_trans (length_afterLineEnd_le _) hd
    · cases h

theorem finish_error {content : Content} {cs rest : List Char}
    (h : finish content cs = .error rest) : rest = cs := by
  unfold finish at h
  dsimp only at h
  split at h
  · cases h
  · split at h
    · cases h
    · cases h; rfl

theorem length_upToMark_lt (mark : Char) (cs : List Char) {text after : List Char}
    (h : upToMark mark cs = some (text, after)) : after.length < cs.length := by
  fun_induction upToMark mark cs generalizing text after with
  | case1 => cases h
  | case2 c rest ih =>
    obtain ⟨⟨t, a⟩, hr, he⟩ := Option.map_eq_some_iff.1 h
    cases he
    have := ih hr
    simp only [List.length_cons]
    omega
  | case3 => cases h; simp
  | case4 =>
    rename_i ih
    obtain ⟨⟨t, a⟩, hr, he⟩ := Option.map_eq_some_iff.1 h
    cases he
    have := ih hr
    simp only [List.length_cons]
    omega

theorem length_readValue_le {spaced : Bool} {cs value rest : List Char}
    (h : readValue spaced cs = .ok (value, rest)) : rest.length ≤ cs.length := by
  unfold readValue at h
  split at h
  · split at h
    · next hu => cases h; have := length_upToMark_lt _ _ hu; simp; omega
    · cases h
  · split at h
    · next hu => cases h; have := length_upToMark_lt _ _ hu; simp; omega
    · cases h
  · split at h
    · cases h; exact Nat.le_refl _
    · cases h; exact length_dropWhile_le _ _

theorem readValue_error {spaced : Bool} {cs rest : List Char}
    (h : readValue spaced cs = .error rest) : rest = cs := by
  unfold readValue at h
  split at h
  · split at h <;> cases h; rfl
  · split at h <;> cases h; rfl
  · split at h <;> cases h

theorem length_readName_lt {cs name rest : List Char}
    (h : readName cs = .ok (some name, rest)) : rest.length < cs.length := by
  unfold readName at h
  split at h
  · cases h
  · next cs' =>
    dsimp only at h
    split at h
    · next hd =>
      split at h
      · cases h
      · cases h
        have := length_dropWhile_le (· != '\'') cs'
        rw [hd] at this
        simp at this ⊢; omega
    · cases h
  · dsimp only at h
    split at h
    · cases h
    · next hn =>
      cases h
      have hl := congrArg List.length (List.takeWhile_append_dropWhile (p := isNameChar) (l := cs))
      rw [List.length_append] at hl
      have : 0 < (cs.takeWhile isNameChar).length :=
        List.length_pos_iff.2 (by simpa using hn)
      omega

theorem readName_none {cs rest : List Char} (h : readName cs = .ok (none, rest)) :
    rest = cs ∧ ∃ more, cs = '#' :: more := by
  unfold readName at h
  split at h
  · next more => cases h; exact ⟨rfl, more, rfl⟩
  · dsimp only at h
    split at h
    · split at h <;> cases h
    · cases h
  · dsimp only at h
    split at h <;> cases h

theorem readName_error {cs rest : List Char} (h : readName cs = .error rest) : rest = cs := by
  unfold readName at h
  split at h
  · cases h
  · dsimp only at h
    split at h
    · split at h <;> cases h; rfl
    · cases h; rfl
  · dsimp only at h
    split at h <;> cases h; rfl

theorem length_readContent_lt {cs rest : List Char} {content : Content}
    (h : readContent cs = .ok (content, rest)) : rest.length < cs.length := by
  have he := length_skipExport_le cs
  unfold readContent at h
  cases hn : readName (skipExport cs) with
  | error r => rw [hn] at h; cases h
  | ok found =>
    obtain ⟨name?, r⟩ := found
    rw [hn] at h
    simp only [bind, Except.bind] at h
    cases name? with
    | none =>
      obtain ⟨rfl, more, hm⟩ := readName_none hn
      have hf := length_finish_le h
      have hb : dropBlanks ('#' :: more) = '#' :: more := by
        rw [dropBlanks, List.dropWhile_cons]
        rfl
      have hc : skipComment ('#' :: more) = more.dropWhile (!endsLine ·) := by
        simp only [skipComment, hb]
      rw [hm, hb, hc] at hf
      have hd := length_dropWhile_le (!endsLine ·) more
      rw [hm] at he
      simp at he
      omega
    | some name =>
      have hlt := length_readName_lt hn
      have hr := length_dropBlanks_le r
      split at h
      · next value? heq =>
        rename_i name' rest'
        have hb : rest'.length < (skipExport cs).length := by
          have := congrArg List.length heq
          simp at this
          omega
        have hs := length_dropBlanks_le rest'
        split at h
        · cases h
        · next found hv =>
          have hv' := length_readValue_le hv
          have hf := length_finish_le h
          have hk := length_skipComment_le found.2
          omega
      · have hf := length_finish_le h
        have hk := length_skipComment_le (dropBlanks r)
        omega
      · next heq => cases heq

theorem length_readContent_error_le {cs rest : List Char}
    (h : readContent cs = .error rest) : rest.length ≤ cs.length := by
  have he := length_skipExport_le cs
  unfold readContent at h
  cases hn : readName (skipExport cs) with
  | error r =>
    rw [hn] at h
    cases h
    rw [readName_error hn]
    exact he
  | ok found =>
    obtain ⟨name?, r⟩ := found
    rw [hn] at h
    simp only [bind, Except.bind] at h
    have hb : (dropBlanks r).length ≤ cs.length := by
      have := length_dropBlanks_le r
      cases name? with
      | none => rw [(readName_none hn).1] at this ⊢; omega
      | some name => have := length_readName_lt hn; omega
    split at h
    · next heq =>
      rename_i rest'
      have hr := congrArg List.length heq
      have hs := length_dropBlanks_le rest'
      simp at hr
      split at h
      · next hv => cases h; rw [readValue_error hv]; omega
      · next found hv =>
        have hv' := length_readValue_le hv
        rw [finish_error h]
        omega
    · rw [finish_error h]
      exact hb
    · rw [finish_error h]
      exact hb

theorem length_readStatement_lt {cs : List Char} (h : cs ≠ []) :
    (readStatement cs).2.length < cs.length := by
  have hb := length_dropWhile_le isBlank cs
  unfold readStatement
  dsimp only
  split
  · exact List.length_pos_iff.2 h
  · next hs =>
    split
    · next found hr =>
      exact Nat.lt_of_lt_of_le
        (length_readContent_lt hr) hb
    · next rest hr =>
      have hl := length_readContent_error_le hr
      by_cases he : rest = []
      · subst he
        exact List.length_pos_iff.2 h
      · have := length_dropLine_lt he
        dsimp only
        omega

end CollectionRun.EnvFile
