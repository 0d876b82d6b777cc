import CollectionRun.Text.Characters

/-! An action opens at two braces and closes at the next two that stand outside its quoted
pieces. Texts and bodies alternate, the first and the last being texts; an action that is never
closed ends the list. -/

namespace CollectionRun.Template

inductive Mode where
  | plain
  | quoted
  | escaped
  | raw
  deriving DecidableEq, Repr

/-- The mode after `c`; a bare line feed in double quotes has none. -/
def Mode.next? : Mode → Char → Option Mode
  | .plain, c => some (if c = '"' then .quoted else if c = '\x60' then .raw else .plain)
  | .quoted, c =>
    if c = '\n' then none
    else some (if c = '"' then .plain else if c = '\\' then .escaped else .quoted)
  | .escaped, _ => some .quoted
  | .raw, c => some (if c = '\x60' then .plain else .raw)

def closeFrom : Mode → List Char → Option (List Char × List Char)
  | .plain, '\x7d' :: '\x7d' :: rest => some ([], rest)
  | _, [] => none
  | mode, c :: rest => do
    let (body, after) ← closeFrom (← mode.next? c) rest
    return (c :: body, after)

def close? (cs : List Char) : Option (List Char × List Char) := closeFrom .plain cs

def open? : List Char → List Char × Option (List Char)
  | [] => ([], none)
  | '\x7b' :: '\x7b' :: rest => ([], some rest)
  | c :: rest =>
    let (text, after) := open? rest
    (c :: text, after)

inductive Segment where
  | text (cs : List Char)
  | body (cs : List Char) (line : Nat)
  | unclosed (line : Nat)
  deriving DecidableEq, Repr

theorem length_of_closeFrom {mode : Mode} {cs body rest : List Char}
    (h : closeFrom mode cs = some (body, rest)) : rest.length < cs.length := by
  fun_induction closeFrom mode cs generalizing body rest with
  | case1 => cases h; simp only [List.length_cons]; omega
  | case2 => cases h
  | case3 mode c cs _ ih =>
    cases hm : mode.next? c with
    | none => simp [hm] at h
    | some m =>
      cases hc : closeFrom m cs with
      | none => simp [hm, hc] at h
      | some found =>
        simp [hm, hc] at h
        have := ih m hc
        simp [← h.2]
        omega

theorem length_of_open {cs rest : List Char} (h : (open? cs).2 = some rest) :
    rest.length < cs.length := by
  fun_induction open? cs with
  | case1 => cases h
  | case2 => cases h; simp only [List.length_cons]; omega
  | case3 c cs _ text after he ih =>
    have := ih (by rw [he]; exact h)
    simp; omega

/-- The segments of a source whose first character is on line `line`. -/
def segmentsFrom (line : Nat) (cs : List Char) : List Segment :=
  match _h : open? cs with
  | (text, none) => [.text text]
  | (text, some rest) =>
    let line := line + text.count '\n'
    match _h' : close? rest with
    | none => [.text text, .unclosed line]
    | some (body, after) =>
      .text text :: .body body line :: segmentsFrom (line + body.count '\n') after
termination_by cs.length
decreasing_by
  have h₁ := length_of_open (congrArg Prod.snd _h)
  have h₂ := length_of_closeFrom _h'
  omega

def segments (source : String) : List Segment := segmentsFrom 1 source.toList

end CollectionRun.Template
