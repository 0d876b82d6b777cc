import CollectionRun.Json.Reader
import CollectionRun.Proofs.Except

/-! A text with an integer of too many digits is not read, so that every integer of a value that
is read can be written again (`short_of_read`). -/

namespace CollectionRun

namespace Text

/-- Digits after `n` make a number below the next multiple of their power of ten. -/
theorem foldl_digits_lt {cs : List Char} (digits : ∀ c ∈ cs, c.isDigit = true) (n : Nat) :
    cs.foldl (fun n c => 10 * n + (c.toNat - '0'.toNat)) n < (n + 1) * Nat.pow 10 cs.length := by
  induction cs generalizing n with
  | nil => simp
  | cons c rest ih =>
    rw [List.forall_mem_cons] at digits
    have least : c.toNat ≤ 57 := by
      have bounds := digits.1
      simp only [Char.isDigit, Bool.and_eq_true, decide_eq_true_eq] at bounds
      exact UInt32.le_iff_toNat_le.mp bounds.2
    have digit : c.toNat - '0'.toNat ≤ 9 := Nat.sub_le_sub_right least 48
    rw [List.foldl_cons, List.length_cons, Nat.pow_eq, Nat.pow_succ, ← Nat.pow_eq,
      Nat.mul_comm (Nat.pow 10 rest.length) 10, ← Nat.mul_assoc]
    refine Nat.lt_of_lt_of_le (ih digits.2 _) (Nat.mul_le_mul_right _ ?_)
    omega

theorem digitCount_le_length {cs : List Char} (digits : ∀ c ∈ cs, c.isDigit = true)
    (some : cs ≠ []) {n : Int}
    (value : n.natAbs = cs.foldl (fun n c => 10 * n + (c.toNat - '0'.toNat)) 0) :
    digitCount n ≤ cs.length := by
  have below := foldl_digits_lt digits 0
  rw [Nat.zero_add, Nat.one_mul, ← value] at below
  exact (digitCount_le_iff (List.length_pos_iff.mpr some)).mpr below

end Text

namespace OrderedMap

variable {κ α : Type} [DecidableEq κ]

theorem mem_putIn {key : κ} {v : α} {es : List (κ × α)} {e : κ × α} (h : e ∈ putIn key v es) :
    e = (key, v) ∨ e ∈ es := by
  induction es with
  | nil => exact .inl (List.mem_singleton.mp h)
  | cons first rest ih =>
    obtain ⟨k, w⟩ := first
    rw [putIn] at h
    split at h
    next same =>
      rw [same] at h
      exact (List.mem_cons.mp h).imp id (List.mem_cons_of_mem _)
    next =>
      rcases List.mem_cons.mp h with rfl | behind
      · exact .inr List.mem_cons_self
      · exact (ih behind).imp id (List.mem_cons_of_mem _)

end OrderedMap

namespace Json

inductive Value.Short : Value → Prop
  | null : Short .null
  | bool (b : Bool) : Short (.bool b)
  | integer {n : Int} (few : Text.digitCount n ≤ Text.digitLimit) : Short (.integer n)
  | decimal (x : Number.Binary64) : Short (.decimal x)
  | string (s : String) : Short (.string s)
  | array {items : List Value} (short : ∀ v ∈ items, Short v) : Short (.array items)
  | object {members : List (String × Value)} (short : ∀ m ∈ members, Short m.2) :
    Short (.object members)

namespace Token

def Short : Token → Prop
  | .scalar v => v.Short
  | _ => True

variable {cs rest : List Char} {t : Token}

theorem isDigit_of_whole : ∀ c ∈ (whole cs).1, c.isDigit = true := by
  unfold whole
  split
  · exact List.forall_mem_singleton.mpr rfl
  · exact fun c member => List.all_eq_true.mp List.all_takeWhile c member

theorem short_number {negative : Bool} (h : number? negative cs = some (t, rest)) : t.Short := by
  unfold number? at h
  dsimp only at h
  split at h
  · cases h
  next some =>
    split at h
    · split at h
      · cases h
        trivial
      next few =>
        cases h
        have nonempty : (whole cs).1 ≠ [] := fun none => some (List.isEmpty_iff.mpr none)
        refine .integer (Nat.le_trans ?_ (Nat.le_of_not_lt few))
        refine Text.digitCount_le_length isDigit_of_whole nonempty ?_
        split
        · exact Int.natAbs_neg _
        · rfl
    · cases h
      exact .decimal _

theorem short_word (h : word? cs = some (t, rest)) : t.Short := by
  obtain ⟨⟨word, v⟩, member, found⟩ := List.exists_of_findSome?_eq_some h
  obtain ⟨_, -, same⟩ := Option.map_eq_some_iff.mp found
  cases same
  have each : ∀ w ∈ words, w.2.Short := by
    simp only [words, List.forall_mem_cons]
    exact ⟨.null, .bool _, .bool _, .decimal _, .decimal _, .decimal _, List.forall_mem_nil _⟩
  exact each _ member

theorem short_first (c : Char) (cs : List Char) : (first c cs).1.Short := by
  unfold first
  iterate 6
    split
    · trivial
  split
  · split <;> trivial
  · split
    next found => exact short_word found
    next =>
      split
      · cases found : number? true cs with
        | none => trivial
        | some r => exact short_number found
      · cases found : number? false (c :: cs) with
        | none => trivial
        | some r => exact short_number found

theorem short_scan (cs : List Char) : ∀ l ∈ scan cs, l.token.Short := by
  induction cs using scan.induct with
  | case1 =>
    rw [scan]
    exact List.forall_mem_singleton.mpr trivial
  | case2 c rest blank ih =>
    rw [scan, if_pos blank]
    exact ih
  | case3 c rest some ih =>
    rw [scan, if_neg some]
    exact List.forall_mem_cons.mpr ⟨short_first c rest, ih⟩

end Token

def Frame.Short : Frame → Prop
  | .array items => ∀ v ∈ items, v.Short
  | .object members _ => ∀ m ∈ members.entries, m.2.Short

namespace Reading

structure Short (r : Reading) : Prop where
  frames : ∀ f ∈ r.frames, f.Short
  result : ∀ v, r.want = .nothing v → v.Short

variable {size : Nat} {l : Lexeme} {frames : List Frame} {r r' : Reading} {v : Value}

theorem short_complete (value : v.Short) (open' : ∀ f ∈ frames, f.Short) :
    (complete v frames).Short := by
  cases frames with
  | nil =>
    refine ⟨open', fun w same => ?_⟩
    cases same
    exact value
  | cons f outer =>
    rw [List.forall_mem_cons] at open'
    obtain ⟨inner, outside⟩ := open'
    cases f with
    | array items =>
      have items' : (Frame.array (v :: items)).Short := List.forall_mem_cons.mpr ⟨value, inner⟩
      exact ⟨List.forall_mem_cons.mpr ⟨items', outside⟩, fun _ same => by cases same⟩
    | object members name =>
      have members' : (Frame.object (members.put name v) name).Short := by
        intro m member
        rcases OrderedMap.mem_putIn member with rfl | earlier
        · exact value
        · exact inner m earlier
      exact ⟨List.forall_mem_cons.mpr ⟨members', outside⟩, fun _ same => by cases same⟩

theorem short_value (h : value size l frames = .ok r) (token : l.token.Short)
    (open' : ∀ f ∈ frames, f.Short) : r.Short := by
  unfold value at h
  split at h
  · cases h
    exact ⟨List.forall_mem_cons.mpr ⟨List.forall_mem_nil _, open'⟩, fun _ same => by cases same⟩
  · cases h
    exact ⟨List.forall_mem_cons.mpr ⟨List.forall_mem_nil _, open'⟩, fun _ same => by cases same⟩
  next scalar =>
    cases h
    rw [scalar] at token
    exact short_complete token open'
  · cases h
    exact short_complete (.string _) open'
  all_goals cases h

theorem short_name (h : name size l frames = .ok r) (open' : ∀ f ∈ frames, f.Short) : r.Short := by
  unfold name at h
  split at h
  · cases h
    obtain ⟨inner, outside⟩ := List.forall_mem_cons.mp open'
    exact ⟨List.forall_mem_cons.mpr ⟨inner, outside⟩, fun _ same => by cases same⟩
  all_goals cases h

theorem short_step (h : step size r l = .ok r') (short : r.Short) (token : l.token.Short) :
    r'.Short := by
  obtain ⟨frames, want⟩ := r
  obtain ⟨open', result⟩ := short
  have closed {items : List Value} {outer : List Frame}
      (each : ∀ f ∈ Frame.array items :: outer, f.Short) :
      (complete (.array items.reverse) outer).Short := by
    obtain ⟨inner, outside⟩ := List.forall_mem_cons.mp each
    exact short_complete (.array fun v member => inner v (List.mem_reverse.mp member)) outside
  have closed' {members : OrderedMap String Value} {n : String} {outer : List Frame}
      (each : ∀ f ∈ Frame.object members n :: outer, f.Short) :
      (complete (.object members.entries) outer).Short := by
    obtain ⟨inner, outside⟩ := List.forall_mem_cons.mp each
    exact short_complete (.object inner) outside
  unfold step at h
  dsimp only at h open' result
  split at h
  · exact short_value h token open'
  · cases h
    exact closed open'
  · exact short_value h token open'
  · cases h
    exact closed' open'
  · exact short_name h open'
  · exact short_name h open'
  · cases h
    exact ⟨open', fun _ same => by cases same⟩
  · cases h
  · cases h
    exact ⟨open', fun _ same => by cases same⟩
  · cases h
    exact ⟨open', fun _ same => by cases same⟩
  · cases h
    exact closed open'
  · cases h
    exact closed' open'
  · cases h
  · cases h
    exact ⟨open', result⟩
  · cases h

theorem short_foldlM {ls : List Lexeme} (h : ls.foldlM (step size) r = .ok r') (short : r.Short)
    (tokens : ∀ l ∈ ls, l.token.Short) : r'.Short := by
  induction ls generalizing r with
  | nil =>
    cases h
    exact short
  | cons l rest ih =>
    rw [List.forall_mem_cons] at tokens
    rw [List.foldlM_cons] at h
    obtain ⟨next, first, later⟩ := bind_eq_ok_iff.mp h
    exact ih later (short_step first short tokens.1) tokens.2

end Reading

theorem short_of_read {cs : List Char} {v : Value} (h : read cs = .ok v) : v.Short := by
  unfold read at h
  split at h
  · cases h
  · obtain ⟨r, folded, last⟩ := bind_eq_ok_iff.mp h
    have start : Reading.Short {} := ⟨List.forall_mem_nil _, fun _ same => by cases same⟩
    have short := Reading.short_foldlM folded start (Token.short_scan cs)
    split at last
    next result =>
      cases last
      exact short.result _ result
    · cases last

end Json

end CollectionRun
