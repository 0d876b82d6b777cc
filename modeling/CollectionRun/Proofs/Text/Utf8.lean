import CollectionRun.Text.Utf8

/-!
What the reader makes of octets is said without the reader by `Decodes`: characters stand for
themselves, and each maximal ill-formed part is shown as one replacement character. `decodes_iff`
says that the reader shows just that, and `decodeLossy_encode` that what has been written is read
back.
-/

namespace CollectionRun.Text.Utf8

def piecesFrom (state : Option Begun) : List UInt8 → List Piece
  | [] => finish state
  | b :: octets => (step state b).1 ++ piecesFrom (step state b).2 octets

theorem pieces_read (r : Reader) (octets : List UInt8) :
    (r.read octets).pieces.reverse ++ finish (r.read octets).state =
      r.pieces.reverse ++ piecesFrom r.state octets := by
  induction octets generalizing r with
  | nil => rfl
  | cons b octets ih =>
    have fed : r.read (b :: octets) = (r.feed b).read octets := rfl
    rw [fed, ih, Reader.feed, piecesFrom, List.reverse_append, List.reverse_reverse,
      List.append_assoc]

theorem decodeLossy_eq (octets : List UInt8) :
    decodeLossy octets = (piecesFrom none octets).map Piece.shown := by
  rw [decodeLossy, pieces, pieces_read]
  rfl

/-! ### Characters that have begun -/

/-- The states of the reader inside a character of two, three or four octets. The second octet is
bounded so that no character is written in more octets than it needs, and none is half a pair or
beyond the last character. -/
inductive Begun.Partial : Begun → Prop
  | firstOfTwo {n : Nat} (long : 2 ≤ n) (most : n < 32) :
    Partial ⟨[.ofNat (n + 192)], n, 1, 0x80, 0xBF⟩
  | firstOfThree {n : Nat} (most : n < 16) :
    Partial ⟨[.ofNat (n + 224)], n, 2, if n = 0 then 0xA0 else 0x80, if n = 13 then 0x9F else 0xBF⟩
  | firstOfFour {n : Nat} (most : n < 5) :
    Partial ⟨[.ofNat (n + 240)], n, 3, if n = 0 then 0x90 else 0x80, if n = 4 then 0x8F else 0xBF⟩
  | secondOfThree {n a : Nat} (most : n < 16) (small : a < 64) (long : n = 0 → 32 ≤ a)
      (whole : n = 13 → a < 32) :
    Partial ⟨[.ofNat (n + 224), .ofNat (a + 128)], n * 64 + a, 1, 0x80, 0xBF⟩
  | secondOfFour {n a : Nat} (most : n < 5) (small : a < 64) (long : n = 0 → 16 ≤ a)
      (known : n = 4 → a < 16) :
    Partial ⟨[.ofNat (n + 240), .ofNat (a + 128)], n * 64 + a, 2, 0x80, 0xBF⟩
  | thirdOfFour {n a b : Nat} (most : n < 5) (small : a < 64) (small' : b < 64)
      (long : n = 0 → 16 ≤ a) (known : n = 4 → a < 16) :
    Partial ⟨[.ofNat (n + 240), .ofNat (a + 128), .ofNat (b + 128)], (n * 64 + a) * 64 + b, 1,
      0x80, 0xBF⟩

theorem toNat_octet {n : Nat} (octet : n < 256) : (UInt8.ofNat n).toNat = n := by
  rw [UInt8.toNat_ofNat', Nat.mod_eq_of_lt octet]

theorem start_one {n : Nat} (h : n < 128) :
    step none (.ofNat n) = ([.char (Char.ofNat n)], none) := by
  have value : (UInt8.ofNat n).toNat = n := toNat_octet (by omega)
  rw [step, start, value, if_pos h]

theorem start_illFormed {n : Nat} (bad : 128 ≤ n ∧ n < 194 ∨ 245 ≤ n) (octet : n < 256) :
    step none (.ofNat n) = ([.illFormed [.ofNat n] .startOctet], none) := by
  have value : (UInt8.ofNat n).toNat = n := toNat_octet (by omega)
  obtain ⟨high, low⟩ | high := bad
  · rw [step, start, value, if_neg (by omega), if_pos low]
  · simp (disch := omega) only [step, start, value, if_neg]

theorem start_two {n : Nat} (long : 2 ≤ n) (most : n < 32) :
    step none (.ofNat (n + 192)) = ([], some ⟨[.ofNat (n + 192)], n, 1, 0x80, 0xBF⟩) := by
  have all : ∀ n < 32, 2 ≤ n →
      step none (.ofNat (n + 192)) = ([], some ⟨[.ofNat (n + 192)], n, 1, 0x80, 0xBF⟩) := by
    decide
  exact all n most long

theorem start_three {n : Nat} (most : n < 16) :
    step none (.ofNat (n + 224)) = ([], some ⟨[.ofNat (n + 224)], n, 2,
      if n = 0 then 0xA0 else 0x80, if n = 13 then 0x9F else 0xBF⟩) := by
  revert n
  decide

theorem start_four {n : Nat} (most : n < 5) :
    step none (.ofNat (n + 240)) = ([], some ⟨[.ofNat (n + 240)], n, 3,
      if n = 0 then 0x90 else 0x80, if n = 4 then 0x8F else 0xBF⟩) := by
  revert n
  decide

theorem step_within {s : Begun} {a : Nat} (small : a < 64) (low : s.low ≤ a + 128)
    (high : a + 128 ≤ s.high) :
    step (some s) (.ofNat (a + 128)) =
      if s.owed = 1 then ([.char (Char.ofNat (s.bits * 64 + a))], none)
      else ([], some ⟨s.octets ++ [.ofNat (a + 128)], s.bits * 64 + a, s.owed - 1, 0x80, 0xBF⟩) := by
  have value : (UInt8.ofNat (a + 128)).toNat = a + 128 := toNat_octet (by omega)
  simp only [step, value, low, high, decide_true, Bool.and_self, if_true, Nat.add_sub_cancel]

theorem piecesFrom_cons {state next : Option Begun} {b : UInt8} {read : List Piece}
    (h : step state b = (read, next)) (rest : List UInt8) :
    piecesFrom state (b :: rest) = read ++ piecesFrom next rest := by
  rw [piecesFrom, h]

theorem toNat_ofNat {v : Nat} (h : v.isValidChar) : (Char.ofNat v).val.toNat = v := by
  rw [Char.ofNat, dif_pos h]
  rfl

namespace Begun.Partial

variable {s : Begun} (h : s.Partial)
include h

theorem bounds : 0x80 ≤ s.low ∧ s.low ≤ s.high ∧ s.high ≤ 0xBF ∧ 0 < s.owed := by
  cases h <;> dsimp only <;> (repeat' split) <;> omega

theorem bounds_last (last : s.owed = 1) : s.low = 0x80 ∧ s.high = 0xBF := by
  cases h <;> first | exact ⟨rfl, rfl⟩ | cases last

theorem octets_ne_nil : s.octets ≠ [] := by
  cases h <;> exact List.cons_ne_nil _ _

/-- The next octet, if it is within the bounds and not the last one, leads to such a state. -/
theorem next {a : Nat} (small : a < 64) (low : s.low ≤ a + 128) (high : a + 128 ≤ s.high)
    (more : s.owed ≠ 1) :
    Partial ⟨s.octets ++ [.ofNat (a + 128)], s.bits * 64 + a, s.owed - 1, 0x80, 0xBF⟩ := by
  cases h with
  | firstOfThree most =>
    dsimp only at low high
    refine .secondOfThree most small (fun zero => ?_) (fun thirteen => ?_)
    · rw [if_pos zero] at low
      omega
    · rw [if_pos thirteen] at high
      omega
  | firstOfFour most =>
    dsimp only at low high
    refine .secondOfFour most small (fun zero => ?_) (fun four => ?_)
    · rw [if_pos zero] at low
      omega
    · rw [if_pos four] at high
      omega
  | secondOfFour most small' long known => exact .thirdOfFour most small' small long known
  | _ => exact absurd rfl more

/-- The reader comes to the state by the octets of the state. -/
theorem piecesFrom_octets (rest : List UInt8) :
    piecesFrom none (s.octets ++ rest) = piecesFrom (some s) rest := by
  cases h with
  | firstOfTwo long most => exact piecesFrom_cons (start_two long most) rest
  | firstOfThree most => exact piecesFrom_cons (start_three most) rest
  | firstOfFour most => exact piecesFrom_cons (start_four most) rest
  | @secondOfThree n a most small long whole =>
    have low : (if n = 0 then 0xA0 else 0x80) ≤ a + 128 := by split <;> omega
    have high : a + 128 ≤ if n = 13 then 0x9F else 0xBF := by split <;> omega
    exact (piecesFrom_cons (start_three most) _).trans
      (piecesFrom_cons (step_within small low high) rest)
  | @secondOfFour n a most small long known =>
    have low : (if n = 0 then 0x90 else 0x80) ≤ a + 128 := by split <;> omega
    have high : a + 128 ≤ if n = 4 then 0x8F else 0xBF := by split <;> omega
    exact (piecesFrom_cons (start_four most) _).trans
      (piecesFrom_cons (step_within small low high) rest)
  | @thirdOfFour n a b most small small' long known =>
    have low : (if n = 0 then 0x90 else 0x80) ≤ a + 128 := by split <;> omega
    have high : a + 128 ≤ if n = 4 then 0x8F else 0xBF := by split <;> omega
    have high' : b + 128 ≤ 0xBF := by omega
    exact (piecesFrom_cons (start_four most) _).trans
      ((piecesFrom_cons (step_within small low high) _).trans
        (piecesFrom_cons (step_within small' (Nat.le_add_left _ _) high') rest))

theorem encode_last (last : s.owed = 1) {a : Nat} (small : a < 64) :
    String.utf8EncodeChar (Char.ofNat (s.bits * 64 + a)) = s.octets ++ [.ofNat (a + 128)] := by
  cases h with
  | @firstOfTwo n long most =>
    have value : (Char.ofNat (n * 64 + a)).val.toNat = n * 64 + a :=
      toNat_ofNat (.inl (by omega))
    have first : (n * 64 + a) / 64 % 32 = n := by omega
    have second : (n * 64 + a) % 64 = a := by omega
    rw [String.utf8EncodeChar, value, if_neg (by omega), if_pos (by omega), first, second]
    rfl
  | @secondOfThree n b most small' long whole =>
    have value : (Char.ofNat ((n * 64 + b) * 64 + a)).val.toNat = (n * 64 + b) * 64 + a := by
      refine toNat_ofNat ?_
      rw [Nat.isValidChar]
      omega
    have first : ((n * 64 + b) * 64 + a) / 4096 % 16 = n := by omega
    have second : ((n * 64 + b) * 64 + a) / 64 % 64 = b := by omega
    have third : ((n * 64 + b) * 64 + a) % 64 = a := by omega
    rw [String.utf8EncodeChar, value, if_neg (by omega), if_neg (by omega), if_pos (by omega),
      first, second, third]
    rfl
  | @thirdOfFour n b d most small' small'' long known =>
    have value : (Char.ofNat (((n * 64 + b) * 64 + d) * 64 + a)).val.toNat =
        ((n * 64 + b) * 64 + d) * 64 + a := by
      refine toNat_ofNat ?_
      rw [Nat.isValidChar]
      omega
    have first : (((n * 64 + b) * 64 + d) * 64 + a) / 262144 % 8 = n := by omega
    have second : (((n * 64 + b) * 64 + d) * 64 + a) / 4096 % 64 = b := by omega
    have third : (((n * 64 + b) * 64 + d) * 64 + a) / 64 % 64 = d := by omega
    have fourth : (((n * 64 + b) * 64 + d) * 64 + a) % 64 = a := by omega
    rw [String.utf8EncodeChar, value, if_neg (by omega), if_neg (by omega), if_neg (by omega),
      first, second, third, fourth]
    rfl
  | _ => cases last

theorem exists_encode : ∃ c, s.octets <+: String.utf8EncodeChar c := by
  induction owed : s.owed generalizing s with
  | zero => exact absurd owed (Nat.ne_of_gt h.bounds.2.2.2)
  | succ owed' ih =>
    obtain ⟨least, wide, most, -⟩ := h.bounds
    have small : s.low - 0x80 < 64 := by omega
    by_cases last : s.owed = 1
    · exact ⟨_, by rw [h.encode_last last small]; exact List.prefix_append _ _⟩
    · have next := h.next small (by omega) (by omega) last
      obtain ⟨c, begins⟩ := ih next (by dsimp only; omega)
      exact ⟨c, (List.prefix_append _ _).trans begins⟩

end Begun.Partial

theorem encode_one {n : Nat} (h : n < 128) :
    String.utf8EncodeChar (Char.ofNat n) = [.ofNat n] := by
  have value : (Char.ofNat n).val.toNat = n := toNat_ofNat (.inl (by omega))
  rw [String.utf8EncodeChar, value, if_pos (by omega)]

theorem char_cases (c : Char) :
    (∃ n, n < 128 ∧ c = Char.ofNat n) ∨
      ∃ s : Begun, s.Partial ∧ s.owed = 1 ∧ ∃ a, a < 64 ∧ c = Char.ofNat (s.bits * 64 + a) := by
  have valid : c.toNat.isValidChar := c.valid
  have whole : c = Char.ofNat c.toNat := (Char.ofNat_toNat c).symm
  generalize c.toNat = v at valid whole
  have split : v = v / 64 * 64 + v % 64 := by omega
  have small : v % 64 < 64 := by omega
  rw [Nat.isValidChar] at valid
  rw [whole]
  -- Behind the first octet each octet carries a digit of the character in base 64.
  by_cases one : v < 128
  · exact .inl ⟨v, one, rfl⟩
  · refine .inr ?_
    by_cases two : v < 2048
    · refine ⟨_, .firstOfTwo (n := v / 64) (by omega) (by omega), rfl, v % 64, small, ?_⟩
      exact congrArg Char.ofNat split
    · by_cases three : v < 65536
      · have bits : v / 64 = v / 4096 * 64 + v / 64 % 64 := by omega
        refine ⟨_, .secondOfThree (n := v / 4096) (a := v / 64 % 64) (by omega) (by omega)
          (by omega) (by omega), rfl, v % 64, small, ?_⟩
        rw [bits] at split
        exact congrArg Char.ofNat split
      · have bits : v / 64 = (v / 262144 * 64 + v / 4096 % 64) * 64 + v / 64 % 64 := by omega
        refine ⟨_, .thirdOfFour (n := v / 262144) (a := v / 4096 % 64) (b := v / 64 % 64) (by omega)
          (by omega) (by omega) (by omega) (by omega), rfl, v % 64, small, ?_⟩
        rw [bits] at split
        exact congrArg Char.ofNat split

theorem piecesFrom_encode (c : Char) (rest : List UInt8) :
    piecesFrom none (String.utf8EncodeChar c ++ rest) = .char c :: piecesFrom none rest := by
  obtain ⟨n, ascii, rfl⟩ | ⟨s, h, last, a, small, rfl⟩ := char_cases c
  · rw [encode_one ascii]
    exact piecesFrom_cons (start_one ascii) rest
  · obtain ⟨low, high⟩ := h.bounds_last last
    have completes : step (some s) (.ofNat (a + 128)) =
        ([.char (Char.ofNat (s.bits * 64 + a))], none) := by
      rw [step_within small (by omega) (by omega), if_pos last]
    rw [h.encode_last last small, List.append_assoc, h.piecesFrom_octets]
    exact piecesFrom_cons completes rest

theorem decodeLossy_encode (cs : List Char) : decodeLossy (encode cs) = cs := by
  rw [decodeLossy_eq]
  induction cs with
  | nil => rfl
  | cons c cs ih =>
    rw [encode, List.flatMap_cons, piecesFrom_encode, List.map_cons]
    exact congrArg (c :: ·) ih

theorem start_cases (b : UInt8) :
    (∃ c, String.utf8EncodeChar c = [b] ∧ step none b = ([.char c], none)) ∨
      step none b = ([.illFormed [b] .startOctet], none) ∨
      ∃ s : Begun, s.Partial ∧ s.octets = [b] ∧ step none b = ([], some s) := by
  have known : UInt8.ofNat b.toNat = b := UInt8.ofNat_toNat
  have octet : b.toNat < 256 := b.toNat_lt
  generalize b.toNat = n at known octet
  subst known
  by_cases one : n < 128
  · exact .inl ⟨Char.ofNat n, encode_one one, start_one one⟩
  by_cases bad : n < 194 ∨ 245 ≤ n
  · exact .inr (.inl (start_illFormed (by omega) octet))
  refine .inr (.inr ?_)
  by_cases two : n < 224
  · obtain ⟨m, rfl⟩ := Nat.exists_eq_add_of_le' (show 192 ≤ n by omega)
    have long : 2 ≤ m := by omega
    have most : m < 32 := by omega
    exact ⟨_, .firstOfTwo long most, rfl, start_two long most⟩
  by_cases three : n < 240
  · obtain ⟨m, rfl⟩ := Nat.exists_eq_add_of_le' (show 224 ≤ n by omega)
    have most : m < 16 := by omega
    exact ⟨_, .firstOfThree most, rfl, start_three most⟩
  · obtain ⟨m, rfl⟩ := Nat.exists_eq_add_of_le' (show 240 ≤ n by omega)
    have most : m < 5 := by omega
    exact ⟨_, .firstOfFour most, rfl, start_four most⟩

theorem Begun.Partial.step_cases {s : Begun} (h : s.Partial) (b : UInt8) :
    (∃ c, String.utf8EncodeChar c = s.octets ++ [b] ∧ step (some s) b = ([.char c], none)) ∨
      step (some s) b = (.illFormed s.octets .continuationOctet :: (step none b).1,
        (step none b).2) ∨
      ∃ t : Begun, t.Partial ∧ t.octets = s.octets ++ [b] ∧ step (some s) b = ([], some t) := by
  by_cases within : s.low ≤ b.toNat ∧ b.toNat ≤ s.high
  · obtain ⟨low, high⟩ := within
    obtain ⟨least, -, most, -⟩ := h.bounds
    have known : UInt8.ofNat b.toNat = b := UInt8.ofNat_toNat
    obtain ⟨a, value⟩ := Nat.exists_eq_add_of_le' (Nat.le_trans least low)
    rw [value] at known low high
    have small : a < 64 := by omega
    subst known
    by_cases last : s.owed = 1
    · refine .inl ⟨_, h.encode_last last small, ?_⟩
      rw [step_within small low high, if_pos last]
    · refine .inr (.inr ⟨_, h.next small low high last, rfl, ?_⟩)
      rw [step_within small low high, if_neg last]
  · refine .inr (.inl ?_)
    have outside : (decide (s.low ≤ b.toNat) && decide (b.toNat ≤ s.high)) = false := by
      rw [Bool.and_eq_false_iff, decide_eq_false_iff_not, decide_eq_false_iff_not]
      omega
    simp only [step, outside, Bool.false_eq_true, if_false]

/-! ### Text that octets decode to -/

/-- No character is written in front, and the part is the longest one that starts a character, or a
single octet if none does. -/
structure MaximalPart (part rest : List UInt8) : Prop where
  nonempty : part ≠ []
  begins : part.length = 1 ∨ ∃ c, part <+: String.utf8EncodeChar c
  unconvertible : ∀ c, ¬ String.utf8EncodeChar c <+: part ++ rest
  longest : ∀ more c, more <+: rest → part ++ more <+: String.utf8EncodeChar c → more = []

/-- Decoding with replacement, as the Unicode Standard recommends it: what is written as a character
is that character, and each maximal part of what is ill-formed is one U+FFFD. -/
inductive Decodes : List UInt8 → List Char → Prop
  | nil : Decodes [] []
  | char (c : Char) {rest : List UInt8} {text : List Char} :
    Decodes rest text → Decodes (String.utf8EncodeChar c ++ rest) (c :: text)
  | replaced {part rest : List UInt8} {text : List Char} :
    MaximalPart part rest → Decodes rest text → Decodes (part ++ rest) ('\uFFFD' :: text)

theorem maximalPart_of_illFormed {part rest : List UInt8} (nonempty : part ≠ [])
    (begins : part.length = 1 ∨ ∃ c, part <+: String.utf8EncodeChar c)
    (reads : ∀ octets : List UInt8, octets.head? = rest.head? → ∃ problem read,
      piecesFrom none (part ++ octets) = .illFormed part problem :: read) :
    MaximalPart part rest where
  nonempty := nonempty
  begins := begins
  unconvertible := by
    rintro c ⟨after, written⟩
    obtain ⟨problem, read, ill⟩ := reads rest rfl
    rw [← written, piecesFrom_encode] at ill
    cases ill
  longest := by
    rintro more c ⟨after, rfl⟩ ⟨left, written⟩
    cases more with
    | nil => rfl
    | cons b more =>
      obtain ⟨problem, read, ill⟩ := reads (b :: more ++ left) rfl
      rw [← List.append_assoc, written, ← List.append_nil (String.utf8EncodeChar c),
        piecesFrom_encode] at ill
      cases ill

theorem decodes_piecesFrom (octets : List UInt8) :
    Decodes octets ((piecesFrom none octets).map Piece.shown) ∧
      ∀ s : Begun, s.Partial →
        Decodes (s.octets ++ octets) ((piecesFrom (some s) octets).map Piece.shown) := by
  induction octets with
  | nil =>
    refine ⟨.nil, fun s h => .replaced ?_ .nil⟩
    refine maximalPart_of_illFormed h.octets_ne_nil (.inr h.exists_encode) fun octets none => ?_
    rw [List.head?_eq_none_iff.mp none, h.piecesFrom_octets]
    exact ⟨_, _, rfl⟩
  | cons b octets ih =>
    have whole : Decodes (b :: octets) ((piecesFrom none (b :: octets)).map Piece.shown) := by
      obtain ⟨c, written, starts⟩ | starts | ⟨s, h, one, starts⟩ := start_cases b
      · rw [piecesFrom_cons starts]
        have decodes := Decodes.char c ih.1
        rwa [written] at decodes
      · rw [piecesFrom_cons starts]
        have alone : MaximalPart [b] octets :=
          maximalPart_of_illFormed (List.cons_ne_nil _ _) (.inl rfl) fun octets _ =>
            ⟨_, _, piecesFrom_cons starts octets⟩
        exact .replaced alone ih.1
      · rw [piecesFrom_cons starts]
        have decodes := ih.2 s h
        rwa [one] at decodes
    refine ⟨whole, fun s h => ?_⟩
    obtain ⟨c, written, steps⟩ | steps | ⟨t, next, more, steps⟩ := h.step_cases b
    · rw [piecesFrom_cons steps]
      have decodes := Decodes.char c ih.1
      rwa [written, List.append_assoc] at decodes
    · rw [piecesFrom_cons steps]
      refine .replaced ?_ whole
      refine maximalPart_of_illFormed h.octets_ne_nil (.inr h.exists_encode) fun x same => ?_
      obtain ⟨rest, rfl⟩ := List.head?_eq_some_iff.mp same
      rw [h.piecesFrom_octets]
      exact ⟨_, _, piecesFrom_cons steps rest⟩
    · rw [piecesFrom_cons steps]
      have decodes := ih.2 t next
      rwa [more, List.append_assoc] at decodes

theorem decodes_decodeLossy (octets : List UInt8) : Decodes octets (decodeLossy octets) := by
  rw [decodeLossy_eq]
  exact (decodes_piecesFrom octets).1

theorem MaximalPart.more_eq_nil {part more rest : List UInt8} (h : MaximalPart part (more ++ rest))
    (h' : MaximalPart (part ++ more) rest) : more = [] := by
  obtain one | ⟨c, begins⟩ := h'.begins
  · have some : 0 < part.length := List.length_pos_iff.mpr h.nonempty
    rw [List.length_append] at one
    exact List.length_eq_zero_iff.mp (by omega)
  · exact h.longest more c (List.prefix_append _ _) begins

theorem MaximalPart.eq_of_append_eq {part part' rest rest' : List UInt8} (h : MaximalPart part rest)
    (h' : MaximalPart part' rest') (same : part ++ rest = part' ++ rest') :
    part = part' ∧ rest = rest' := by
  obtain ⟨more, rfl, rfl⟩ | ⟨more, rfl, rfl⟩ := List.append_eq_append_iff.mp same
  · simp [h.more_eq_nil h']
  · simp [h'.more_eq_nil h]

theorem encode_append_inj {c c' : Char} {rest rest' : List UInt8}
    (same : String.utf8EncodeChar c ++ rest = String.utf8EncodeChar c' ++ rest') :
    c = c' ∧ rest = rest' := by
  have read := congrArg (piecesFrom none) same
  rw [piecesFrom_encode, piecesFrom_encode] at read
  have first : c = c' := Piece.char.inj (List.cons.inj read).1
  subst first
  exact ⟨rfl, List.append_cancel_left same⟩

theorem Decodes.unique {octets : List UInt8} {text text' : List Char} (h : Decodes octets text)
    (h' : Decodes octets text') : text = text' := by
  -- What stands in front decides which rule applies and how many octets it takes.
  induction h generalizing text' with
  | nil =>
    generalize same : [] = octets at h'
    cases h' with
    | nil => rfl
    | char c => exact absurd (List.append_eq_nil_iff.mp same.symm).1 String.utf8EncodeChar_ne_nil
    | replaced part => exact absurd (List.append_eq_nil_iff.mp same.symm).1 part.nonempty
  | @char c rest text after ih =>
    generalize same : String.utf8EncodeChar c ++ rest = octets at h'
    cases h' with
    | nil => exact absurd (List.append_eq_nil_iff.mp same).1 String.utf8EncodeChar_ne_nil
    | char c' after' =>
      obtain ⟨rfl, rfl⟩ := encode_append_inj same
      rw [ih after']
    | replaced part' => exact absurd ⟨rest, same⟩ (part'.unconvertible c)
  | @replaced part rest text max after ih =>
    generalize same : part ++ rest = octets at h'
    cases h' with
    | nil => exact absurd (List.append_eq_nil_iff.mp same).1 max.nonempty
    | char c' => exact absurd ⟨_, same.symm⟩ (max.unconvertible c')
    | replaced max' after' =>
      obtain ⟨rfl, rfl⟩ := max.eq_of_append_eq max' same
      rw [ih after']

theorem decodes_iff {octets : List UInt8} {text : List Char} :
    Decodes octets text ↔ text = decodeLossy octets := by
  constructor
  · exact fun decodes => decodes.unique (decodes_decodeLossy octets)
  · rintro rfl
    exact decodes_decodeLossy octets

end CollectionRun.Text.Utf8
