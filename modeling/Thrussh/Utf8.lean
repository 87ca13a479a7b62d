import Thrussh.Encoding

/-!
# UTF-8 text

A byte string is UTF-8 if it is a sequence of characters: a byte below
`0x80`, or a lead byte with its continuation bytes. `from_utf8_lossy` keeps
such a text, and of a text that is cut it makes at most two bytes more than
were left.
-/

namespace Thrussh

/-- `n` continuation bytes, the first of them between two bounds. -/
inductive Tails : Nat → UInt8 → UInt8 → Bytes → Prop where
  /-- None are left. -/
  | nil {lo hi : UInt8} : Tails 0 lo hi []
  /-- One within the bounds, then more. -/
  | cons {n : Nat} {lo hi b : UInt8} {rest : Bytes} :
    lo ≤ b → b ≤ hi → Tails n 0x80 0xBF rest → Tails (n + 1) lo hi (b :: rest)

/-- One character. -/
inductive Utf8Char : Bytes → Prop where
  /-- A single byte. -/
  | single {a : UInt8} : a ≤ 0x7F → Utf8Char [a]
  /-- A lead byte with its continuation bytes. -/
  | lead {a : UInt8} {n : Nat} {lo hi : UInt8} {tail : Bytes} :
    ¬ a ≤ 0x7F → utf8Lead a = some (n, lo, hi) → Tails n lo hi tail → Utf8Char (a :: tail)

/-- A sequence of characters. -/
inductive Utf8Text : Bytes → Prop where
  /-- No character. -/
  | nil : Utf8Text []
  /-- A character, then more. -/
  | cons {c rest : Bytes} : Utf8Char c → Utf8Text rest → Utf8Text (c ++ rest)

/-! ### Continuation bytes -/

theorem Tails.length {n : Nat} {lo hi : UInt8} {tail : Bytes} (h : Tails n lo hi tail) :
    tail.length = n := by
  induction h with
  | nil => rfl
  | cons _ _ _ ih => rw [List.length_cons, ih]

/-- All of them are found, whatever follows. -/
theorem Tails.continuations_append {n : Nat} {lo hi : UInt8} {tail : Bytes} (h : Tails n lo hi tail)
    (rest : Bytes) : continuations n lo hi (tail ++ rest) = n := by
  induction h with
  | nil => rfl
  | cons hlo hhi _ ih =>
    rw [List.cons_append, continuations, if_pos ⟨hlo, hhi⟩, ih]

/-- Of a cut tail, what is left of it is found. -/
theorem Tails.continuations_take {n : Nat} {lo hi : UInt8} {tail : Bytes} (h : Tails n lo hi tail)
    (m : Nat) : continuations n lo hi (tail.take m) = min m n := by
  induction h generalizing m with
  | nil =>
    rw [List.take_nil, Nat.min_zero]
    rfl
  | cons hlo hhi _ ih =>
    cases m with
    | zero =>
      rw [List.take_zero, Nat.zero_min]
      rfl
    | succ m =>
      rw [List.take_succ_cons, continuations, if_pos ⟨hlo, hhi⟩, ih]
      omega

/-- A continuation byte is one within the widest bounds. -/
theorem isContinuation_iff {b : UInt8} : isContinuation b = true ↔ 0x80 ≤ b ∧ b ≤ 0xBF := by
  simp [isContinuation]

/-- The lead byte of two. -/
theorem utf8Lead_two {a : UInt8} (h : 0xC2 ≤ a ∧ a ≤ 0xDF) :
    utf8Lead a = some (1, 0x80, 0xBF) := if_pos h

/-- The lead byte of three, with bounds for the next byte that passes the check. -/
theorem utf8Lead_three {a b : UInt8} (htwo : ¬ (0xC2 ≤ a ∧ a ≤ 0xDF)) (h : 0xE0 ≤ a ∧ a ≤ 0xEF)
    (hb : 0x80 ≤ b ∧ b ≤ 0xBF) (hlow : a ≠ 0xE0 ∨ 0xA0 ≤ b) (hhigh : a ≠ 0xED ∨ b ≤ 0x9F) :
    ∃ lo hi, utf8Lead a = some (2, lo, hi) ∧ lo ≤ b ∧ b ≤ hi := by
  unfold utf8Lead
  rw [if_neg htwo]
  by_cases hE0 : a = 0xE0
  · rw [if_pos hE0]
    exact ⟨_, _, rfl, hlow.resolve_left (not_not_intro hE0), hb.2⟩
  rw [if_neg hE0]
  by_cases hED : a = 0xED
  · rw [if_pos hED]
    exact ⟨_, _, rfl, hb.1, hhigh.resolve_left (not_not_intro hED)⟩
  have hrange : 0xE1 ≤ a ∧ a ≤ 0xEF := by
    simp only [UInt8.le_iff_toNat_le, ← UInt8.toNat_inj] at h hE0 ⊢
    simp at h hE0 ⊢
    omega
  rw [if_neg hED, if_pos hrange]
  exact ⟨_, _, rfl, hb⟩

/-- The lead byte of four. -/
theorem utf8Lead_four {a b : UInt8} (htwo : ¬ (0xC2 ≤ a ∧ a ≤ 0xDF))
    (hthree : ¬ (0xE0 ≤ a ∧ a ≤ 0xEF)) (h : 0xF0 ≤ a ∧ a ≤ 0xF4) (hb : 0x80 ≤ b ∧ b ≤ 0xBF)
    (hlow : a ≠ 0xF0 ∨ 0x90 ≤ b) (hhigh : a ≠ 0xF4 ∨ b ≤ 0x8F) :
    ∃ lo hi, utf8Lead a = some (3, lo, hi) ∧ lo ≤ b ∧ b ≤ hi := by
  have hE0 : a ≠ 0xE0 := fun he => hthree (by subst he; decide)
  have hED : a ≠ 0xED := fun he => hthree (by subst he; decide)
  have hE1 : ¬ (0xE1 ≤ a ∧ a ≤ 0xEF) := by
    simp only [UInt8.le_iff_toNat_le] at h ⊢
    simp at h ⊢
    omega
  unfold utf8Lead
  rw [if_neg htwo, if_neg hE0, if_neg hED, if_neg hE1]
  by_cases hF0 : a = 0xF0
  · rw [if_pos hF0]
    exact ⟨_, _, rfl, hlow.resolve_left (not_not_intro hF0), hb.2⟩
  rw [if_neg hF0]
  by_cases hF4 : a = 0xF4
  · have hF1 : ¬ (0xF1 ≤ a ∧ a ≤ 0xF3) := by subst hF4; decide
    rw [if_neg hF1, if_pos hF4]
    exact ⟨_, _, rfl, hb.1, hhigh.resolve_left (not_not_intro hF4)⟩
  have hrange : 0xF1 ≤ a ∧ a ≤ 0xF3 := by
    simp only [UInt8.le_iff_toNat_le, ← UInt8.toNat_inj] at h hF0 hF4 ⊢
    simp at h hF0 hF4 ⊢
    omega
  rw [if_pos hrange]
  exact ⟨_, _, rfl, hb⟩

/-- What passes the check is a text. -/
theorem text_of_valid {s : Bytes} (h : utf8Valid s) : Utf8Text s := by
  fun_induction utf8Valid s with
  | case1 => exact .nil
  | case2 a rest ha ih => exact .cons (.single ha) (ih h)
  | case3 a ha b rest htwo ih =>
    simp only [Bool.and_eq_true, decide_eq_true_eq, isContinuation_iff] at h htwo
    exact .cons (.lead ha (utf8Lead_two htwo) (.cons h.1.1 h.1.2 .nil)) (ih h.2)
  | case4 a ha b htwo c rest hthree ih =>
    simp only [Bool.and_eq_true, Bool.or_eq_true, decide_eq_true_eq, isContinuation_iff]
      at h htwo hthree
    obtain ⟨⟨⟨⟨hb, hc⟩, hlow⟩, hhigh⟩, hrest⟩ := h
    obtain ⟨lo, hi, hlead, hlo, hhi⟩ := utf8Lead_three htwo hthree hb hlow hhigh
    exact .cons (.lead ha hlead (.cons hlo hhi (.cons hc.1 hc.2 .nil))) (ih hrest)
  | case5 a ha b htwo c hthree d rest ih =>
    simp only [Bool.and_eq_true, Bool.or_eq_true, decide_eq_true_eq, isContinuation_iff]
      at h htwo hthree
    obtain ⟨⟨⟨⟨⟨⟨⟨hF0, hF4⟩, hb⟩, hc⟩, hd⟩, hlow⟩, hhigh⟩, hrest⟩ := h
    obtain ⟨lo, hi, hlead, hlo, hhi⟩ := utf8Lead_four htwo hthree ⟨hF0, hF4⟩ hb hlow hhigh
    exact .cons (.lead ha hlead (.cons hlo hhi (.cons hc.1 hc.2 (.cons hd.1 hd.2 .nil)))) (ih hrest)
  | case6 => cases h
  | case7 => cases h
  | case8 => cases h

/-- A repeated byte below `0x80` is UTF-8. -/
theorem utf8Valid_replicate {a : UInt8} (ha : a ≤ 0x7F) (n : Nat) :
    utf8Valid (List.replicate n a) := by
  induction n with
  | zero => rfl
  | succ n ih =>
    rw [List.replicate_succ]
    unfold utf8Valid
    rw [if_pos ha]
    exact ih

/-! ### The lossy decoding of a text -/

/-- One character is kept. -/
theorem Utf8Char.lossyLoop {c : Bytes} (h : Utf8Char c) (fuel : Nat) (rest : Bytes) :
    lossyLoop (fuel + 1) (c ++ rest) = c ++ Thrussh.lossyLoop fuel rest := by
  cases h with
  | single ha =>
    rw [List.singleton_append, Thrussh.lossyLoop, if_pos ha]
    rfl
  | lead ha hlead htail =>
    rw [List.cons_append, Thrussh.lossyLoop, if_neg ha]
    simp only [hlead, htail.continuations_append, if_true]
    rw [← htail.length, List.take_left, List.drop_left]

theorem Utf8Char.length_pos {c : Bytes} (h : Utf8Char c) : 0 < c.length := by
  cases h <;> simp

/-- A text is kept. -/
theorem lossyLoop_text {s : Bytes} (h : Utf8Text s) {fuel : Nat} (hfuel : s.length ≤ fuel) :
    lossyLoop fuel s = s := by
  induction h generalizing fuel with
  | nil => cases fuel <;> rfl
  | cons hc _ ih =>
    have hpos := hc.length_pos
    rw [List.length_append] at hfuel
    cases fuel with
    | zero => omega
    | succ fuel => rw [hc.lossyLoop, ih (by omega)]

/-- UTF-8 is kept. -/
theorem fromUtf8Lossy_of_valid {s : Bytes} (h : utf8Valid s) : fromUtf8Lossy s = s :=
  lossyLoop_text (text_of_valid h) (Nat.le_refl _)

/-- What is made of a cut character. -/
theorem Utf8Char.lossyLoop_take {c : Bytes} (h : Utf8Char c) {m : Nat} (hm : m < c.length)
    (fuel : Nat) : (Thrussh.lossyLoop fuel (c.take m)).length ≤ m + 2 := by
  cases m with
  | zero =>
    rw [List.take_zero]
    cases fuel <;> simp [Thrussh.lossyLoop]
  | succ m =>
    cases h with
    | single ha => simp at hm
    | @lead a n lo hi tail ha hlead htail =>
      cases fuel with
      | zero => simp [Thrussh.lossyLoop]
      | succ fuel =>
        rw [List.length_cons, htail.length] at hm
        have hcut : min m n = m := by omega
        have hne : m ≠ n := by omega
        have hdrop : (tail.take m).drop m = [] := by
          rw [List.drop_eq_nil_iff, List.length_take]
          omega
        rw [List.take_succ_cons, Thrussh.lossyLoop, if_neg ha]
        simp only [hlead, htail.continuations_take, hcut, if_neg hne, hdrop]
        cases fuel <;> simp [Thrussh.lossyLoop]

/-- What is made of a cut text. -/
theorem lossyLoop_take {s : Bytes} (h : Utf8Text s) (m fuel : Nat) :
    (lossyLoop fuel (s.take m)).length ≤ m + 2 := by
  induction h generalizing m fuel with
  | nil =>
    rw [List.take_nil]
    cases fuel <;> simp [lossyLoop]
  | @cons c rest hc _ ih =>
    by_cases hm : m < c.length
    · have htake : (c ++ rest).take m = c.take m := List.take_append_of_le_length (by omega)
      rw [htake]
      exact hc.lossyLoop_take hm fuel
    · have htake : (c ++ rest).take m = c ++ rest.take (m - c.length) := by
        rw [List.take_append, List.take_of_length_le (by omega)]
      rw [htake]
      cases fuel with
      | zero => simp [lossyLoop]
      | succ fuel =>
        have hrest := ih (m - c.length) fuel
        rw [hc.lossyLoop, List.length_append]
        omega

/-- Of UTF-8 that is cut, at most two bytes more are made than were left. -/
theorem length_fromUtf8Lossy_take {s : Bytes} (h : utf8Valid s) (m : Nat) :
    (fromUtf8Lossy (s.take m)).length ≤ m + 2 := lossyLoop_take (text_of_valid h) m _

end Thrussh
