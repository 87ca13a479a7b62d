import Thrussh.Encoding
import Thrussh.Lib.Moves

/-!
# Readers at a point of a packet

A reader stands before the bytes that are left to read. What a writer has
put there it reads back, and then stands before the rest; a read that
succeeds has taken its bytes off what was left.
-/

namespace Thrussh.Position

/-- The reader stands before these bytes. -/
def Before (r : Position) (rest : Bytes) : Prop := ∃ pre, r = ⟨pre ++ rest, pre.length⟩

/-- The number of bytes left to read. -/
def left (r : Position) : Nat := r.s.length - r.position

theorem before_reader (m : UInt8) (rest : Bytes) : (reader (m :: rest) 1).Before rest :=
  ⟨[m], rfl⟩

variable {r : Position} {rest : Bytes}

/-- A byte is read back. -/
theorem Before.readByte {b : UInt8} (h : r.Before (b :: rest)) :
    ∃ r', r.readByte = .ok (b, r') ∧ r'.Before rest := by
  obtain ⟨pre, rfl⟩ := h
  exact ⟨_, readByte_append pre rest b, pre ++ [b], by simp⟩

/-- An integer is read back. -/
theorem Before.readU32 {n : UInt32} (h : r.Before (be32 n ++ rest)) :
    ∃ r', r.readU32 = .ok (n, r') ∧ r'.Before rest := by
  obtain ⟨pre, rfl⟩ := h
  exact ⟨_, readU32_append pre rest n, pre ++ be32 n, by simp⟩

/-- A string is read back, if its length is a `u32`. -/
theorem Before.readString {x : Bytes} (h : r.Before (sshString x ++ rest))
    (hx : x.length < 2 ^ 32) : ∃ r', r.readString = .ok (x, r') ∧ r'.Before rest := by
  obtain ⟨pre, rfl⟩ := h
  exact ⟨_, readString_append pre rest hx, pre ++ sshString x, by simp⟩

/-- An integer at the end is read back. -/
theorem Before.readU32_last {n : UInt32} (h : r.Before (be32 n)) :
    ∃ r', r.readU32 = .ok (n, r') := by
  have happend : r.Before (be32 n ++ []) := by rwa [List.append_nil]
  obtain ⟨r', hread, -⟩ := happend.readU32
  exact ⟨r', hread⟩

/-- A string at the end is read back. -/
theorem Before.readString_last {x : Bytes} (h : r.Before (sshString x)) (hx : x.length < 2 ^ 32) :
    ∃ r', r.readString = .ok (x, r') := by
  have happend : r.Before (sshString x ++ []) := by rwa [List.append_nil]
  obtain ⟨r', hread, -⟩ := happend.readString hx
  exact ⟨r', hread⟩

variable {r' : Position}

/-- An integer takes four bytes. -/
theorem length_of_headBe32 {s : Bytes} {n : UInt32} (h : headBe32 s = some n) : 4 ≤ s.length := by
  match s, h with
  | _ :: _ :: _ :: _ :: _, _ => simp

/-- A byte that was read is no longer left. -/
theorem readByte_left {b : UInt8} (h : r.readByte = .ok (b, r')) : r'.left + 1 = r.left := by
  unfold Position.readByte at h
  cases hget : r.s[r.position]? with
  | none =>
    rw [hget] at h
    cases h
  | some c =>
    rw [hget] at h
    cases h
    have hlt := (List.getElem?_eq_some_iff.mp hget).1
    simp only [left]
    omega

/-- The bytes of an integer that was read are no longer left. -/
theorem readU32_left {n : UInt32} (h : r.readU32 = .ok (n, r')) : r'.left + 4 = r.left := by
  unfold Position.readU32 at h
  cases hhead : headBe32 (r.s.drop r.position) with
  | none =>
    rw [hhead] at h
    cases h
  | some m =>
    rw [hhead] at h
    cases h
    have hfour := length_of_headBe32 hhead
    rw [List.length_drop] at hfour
    simp only [left]
    omega

/-- The bytes of a string that was read are no longer left. -/
theorem readString_left {x : Bytes} (h : r.readString = .ok (x, r')) :
    r'.left + (4 + x.length) = r.left := by
  unfold Position.readString at h
  cases hread : r.readU32 with
  | error e =>
    rw [hread] at h
    cases h
  | ok res =>
    obtain ⟨n, r1⟩ := res
    have hleft := readU32_left hread
    rw [hread] at h
    simp only [bind, Except.bind] at h
    split at h
    · rename_i hfits
      cases h
      simp only [left] at hleft ⊢
      rw [List.length_take, List.length_drop]
      omega
    · cases h

/-- A UTF-8 string is read as it is. -/
theorem fromUtf8_ok {x y : Bytes} (h : fromUtf8 x = .ok y) : y = x := by
  unfold fromUtf8 at h
  split at h
  · cases h
    rfl
  · cases h

/-! ### Readers before a part of the bytes -/

/-- The reader stands before a part of these bytes. -/
def Within (r : Position) (rest : Bytes) : Prop :=
  r.position ≤ r.s.length ∧ r.s.drop r.position <+: rest

/-- A part that is long enough starts like the whole. -/
theorem cut_append {cut x rest : Bytes} (h : cut <+: x ++ rest) (hlength : x.length ≤ cut.length) :
    ∃ cut', cut = x ++ cut' ∧ cut' <+: rest := by
  have hx : x <+: cut := List.prefix_of_prefix_length_le (List.prefix_append x rest) h hlength
  obtain ⟨cut', rfl⟩ := hx
  exact ⟨cut', rfl, (List.prefix_append_right_inj x).mp h⟩

/-- An integer that is read is the one that was written. -/
theorem Within.readU32 {n m : UInt32} (h : r.Within (be32 n ++ rest))
    (hread : r.readU32 = .ok (m, r')) : m = n ∧ r'.Within rest := by
  unfold Position.readU32 at hread
  cases hhead : headBe32 (r.s.drop r.position) with
  | none =>
    rw [hhead] at hread
    cases hread
  | some k =>
    rw [hhead] at hread
    cases hread
    have hfour := length_of_headBe32 hhead
    obtain ⟨cut, hcut, hrest⟩ := cut_append h.2 hfour
    rw [hcut, headBe32_append] at hhead
    cases hhead
    have hdrop : r.s.drop (r.position + 4) = cut := by
      rw [← List.drop_drop, hcut, drop_append_length (length_be32 _)]
    rw [List.length_drop] at hfour
    refine ⟨rfl, ?_, ?_⟩
    · dsimp only
      omega
    · dsimp only
      rw [hdrop]
      exact hrest

/-- A string that is read starts the one that was written; it is all of it,
unless its length is no `u32`. -/
theorem Within.readString {x y : Bytes} (h : r.Within (sshString x ++ rest))
    (hread : r.readString = .ok (y, r')) :
    y = x.take (UInt32.ofNat x.length).toNat ∧ (x.length < 2 ^ 32 → r'.Within rest) := by
  rw [sshString, List.append_assoc] at h
  unfold Position.readString at hread
  obtain ⟨⟨n, r1⟩, hn, hrest⟩ := Lib.ok_of_bind hread
  obtain ⟨rfl, hwithin⟩ := h.readU32 hn
  dsimp only at hrest
  have hmod : (UInt32.ofNat x.length).toNat = x.length % 2 ^ 32 := UInt32.toNat_ofNat' ..
  split at hrest
  · rename_i hfits
    cases hrest
    have hle : x.length % 2 ^ 32 ≤ x.length := Nat.mod_le _ _
    have hsplit : x ++ rest = x.take (x.length % 2 ^ 32) ++ (x.drop (x.length % 2 ^ 32) ++ rest) := by
      rw [← List.append_assoc, List.take_append_drop]
    have hlength : (x.take (x.length % 2 ^ 32)).length ≤ (r1.s.drop r1.position).length := by
      rw [List.length_take, List.length_drop]
      omega
    have hwithin' := hwithin.2
    rw [hsplit] at hwithin'
    obtain ⟨cut, hcut, hrest'⟩ := cut_append hwithin' hlength
    have htake : (x.take (x.length % 2 ^ 32)).length = x.length % 2 ^ 32 := by
      rw [List.length_take]
      omega
    rw [hmod] at hfits ⊢
    constructor
    · rw [hcut, List.take_append_of_le_length (Nat.le_of_eq htake.symm), List.take_take,
        Nat.min_self]
    · intro hlt
      have hall : x.drop (x.length % 2 ^ 32) = [] := by
        rw [Nat.mod_eq_of_lt hlt, List.drop_length]
      rw [hall, List.nil_append] at hrest'
      refine ⟨hfits, ?_⟩
      dsimp only
      rw [← List.drop_drop, hcut, drop_append_length htake]
      exact hrest'
  · cases hrest

end Thrussh.Position
