import Thrussh.Session

/-!
# New channels

`new_channel_id` counts up from the last id, with wrapping, to an id
without an entry. It finds one if there is one, and only the entry of the
channel that is opened changes.
-/

namespace Thrussh

open Lib

/-- The id that the search finds has no entry. -/
theorem freeId_ok {channels : UInt32 → Option Channel} {fuel : Nat} {last id : UInt32}
    (h : freeId channels fuel last = .ok id) : channels id = none := by
  induction fuel generalizing last with
  | zero => cases h
  | succ fuel ih =>
    unfold freeId at h
    split at h
    · exact ih h
    · rename_i hfree
      cases h
      exact Option.not_isSome_iff_eq_none.mp hfree

/-- A search that fails has seen an entry under every id on its way. -/
theorem freeId_error {channels : UInt32 → Option Channel} {fuel : Nat} {last : UInt32}
    {e : Fault} (h : freeId channels fuel last = .error e) :
    e = .diverge ∧ ∀ k < fuel, (channels (last + 1 + UInt32.ofNat k)).isSome := by
  induction fuel generalizing last with
  | zero =>
    cases h
    exact ⟨rfl, fun k hk => absurd hk (Nat.not_lt_zero k)⟩
  | succ fuel ih =>
    unfold freeId at h
    split at h
    · rename_i htaken
      obtain ⟨he, hall⟩ := ih h
      refine ⟨he, fun k hk => ?_⟩
      cases k with
      | zero =>
        rw [show UInt32.ofNat 0 = 0 from rfl, UInt32.add_zero]
        exact htaken
      | succ k =>
        have hsum : last + 1 + UInt32.ofNat (k + 1) = last + 1 + 1 + UInt32.ofNat k := by
          rw [UInt32.ofNat_add, UInt32.add_comm (UInt32.ofNat k), ← UInt32.add_assoc]
          rfl
        rw [hsum]
        exact hall k (by omega)
    · cases h

/-- The search among all ids finds one without an entry if there is one. -/
theorem freeId_finds {channels : UInt32 → Option Channel} (last : UInt32) {id : UInt32}
    (hid : channels id = none) : ∃ found, freeId channels (2 ^ 32) last = .ok found := by
  cases hsearch : freeId channels (2 ^ 32) last with
  | ok found => exact ⟨found, rfl⟩
  | error e =>
    obtain ⟨-, hall⟩ := freeId_error hsearch
    have hsome := hall (id - (last + 1)).toNat (UInt32.toNat_lt _)
    have hback : last + 1 + UInt32.ofNat (id - (last + 1)).toNat = id := by
      rw [UInt32.ofNat_toNat, UInt32.add_comm, UInt32.sub_add_cancel]
    rw [hback, hid] at hsome
    cases hsome

variable [Deps]

/-- `new_channel_id` counts on to an id without an entry. -/
theorem newChannelId_ok {enc enc' : Encrypted} {id : UInt32}
    (h : enc.newChannelId = .ok (id, enc')) :
    enc.channels id = none ∧ enc' = { enc with lastChannelId := id } := by
  obtain ⟨found, hfound, hrest⟩ := ok_of_bind h
  cases hrest
  exact ⟨freeId_ok hfound, rfl⟩

/-- `new_channel_id` finds an id while there is one without an entry. -/
theorem newChannelId_finds (enc : Encrypted) {id : UInt32} (hid : enc.channels id = none) :
    ∃ found, enc.newChannelId = .ok (found, { enc with lastChannelId := found }) := by
  obtain ⟨found, hfound⟩ := freeId_finds enc.lastChannelId hid
  refine ⟨found, ?_⟩
  unfold Encrypted.newChannelId
  rw [hfound]
  rfl

/-- `new_channel_id` fails only by never ending. -/
theorem newChannelId_error {enc : Encrypted} {e : Fault} (h : enc.newChannelId = .error e) :
    e = .diverge ∧ ∀ id, enc.channels id ≠ none := by
  have hdiverge : e = .diverge := by
    unfold Encrypted.newChannelId at h
    cases hsearch : freeId enc.channels (2 ^ 32) enc.lastChannelId with
    | ok found =>
      rw [hsearch] at h
      cases h
    | error e' =>
      rw [hsearch] at h
      cases h
      exact (freeId_error hsearch).1
  refine ⟨hdiverge, fun id hid => ?_⟩
  obtain ⟨found, hfound⟩ := newChannelId_finds enc hid
  rw [hfound] at h
  cases h

/-- `new_channel` adds an entry, not confirmed yet, under an id without one. -/
theorem newChannel_ok {enc enc' : Encrypted} {windowSize maxpacket id : UInt32}
    (h : enc.newChannel windowSize maxpacket = .ok (id, enc')) :
    enc.channels id = none ∧ enc' = Encrypted.insertChannel { enc with lastChannelId := id } id
      ⟨0, id, 0, windowSize, 0, maxpacket, false, false, []⟩ := by
  obtain ⟨⟨found, enc1⟩, hfound, hrest⟩ := ok_of_bind h
  cases hrest
  obtain ⟨hnone, henc⟩ := newChannelId_ok hfound
  exact ⟨hnone, by rw [henc]⟩

end Thrussh
