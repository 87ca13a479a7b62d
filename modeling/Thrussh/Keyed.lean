import Thrussh.Roles

/-!
# The keys that sessions open with

A session opens with the clear key until its first exchange is over, and
with a key of an exchange from then on: it is encrypted exactly when the
pair in use does not open in the clear.
-/

namespace Thrussh

open Lib

variable [Deps] {C : Type} {s t : CommonSession C} {P : Bytes → Prop}

/-- The pair in use, and the one to be installed, fit the state of a session. -/
structure CommonSession.Keyed (s : CommonSession C) : Prop where
  /-- The session is encrypted as soon as it does not open in the clear. -/
  key : s.encrypted.isSome = true ↔ s.cipher.remoteToLocal ≠ .clear
  /-- Nothing is installed that opens in the clear. -/
  newKeys : ∀ newkeys, s.exchanging = some (.newKeys newkeys) →
    newkeys.cipher.remoteToLocal ≠ .clear

/-- A step that installs no pair, and derives none. -/
structure CommonSession.KeepsKeys (s t : CommonSession C) : Prop where
  /-- The pair in use stays. -/
  cipher : t.cipher = s.cipher
  /-- The session stays encrypted, or not. -/
  encrypted : t.encrypted.isSome = s.encrypted.isSome
  /-- The exchange stays, or it does not wait for NEWKEYS. -/
  exchanging : t.exchanging = s.exchanging ∨ t.phase ≠ .newKeys

theorem CommonSession.Keyed.keep (hs : s.Keyed) (h : s.KeepsKeys t) : t.Keyed := by
  refine ⟨?_, fun newkeys hnew => ?_⟩
  · rw [h.encrypted, h.cipher]
    exact hs.key
  · rcases h.exchanging with hsame | hphase
    · exact hs.newKeys newkeys (hsame ▸ hnew)
    · exact absurd (phase_of_exchanging hnew) hphase

/-- Steps that leave the records of the exchange install nothing. -/
theorem keepsKeys_of_records (hcipher : t.cipher = s.cipher) (hkex : t.kex = s.kex)
    (henc : Option.Rel (fun e e' => e'.rekey = e.rekey ∧ e'.exchange = e.exchange)
      s.encrypted t.encrypted) : s.KeepsKeys t := by
  refine ⟨hcipher, isSome_of_rel henc, .inl ?_⟩
  unfold CommonSession.exchanging
  generalize s.encrypted = a at henc
  generalize t.encrypted = b at henc
  cases henc with
  | none => exact hkex
  | some h => exact h.1

/-- Packets of an exchange that leave it in another phase install nothing. -/
theorem Seals.keepsKeys {packets : List (Origin × Bytes)} (h : Seals s t packets)
    (hphase : t.phase ≠ .newKeys) : s.KeepsKeys t :=
  ⟨by rw [h.same], isSome_of_rel h.encrypted, .inr hphase⟩

/-- Every packet of an exchange leaves the keys in order. -/
theorem Advance.keyed {buf : Bytes} (h : Advance buf s t) (hs : s.Keyed) : t.Keyed := by
  cases h with
  | skip hsame =>
    rw [hsame]
    exact hs
  | answer _ ht hseals _ => exact hs.keep (hseals.keepsKeys (by rw [ht]; decide))
  | serve _ ht hseals => exact hs.keep (hseals.keepsKeys (by rw [ht]; decide))
  | guess _ ht hseals => exact hs.keep (hseals.keepsKeys (by rw [ht]; decide))
  | drop _ _ _ ht hseals => exact hs.keep (hseals.keepsKeys (by rw [ht]; decide))
  | finish _ _ hseals _ hkeyed =>
    obtain ⟨newkeys, hnew, hne⟩ := hkeyed
    refine ⟨?_, fun newkeys' hnew' => ?_⟩
    · rw [isSome_of_rel hseals.encrypted, hseals.same]
      exact hs.key
    · rw [hnew] at hnew'
      cases hnew'
      exact hne
  | install _ ht hinstalls =>
    obtain ⟨newkeys, hnew, hpair⟩ := hinstalls.pair
    have hsome : t.encrypted.isSome = true := by
      have henc := hinstalls.encrypted
      cases hs' : s.encrypted with
      | none =>
        rw [hs'] at henc
        obtain ⟨enc', ht', -⟩ := henc
        rw [ht']
        rfl
      | some enc =>
        rw [hs'] at henc
        obtain ⟨enc', ht', -⟩ := henc
        rw [ht']
        rfl
    refine ⟨iff_of_true hsome ?_, fun newkeys' hnew' => ?_⟩
    · rw [hpair]
      exact hs.newKeys newkeys hnew
    · rw [phase_of_exchanging hnew'] at ht
      cases ht

variable [SessionConfig C]

theorem FlushStep.keepsKeys (h : FlushStep s t) : s.KeepsKeys t := by
  cases h with
  | none h => exact ⟨rfl, rfl, .inl rfl⟩
  | packets h =>
    refine keepsKeys_of_records (by rw [h.session]) (by rw [h.session]) ?_
    rw [h.encrypted, h.encrypted_eq]
    exact .some (by rw [h.same]; exact ⟨rfl, rfl⟩)
  | rekey h hwrite hcursor hrekey hex =>
    refine ⟨?_, ?_, .inr (fun hphase => ?_)⟩
    · have hcipher := congrArg CommonSession.cipher h.session
      exact hcipher
    · rw [h.encrypted]
      rfl
    · cases hphase

theorem Turn.keepsKeys (h : Turn P s t) : s.KeepsKeys t := by
  cases h with
  | busy h =>
    cases h with
    | quiet h => exact keepsKeys_of_records (by rw [h.same]) h.records.1 h.records.2
    | flush h => exact h.keepsKeys
  | staged h => exact keepsKeys_of_records (by rw [h.same]) h.records.1 h.records.2

omit [SessionConfig C] in
theorem Local.keepsKeys (h : Local P s t) : s.KeepsKeys t := by
  cases h with
  | quiet h => exact keepsKeys_of_records (by rw [h.same]) h.records.1 h.records.2
  | staged h => exact keepsKeys_of_records (by rw [h.same]) h.records.1 h.records.2
  | service hpayload h =>
    subst h
    refine keepsKeys_of_records rfl rfl ?_
    dsimp only
    cases s.encrypted with
    | none => exact .none
    | some e => exact .some ⟨rfl, rfl⟩

/-- Every run keeps the keys of its session in order. -/
theorem keyed_invariant (P : Bytes → Prop) :
    Invariant P (fun _ _ => True) (CommonSession.Keyed (C := C)) CommonSession.Keyed
      fun _ => True where
  enter _ := id
  leave _ _ := trivial
  inflate s enc decompress henc hs := by
    refine hs.keep (keepsKeys_of_records rfl rfl ?_)
    rw [henc]
    exact .some ⟨rfl, rfl⟩
  advance _ _ _ hs _ _ h := h.keyed hs
  seals _ _ _ _ _ _ := trivial
  turn _ _ hs _ _ h := hs.keep h.keepsKeys
  message s t _ hs _ _ _ h := by
    induction h with
    | refl => exact hs
    | tail _ h ih => exact ih.keep h.keepsKeys
  flush s t hs _ h := by
    have hstep := flush_final s
    rw [h] at hstep
    have ht := hs.keep hstep.keepsKeys
    exact ⟨ht.key, ht.newKeys⟩
  settle _ _ hs h := hs.keep (keepsKeys_of_records (by rw [h.same]) h.records.1 h.records.2)

omit [SessionConfig C] in
/-- The keys of a session are in order before its first turn. -/
theorem CommonSession.Initial.keyed (hs : s.Initial) : s.Keyed := by
  obtain ⟨k, hk, -⟩ := hs.kex
  refine ⟨iff_of_false ?_ ?_, fun newkeys hnew => ?_⟩
  · rw [hs.encrypted]
    exact Bool.false_ne_true
  · rw [hs.cipher]
    exact fun hne => hne rfl
  · rw [exchanging_none hs.encrypted, hk] at hnew
    cases hnew

end Thrussh
