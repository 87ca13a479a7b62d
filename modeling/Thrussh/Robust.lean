import Thrussh.Lib.Fails
import Thrussh.PeerWindow

/-!
# Errors that the code returns

A step of a session is robust where every fault of it is an error that the
code returns: no panic, no overflow, no loop without an end. The readers of
the wire format are robust on all bytes, and so is everything that only
reads. What is left are the arithmetic on the window of the peer and the
queue behind it.
-/

namespace Thrussh

open Lib

/-- An error that the code returns. -/
def Fault.Returned (e : Fault) : Prop := ¬ e.Crash

theorem Fault.returned_error (e : Error) : (Fault.error e).Returned := fun h => h

instance : DecidablePred Fault.Crash := fun e =>
  match e with
  | .error _ => isFalse fun h => h
  | .panic => isTrue trivial
  | .overflow => isTrue trivial
  | .diverge => isTrue trivial

/-- A run that fails otherwise shows that a program is not robust. -/
theorem not_fails_of_error {σ α : Type} {x : EStateM Fault σ α} {s t : σ} {e : Fault}
    (hx : x s = .error e t) (he : e.Crash) : ¬ Fails Fault.Returned x s :=
  fun h => h e t hx he

/-- Whether a run can be seen to crash. -/
def crashes {σ α : Type} (x : EStateM Fault σ α) (s : σ) : Bool :=
  match x s with
  | .ok _ _ => false
  | .error e _ => decide e.Crash

theorem not_fails_of_crashes {σ α : Type} {x : EStateM Fault σ α} {s : σ}
    (h : crashes x s = true) : ¬ Fails Fault.Returned x s := by
  unfold crashes at h
  cases hx : x s with
  | ok a t =>
    rw [hx] at h
    cases h
  | error e t =>
    rw [hx] at h
    exact not_fails_of_error hx (of_decide_eq_true h)

/-! ### Readers -/

theorem readByte_errors (r : Position) : Errors Fault.Returned r.readByte := by
  unfold Position.readByte
  split
  · exact .ok _
  · exact .error (Fault.returned_error _)

theorem readU32_errors (r : Position) : Errors Fault.Returned r.readU32 := by
  unfold Position.readU32
  split
  · exact .ok _
  · exact .error (Fault.returned_error _)

theorem readString_errors (r : Position) : Errors Fault.Returned r.readString := by
  unfold Position.readString
  refine (readU32_errors r).bind fun ⟨n, r⟩ _ => ?_
  by_cases h : r.position + n.toNat ≤ r.s.length
  · simp only [if_pos h]
    exact .ok _
  · simp only [if_neg h]
    exact .error (Fault.returned_error _)

theorem fromUtf8_errors (s : Bytes) : Errors Fault.Returned (fromUtf8 s) := by
  unfold fromUtf8
  split
  · exact .ok _
  · exact .error (Fault.returned_error _)

theorem Sig.fromName_errors (name : Bytes) : Errors Fault.Returned (Sig.fromName name) := by
  unfold Sig.fromName
  split
  · exact .ok _
  · exact (fromUtf8_errors name).bind fun _ _ => .ok _

theorem selectOr_errors (e : Error) (role : Role) (ours : List Bytes) (theirs : Bytes) :
    Errors Fault.Returned (selectOr e role ours theirs) := by
  unfold selectOr
  split
  · exact .ok _
  · exact .error (Fault.returned_error _)

/-- A KEXINIT of any length and contents is read, or refused with an error. -/
theorem readKex_errors (role : Role) (buf : Bytes) (pref : Preferred) :
    Errors Fault.Returned (readKex role buf pref) := by
  unfold readKex
  refine (readString_errors _).bind fun ⟨kexString, r⟩ _ => ?_
  refine (selectOr_errors _ _ _ _).bind fun ⟨kexBothFirst, kex⟩ _ => ?_
  refine (readString_errors _).bind fun ⟨keyString, r⟩ _ => ?_
  refine (selectOr_errors _ _ _ _).bind fun ⟨keyBothFirst, key⟩ _ => ?_
  refine (readString_errors _).bind fun ⟨cipherString, r⟩ _ => ?_
  refine (selectOr_errors _ _ _ _).bind fun ⟨_, cipher⟩ _ => ?_
  refine (readString_errors _).bind fun ⟨_, r⟩ _ => ?_
  refine (readString_errors _).bind fun ⟨macString, r⟩ _ => ?_
  refine (readString_errors _).bind fun ⟨_, r⟩ _ => ?_
  refine (readString_errors _).bind fun ⟨clientString, r⟩ _ => ?_
  refine (selectOr_errors _ _ _ _).bind fun ⟨_, clientCompression⟩ _ => ?_
  refine (readString_errors _).bind fun ⟨serverString, r⟩ _ => ?_
  refine (selectOr_errors _ _ _ _).bind fun ⟨_, serverCompression⟩ _ => ?_
  refine (readString_errors _).bind fun ⟨_, r⟩ _ => ?_
  refine (readString_errors _).bind fun ⟨_, r⟩ _ => ?_
  exact (readByte_errors _).bind fun _ _ => .ok _

/-! ### Grants of the peer -/

section
variable [Deps]

/-- What flushing a queue counts is what it takes off the window. -/
theorem flushPendingLoop_total {pending : List (Bytes × Option UInt32 × Nat)}
    {enc enc' : Encrypted} {ch ch' : Channel} {total total' : Nat}
    (hfits : QueueFits ch.recipientMaximumPacketSize.toNat pending ch.recipientWindowSize.toNat)
    (h : flushPendingLoop pending enc ch total = .ok (enc', ch', total')) :
    total' + ch'.recipientWindowSize.toNat = total + ch.recipientWindowSize.toNat := by
  induction pending generalizing enc ch total with
  | nil =>
    cases h
    rfl
  | cons entry rest ih =>
    obtain ⟨buf, a, start⟩ := entry
    obtain ⟨hpart, hrest⟩ := hfits
    obtain ⟨window, chunks, hsend, -, hlength, hwindow⟩ :=
      sendChunks_fits enc (dataPacket ch.recipientChannel) hpart
    simp only [flushPendingLoop, Encrypted.dataNoqueue, hsend, bind, Except.bind] at h
    by_cases hlt : partEnd ch.recipientWindowSize.toNat buf - start < buf.length
    · rw [if_pos hlt] at h
      cases h
      simp only
      omega
    · have hleft : window.toNat = ch.recipientWindowSize.toNat -
          (partEnd ch.recipientWindowSize.toNat buf - start) := by omega
      have hqueue : QueueFits ch.recipientMaximumPacketSize.toNat rest window.toNat := by
        rw [hleft]
        exact hrest (by omega)
      rw [if_neg hlt] at h
      have htotal := @ih _ { ch with recipientWindowSize := window } _ hqueue h
      simp only at htotal
      omega

/-- What a grant needs: the window has room for it, and the queue can be
flushed behind it. -/
def Channel.Grants (ch : Channel) (amount : UInt32) : Prop :=
  ch.recipientWindowSize.toNat + amount.toNat < 2 ^ 32 ∧
    QueueFits ch.recipientMaximumPacketSize.toNat ch.pendingData
      (ch.recipientWindowSize.toNat + amount.toNat)

instance (ch : Channel) (amount : UInt32) : Decidable (ch.Grants amount) :=
  inferInstanceAs (Decidable (_ ∧ _))

omit [Deps] in
/-- A window with room for a grant. -/
theorem addWindow_room {ch : Channel} {amount : UInt32}
    (h : ch.recipientWindowSize.toNat + amount.toNat < 2 ^ 32) :
    ch.addWindow amount = .ok { ch with recipientWindowSize := ch.recipientWindowSize + amount } ∧
      (ch.recipientWindowSize + amount).toNat = ch.recipientWindowSize.toNat + amount.toNat := by
  constructor
  · unfold Channel.addWindow
    rw [if_pos h]
  · rw [UInt32.toNat_add]
    exact Nat.mod_eq_of_lt h

/-- As far as it can be read, the window of the channel that a CHANNEL_WINDOW_ADJUST
names has room for its amount. -/
def Encrypted.HasRoom (enc : Encrypted) (buf : Bytes) : Prop :=
  ∀ id r amount r' ch, (reader buf 1).readU32 = .ok (id, r) → r.readU32 = .ok (amount, r') →
    enc.channels id = some ch → ch.recipientWindowSize.toNat + amount.toNat < 2 ^ 32

/-- A grant is added to its window, or refused with an error. -/
theorem adjustRecipientWindow_errors {enc : Encrypted} {buf : Bytes} {id amount : UInt32}
    {r r' : Position} (h : enc.HasRoom buf) (hid : (reader buf 1).readU32 = .ok (id, r))
    (hamount : r.readU32 = .ok (amount, r')) :
    Errors Fault.Returned (enc.adjustRecipientWindow id amount) := by
  unfold Encrypted.adjustRecipientWindow
  cases hch : enc.channels id with
  | none => exact .error (Fault.returned_error _)
  | some ch =>
    obtain ⟨hadd, -⟩ := addWindow_room (h id r amount r' ch hid hamount hch)
    dsimp only
    rw [hadd]
    exact .ok _

/-- Behind a grant that fits, the queue is flushed, and no more is counted
than the window has. -/
theorem flushPending_grants {enc : Encrypted} {id : UInt32} {ch : Channel} {amount : UInt32}
    (hch : enc.channels id = some ch) (h : ch.Grants amount) :
    ∃ enc₁ enc₂ size, enc.adjustRecipientWindow id amount =
        .ok (ch.recipientWindowSize + amount, enc₁) ∧
      enc₁.flushPending id = .ok (enc₂, size) ∧
      UInt32.ofNat size ≤ ch.recipientWindowSize + amount := by
  obtain ⟨hroom, hqueue⟩ := h
  obtain ⟨hadd, hsum⟩ := addWindow_room hroom
  set ch₁ := { ch with recipientWindowSize := ch.recipientWindowSize + amount } with hch₁
  have hfits : QueueFits ch₁.recipientMaximumPacketSize.toNat ch₁.pendingData
      ch₁.recipientWindowSize.toNat := by
    rw [← hsum] at hqueue
    exact hqueue
  obtain ⟨ch₂, chunks, size, hloop, -⟩ :=
    flushPendingLoop_fits (enc.setChannel id ch₁) ch₁ 0 hfits
  have htotal : size + ch₂.recipientWindowSize.toNat = 0 + (ch.recipientWindowSize + amount).toNat :=
    flushPendingLoop_total hfits hloop
  have hsize : size ≤ (ch.recipientWindowSize + amount).toNat := by omega
  have hentry : (enc.setChannel id ch₁).channels id = some ch₁ := Function.update_self ..
  refine ⟨enc.setChannel id ch₁, _, size, ?_, flushPending_of_loop hentry hloop, ?_⟩
  · simp only [Encrypted.adjustRecipientWindow, hch, hadd, bind, Except.bind, hch₁]
  · have hlt := (ch.recipientWindowSize + amount).toNat_lt
    rw [UInt32.le_iff_toNat_le, UInt32.toNat_ofNat', Nat.mod_eq_of_lt (by omega)]
    exact hsize

/-- A grant that does not fit is a crash: of the addition, or of the flush behind it. -/
theorem flushPending_crashes {enc : Encrypted} {id : UInt32} {ch : Channel} {amount : UInt32}
    (hch : enc.channels id = some ch) (h : ¬ ch.Grants amount) :
    (∃ e : Fault, e.Crash ∧ enc.adjustRecipientWindow id amount = .error e) ∨
    ∃ enc₁, enc.adjustRecipientWindow id amount = .ok (ch.recipientWindowSize + amount, enc₁) ∧
      ∃ e : Fault, e.Crash ∧ enc₁.flushPending id = .error e := by
  by_cases hroom : ch.recipientWindowSize.toNat + amount.toNat < 2 ^ 32
  · right
    obtain ⟨hadd, hsum⟩ := addWindow_room hroom
    set ch₁ := { ch with recipientWindowSize := ch.recipientWindowSize + amount } with hch₁
    have hqueue : ¬ QueueFits ch₁.recipientMaximumPacketSize.toNat ch₁.pendingData
        ch₁.recipientWindowSize.toNat := by
      intro hqueue
      refine h ⟨hroom, ?_⟩
      rw [← hsum]
      exact hqueue
    obtain ⟨e, hcrash, hloop⟩ := flushPendingLoop_crashes (enc.setChannel id ch₁) ch₁ 0 hqueue
    have hentry : (enc.setChannel id ch₁).channels id = some ch₁ := Function.update_self ..
    refine ⟨enc.setChannel id ch₁, ?_, e, hcrash, ?_⟩
    · simp only [Encrypted.adjustRecipientWindow, hch, hadd, bind, Except.bind, hch₁]
    · simp only [Encrypted.flushPending, hentry, hloop, bind, Except.bind]
  · left
    refine ⟨.overflow, trivial, ?_⟩
    simp only [Encrypted.adjustRecipientWindow, hch, Channel.addWindow, if_neg hroom, bind,
      Except.bind]

end

end Thrussh
