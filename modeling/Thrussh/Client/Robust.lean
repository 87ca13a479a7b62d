import Thrussh.Robust
import Thrussh.Opening
import Thrussh.Client.Confirmation

/-!
# The packets of an authenticated server

`client_read_authenticated` with the default handler, on every packet: each
branch returns, or returns an error, but for two. A CHANNEL_OPEN_FAILURE with
a reason code that the protocol does not know is unwrapped, and a
CHANNEL_WINDOW_ADJUST is added to the window and has the queue flushed
behind it. A packet is harmless where neither goes wrong.
-/

namespace Thrussh.Client

open Lib

section
variable [Deps]

/-- What a CHANNEL_OPEN_FAILURE needs: as far as it can be read, a reason code
that the protocol knows. -/
def ReasonKnown (buf : Bytes) : Prop :=
  ∀ id r code r', (reader buf 1).readU32 = .ok (id, r) → r.readU32 = .ok (code, r') →
    ChannelOpenFailure.fromU32 code ≠ none

/-- What a CHANNEL_WINDOW_ADJUST needs: as far as it can be read, a channel of
the table takes its grant. -/
def GrantFits (enc : Encrypted) (buf : Bytes) : Prop :=
  ∀ id r amount r' ch, (reader buf 1).readU32 = .ok (id, r) → r.readU32 = .ok (amount, r') →
    enc.channels id = some ch → ch.Grants amount

/-- A packet that does no harm to an authenticated client. -/
structure Harmless (enc : Encrypted) (buf : Bytes) : Prop where
  /-- The reason of a failure is known. -/
  reason : buf.head? = some msg.CHANNEL_OPEN_FAILURE → ReasonKnown buf
  /-- The grant of a window fits. -/
  grant : buf.head? = some msg.CHANNEL_WINDOW_ADJUST → GrantFits enc buf

variable {app : Application} {s : Session} {enc : Encrypted} {buf : Bytes}

/-! ### The handler -/

/-- The default methods that do not flush only write history. -/
theorem default_calls {callback : Callback}
    (h : ∀ channel newSize, callback ≠ .windowAdjusted channel newSize) :
    ∀ c ∈ (Answer.default callback).calls, ∀ s, Fails Fault.Returned (runCall c) s := by
  have hsend : ∀ channel m s, Fails Fault.Returned (runCall (.sendTo channel m)) s :=
    fun _ _ _ => .modify _
  have hforget : ∀ channel s, Fails Fault.Returned (runCall (.forget channel)) s :=
    fun _ _ => .modify _
  have hreply : ∀ reply s, Fails Fault.Returned (runCall (.sendReply reply)) s :=
    fun _ _ => .modify _
  intro c hc s
  cases callback with
  | windowAdjusted channel newSize => exact absurd rfl (h channel newSize)
  | channelClose channel =>
    rw [List.mem_singleton.mp hc]
    exact hforget channel s
  | channelOpenFailure channel reason description language =>
    rcases List.mem_cons.mp hc with rfl | hc
    · exact hforget channel s
    · rw [List.mem_singleton.mp hc]
      exact hreply _ s
  | onSessionConnected => cases hc
  | authBanner banner => cases hc
  | checkServerKey key => cases hc
  | channelOpenForwardedTcpip => cases hc
  | channelOpenForwardedTcpipClient => cases hc
  | adjustWindow channel window => cases hc
  | _ =>
    rw [List.mem_singleton.mp hc]
    exact hsend _ _ s

/-- A question is always answered. -/
theorem ask_robust (app : Application) (callback : Callback) (s : Session) :
    Fails Fault.Returned (ask app callback) s := fun _ _ h => by cases h

/-- A method that does not flush is robust. -/
theorem finish_robust (hdefault : app.Default) {callback : Callback}
    (hkey : ∀ key, callback ≠ .checkServerKey key)
    (hadjusted : ∀ channel newSize, callback ≠ .windowAdjusted channel newSize) (s : Session) :
    Fails Fault.Returned (finish app callback) s := by
  have hanswer := hdefault s.common.tick callback s hkey
  refine (ask_robust app callback s).bind fun answer t ht => ?_
  have hdefaulted : answer = Answer.default callback := by
    cases ht
    exact hanswer
  rw [hdefaulted]
  refine Fails.bind (.forM (default_calls hadjusted)) fun _ _ _ => ?_
  split
  · exact .throw (Fault.returned_error _)
  · exact .pure _

/-- A change of `enc` that fails only with an error that the code returns. -/
theorem withEnc_robust {α : Type} {f : Encrypted → Except Fault (α × Encrypted)}
    (henc : s.common.encrypted = some enc) (hf : Errors Fault.Returned (f enc)) :
    Fails Fault.Returned (onCommon (withEnc f)) s := by
  refine .zoom ?_
  unfold withEnc
  refine .get_bind ?_
  rw [henc]
  refine .lift_bind hf fun ⟨a, enc'⟩ _ => ?_
  exact Fails.bind (fun _ _ h => by cases h) fun _ _ _ => .pure a

/-! ### The branches -/

theorem clientReadOpenConfirmation_robust (hdefault : app.Default)
    (henc : s.common.encrypted = some enc) (buf : Bytes) :
    Fails Fault.Returned (clientReadOpenConfirmation app buf) s := by
  refine .lift_bind (readU32_errors _) fun ⟨idSend, r⟩ _ => ?_
  refine .lift_bind (readU32_errors _) fun ⟨idRecv, r⟩ _ => ?_
  refine .lift_bind (readU32_errors _) fun ⟨window, r⟩ _ => ?_
  refine .lift_bind (readU32_errors _) fun ⟨maxPacket, r⟩ _ => ?_
  refine Fails.bind (withEnc_robust henc ?_) fun _ t _ => ?_
  · split
    · exact .ok _
    · exact .error (Fault.returned_error _)
  · exact finish_robust hdefault (by simp) (by simp) t

theorem clientReadChannelClose_robust (hdefault : app.Default) (buf : Bytes) :
    Fails Fault.Returned (clientReadChannelClose app buf) s := by
  refine .lift_bind (readU32_errors _) fun ⟨channelNum, r⟩ _ => ?_
  refine Fails.bind (.modify _) fun _ t _ => ?_
  exact finish_robust hdefault (by simp) (by simp) t

/-- The branches that only tell the handler a channel. -/
theorem clientReadChannel_robust (hdefault : app.Default) {callback : UInt32 → Callback}
    (hkey : ∀ channel key, callback channel ≠ .checkServerKey key)
    (hadjusted : ∀ id channel newSize, callback id ≠ .windowAdjusted channel newSize)
    (buf : Bytes) : Fails Fault.Returned (clientReadChannel app callback buf) s := by
  refine .lift_bind (readU32_errors _) fun ⟨channelNum, r⟩ _ => ?_
  exact finish_robust hdefault (hkey channelNum) (hadjusted channelNum) s

/-- A failure whose reason is known is told to the handler. -/
theorem clientReadOpenFailure_robust (hdefault : app.Default) (h : ReasonKnown buf) :
    Fails Fault.Returned (clientReadOpenFailure app buf) s := by
  refine .lift_bind (readU32_errors _) fun ⟨channelNum, r⟩ hid => ?_
  refine .lift_bind (readU32_errors _) fun ⟨code, r'⟩ hcode => ?_
  have hknown := h channelNum r code r' hid hcode
  dsimp only
  cases hreason : ChannelOpenFailure.fromU32 code with
  | none => exact absurd hreason hknown
  | some reasonCode =>
    refine .lift_bind (readString_errors _) fun ⟨descr, r⟩ _ => ?_
    refine .lift_bind (fromUtf8_errors _) fun descr _ => ?_
    refine .lift_bind (readString_errors _) fun ⟨language, r⟩ _ => ?_
    refine .lift_bind (fromUtf8_errors _) fun language _ => ?_
    refine Fails.bind (.modify _) fun _ t _ => ?_
    exact finish_robust hdefault (by simp) (by simp) t

/-- Any other reason is unwrapped. -/
theorem clientReadOpenFailure_panics (h : ¬ ReasonKnown buf) :
    clientReadOpenFailure app buf s = .error .panic s := by
  unfold ReasonKnown at h
  simp only [not_forall, not_not] at h
  obtain ⟨id, r, code, r', hid, hcode, hnone⟩ := h
  unfold clientReadOpenFailure
  rw [run_bind, run_lift hid]
  dsimp only
  rw [run_bind, run_lift hcode]
  dsimp only
  rw [hnone]
  rfl

/-- Data of any size are taken off the window. -/
theorem clientReceiveData_robust (hdefault : app.Default) (henc : s.common.encrypted = some enc)
    {callback : Callback} (hkey : ∀ key, callback ≠ .checkServerKey key)
    (hadjusted : ∀ channel newSize, callback ≠ .windowAdjusted channel newSize) (id : UInt32)
    (data : Bytes) : Fails Fault.Returned (clientReceiveData app id data callback) s := by
  refine .get_bind ?_
  refine Fails.bind (withEnc_robust henc (.ok _)) fun grants t _ => ?_
  have hfinish : ∀ t, Fails Fault.Returned (finish app callback) t :=
    finish_robust hdefault hkey hadjusted
  dsimp only
  split
  · refine Fails.bind (ask_robust app _ t) fun answer u _ => ?_
    split
    · exact Fails.bind (.modify _) fun _ v _ => hfinish v
    · exact hfinish u
  · exact hfinish t

theorem clientReadData_robust (hdefault : app.Default) (henc : s.common.encrypted = some enc)
    (buf : Bytes) : Fails Fault.Returned (clientReadData app buf) s := by
  refine .lift_bind (readU32_errors _) fun ⟨channelNum, r⟩ _ => ?_
  refine .lift_bind (readString_errors _) fun ⟨data, r⟩ _ => ?_
  exact clientReceiveData_robust hdefault henc (by simp) (by simp) channelNum data

theorem clientReadExtendedData_robust (hdefault : app.Default)
    (henc : s.common.encrypted = some enc) (buf : Bytes) :
    Fails Fault.Returned (clientReadExtendedData app buf) s := by
  refine .lift_bind (readU32_errors _) fun ⟨channelNum, r⟩ _ => ?_
  refine .lift_bind (readU32_errors _) fun ⟨extendedCode, r⟩ _ => ?_
  refine .lift_bind (readString_errors _) fun ⟨data, r⟩ _ => ?_
  exact clientReceiveData_robust hdefault henc (by simp) (by simp) channelNum data

omit [Deps] in
/-- No request type is read so that it goes wrong, and none flushes. -/
theorem channelRequestCallback_errors (channelNum : UInt32) (req : Bytes) (r : Position) :
    Errors Fault.Returned (channelRequestCallback channelNum req r) := by
  unfold channelRequestCallback
  split
  · refine (readString_errors _).bind fun ⟨a, r⟩ _ => ?_
    refine (fromUtf8_errors _).bind fun a _ => ?_
    refine (readU32_errors _).bind fun ⟨b, r⟩ _ => ?_
    refine (readString_errors _).bind fun ⟨c, r⟩ _ => ?_
    refine (fromUtf8_errors _).bind fun c _ => ?_
    exact (readU32_errors _).bind fun _ _ => .ok _
  · split
    · refine (readByte_errors _).bind fun ⟨zero, r⟩ _ => ?_
      exact (readByte_errors _).bind fun _ _ => .ok _
    · split
      · refine (readByte_errors _).bind fun ⟨zero, r⟩ _ => ?_
        exact (readU32_errors _).bind fun _ _ => .ok _
      · split
        · refine (readByte_errors _).bind fun ⟨zero, r⟩ _ => ?_
          refine (readString_errors _).bind fun ⟨name, r⟩ _ => ?_
          refine (Sig.fromName_errors name).bind fun signalName _ => ?_
          refine (readByte_errors _).bind fun ⟨coreDumped, r⟩ _ => ?_
          refine (readString_errors _).bind fun ⟨errorMessage, r⟩ _ => ?_
          refine (fromUtf8_errors _).bind fun errorMessage _ => ?_
          refine (readString_errors _).bind fun ⟨langTag, r⟩ _ => ?_
          exact (fromUtf8_errors _).bind fun _ _ => .ok _
        · exact .ok _

omit [Deps] in
/-- What a request asks the handler is neither a host key nor a window. -/
theorem channelRequestCallback_plain {channelNum : UInt32} {req : Bytes} {r : Position}
    {callback : Callback} (h : channelRequestCallback channelNum req r = .ok (some callback)) :
    (∀ key, callback ≠ .checkServerKey key) ∧
      ∀ channel newSize, callback ≠ .windowAdjusted channel newSize := by
  unfold channelRequestCallback at h
  split at h
  · obtain ⟨⟨a, r⟩, -, h⟩ := ok_of_bind h
    obtain ⟨a, -, h⟩ := ok_of_bind h
    obtain ⟨⟨b, r⟩, -, h⟩ := ok_of_bind h
    obtain ⟨⟨c, r⟩, -, h⟩ := ok_of_bind h
    obtain ⟨c, -, h⟩ := ok_of_bind h
    obtain ⟨⟨d, r⟩, -, h⟩ := ok_of_bind h
    cases h
    constructor <;> simp
  · split at h
    · obtain ⟨⟨zero, r⟩, -, h⟩ := ok_of_bind h
      obtain ⟨⟨can, r⟩, -, h⟩ := ok_of_bind h
      cases h
      constructor <;> simp
    · split at h
      · obtain ⟨⟨zero, r⟩, -, h⟩ := ok_of_bind h
        obtain ⟨⟨status, r⟩, -, h⟩ := ok_of_bind h
        cases h
        constructor <;> simp
      · split at h
        · obtain ⟨⟨zero, r⟩, -, h⟩ := ok_of_bind h
          obtain ⟨⟨name, r⟩, -, h⟩ := ok_of_bind h
          obtain ⟨signalName, -, h⟩ := ok_of_bind h
          obtain ⟨⟨coreDumped, r⟩, -, h⟩ := ok_of_bind h
          obtain ⟨⟨errorMessage, r⟩, -, h⟩ := ok_of_bind h
          obtain ⟨errorMessage, -, h⟩ := ok_of_bind h
          obtain ⟨⟨langTag, r⟩, -, h⟩ := ok_of_bind h
          obtain ⟨langTag, -, h⟩ := ok_of_bind h
          cases h
          constructor <;> simp
        · cases h

theorem clientReadChannelRequest_robust (hdefault : app.Default) (buf : Bytes) :
    Fails Fault.Returned (clientReadChannelRequest app buf) s := by
  refine .lift_bind (readU32_errors _) fun ⟨channelNum, r⟩ _ => ?_
  refine .lift_bind (readString_errors _) fun ⟨req, r⟩ _ => ?_
  refine .lift_bind (channelRequestCallback_errors channelNum req r) fun callback hcallback => ?_
  cases callback with
  | none => exact .pure _
  | some callback =>
    obtain ⟨hkey, hadjusted⟩ := channelRequestCallback_plain hcallback
    exact finish_robust hdefault hkey hadjusted s

theorem clientHandleChannelOpen_robust (hdefault : app.Default) (buf : Bytes) :
    Fails Fault.Returned (clientHandleChannelOpen app buf) s := by
  refine .lift_bind (readString_errors _) fun ⟨typ, r⟩ _ => ?_
  refine .lift_bind (readU32_errors _) fun ⟨senderChannel, r⟩ _ => ?_
  refine .lift_bind (readU32_errors _) fun ⟨window, r⟩ _ => ?_
  refine .lift_bind (readU32_errors _) fun ⟨maxpacket, r⟩ _ => ?_
  dsimp only
  split
  · refine .lift_bind (readString_errors _) fun ⟨address, r⟩ _ => ?_
    refine .lift_bind (readU32_errors _) fun ⟨port, r⟩ _ => ?_
    refine .lift_bind (readString_errors _) fun ⟨origAddr, r⟩ _ => ?_
    refine .lift_bind (readU32_errors _) fun ⟨origPort, r⟩ _ => ?_
    exact finish_robust hdefault (by simp) (by simp) s
  · exact .modify _

/-! ### A grant -/

/-- The default answer to a grant flushes the queue of its channel. -/
theorem finish_windowAdjusted (hdefault : app.Default) (id newSize : UInt32) (s : Session) :
    ∃ t : Session, t.common = { s.common with tick := s.common.tick + 1 } ∧
      (t.channels = s.channels ∧ t.sent = s.sent) ∧ finish app (.windowAdjusted id newSize) s =
        ((flushAdjusted id newSize >>= fun _ => pure ()) >>= fun _ => pure ()) t := by
  have hanswer := hdefault s.common.tick (.windowAdjusted id newSize) s (by simp)
  refine ⟨{ s with
    common := { s.common with tick := s.common.tick + 1 }
    callbacks := s.callbacks ++ [(.windowAdjusted id newSize,
      Answer.default (.windowAdjusted id newSize))] }, rfl, ⟨rfl, rfl⟩, ?_⟩
  unfold finish
  rw [run_bind]
  unfold ask
  dsimp only
  rw [hanswer]
  rfl

/-- A flush that counts no more than the window has is told to the channel. -/
theorem flushAdjusted_robust {t : Session} {enc₁ enc₂ : Encrypted} {id newSize : UInt32}
    {size : Nat} (henc : t.common.encrypted = some enc₁)
    (hflush : enc₁.flushPending id = .ok (enc₂, size)) (hsize : UInt32.ofNat size ≤ newSize) :
    Fails Fault.Returned (flushAdjusted id newSize) t := by
  have hswap : (enc₁.flushPending id).map Prod.swap = .ok (size, enc₂) := by
    rw [hflush]
    rfl
  have hrun := run_onCommon (f := fun enc => (enc.flushPending id).map Prod.swap) henc hswap
  unfold flushAdjusted
  refine .get_bind ?_
  rw [henc, Option.isSome_some, if_pos rfl]
  refine Fails.bind (fun e u h => ?_) fun n u h => ?_
  · rw [hrun] at h
    cases h
  · rw [hrun] at h
    cases h
    rw [if_pos hsize]
    exact .modify _

/-- A flush that crashes, crashes the handler. -/
theorem flushAdjusted_crashes {t : Session} {enc₁ : Encrypted} {id : UInt32} {e : Fault} (newSize : UInt32)
    (henc : t.common.encrypted = some enc₁) (hflush : enc₁.flushPending id = .error e) :
    ∃ u, flushAdjusted id newSize t = .error e u := by
  unfold flushAdjusted
  rw [run_bind, run_get]
  dsimp only
  rw [henc, Option.isSome_some, if_pos rfl, run_bind]
  simp only [onCommon, zoom, withEnc, run_bind, run_get, henc, hflush, Except.map, run_lift_error]
  exact ⟨_, rfl⟩

/-- A grant that fits is added, and the queue is flushed behind it. -/
theorem clientReadWindowAdjust_robust (hdefault : app.Default)
    (henc : s.common.encrypted = some enc) (h : GrantFits enc buf) :
    Fails Fault.Returned (clientReadWindowAdjust app buf) s := by
  refine .lift_bind (readU32_errors _) fun ⟨id, r⟩ hid => ?_
  refine .lift_bind (readU32_errors _) fun ⟨amount, r'⟩ hamount => ?_
  cases hch : enc.channels id with
  | none =>
    have hwrong : enc.adjustRecipientWindow id amount = .error (.error .wrongChannel) := by
      unfold Encrypted.adjustRecipientWindow
      rw [hch]
    refine Fails.bind (withEnc_robust henc ?_) fun newValue t ht => ?_
    · rw [hwrong]
      exact .error (Fault.returned_error _)
    · obtain ⟨enc', hok, -⟩ := onCommon_withEnc_ok henc ht
      rw [hwrong] at hok
      cases hok
  | some ch =>
    obtain ⟨enc₁, enc₂, size, hadjust, hflush, hsize⟩ :=
      flushPending_grants hch (h id r amount r' ch hid hamount hch)
    have hrun := run_onCommon (f := (·.adjustRecipientWindow id amount)) henc hadjust
    refine Fails.bind (fun e t ht => ?_) fun newValue t ht => ?_
    · rw [hrun] at ht
      cases ht
    · rw [hrun] at ht
      cases ht
      obtain ⟨t, hcommon, -, hfinish⟩ := finish_windowAdjusted hdefault id
        (ch.recipientWindowSize + amount) (s.withEnc enc₁)
      have henc₁ : t.common.encrypted = some enc₁ := by rw [hcommon]; rfl
      have hflushed := flushAdjusted_robust henc₁ hflush hsize
      have hrest := (hflushed.bind fun _ _ _ => .pure ()).bind (f := fun _ => pure ())
        fun _ _ _ => .pure ()
      intro e u hu
      rw [hfinish] at hu
      exact hrest e u hu

/-- A grant that does not fit is a crash. -/
theorem clientReadWindowAdjust_crashes (hdefault : app.Default)
    (henc : s.common.encrypted = some enc) (h : ¬ GrantFits enc buf) :
    ¬ Fails Fault.Returned (clientReadWindowAdjust app buf) s := by
  unfold GrantFits at h
  simp only [not_forall] at h
  obtain ⟨id, r, amount, r', ch, hid, hamount, hch, hnot⟩ := h
  have hstart : clientReadWindowAdjust app buf s =
      (do
        let newValue ← onCommon (withEnc (·.adjustRecipientWindow id amount))
        finish app (.windowAdjusted id newValue)) s := by
    unfold clientReadWindowAdjust
    rw [run_bind, run_lift hid]
    dsimp only
    rw [run_bind, run_lift hamount]
  rcases flushPending_crashes hch hnot with ⟨e, hcrash, hadjust⟩ | ⟨enc₁, hadjust, e, hcrash, hflush⟩
  · have hrun : ∃ t, clientReadWindowAdjust app buf s = .error e t := by
      rw [hstart]
      simp only [onCommon, zoom, withEnc, run_bind, run_get, henc, hadjust, run_lift_error]
      exact ⟨_, rfl⟩
    obtain ⟨t, hrun⟩ := hrun
    exact not_fails_of_error hrun hcrash
  · have hgrant := run_onCommon (f := (·.adjustRecipientWindow id amount)) henc hadjust
    obtain ⟨t, hcommon, -, hfinish⟩ := finish_windowAdjusted hdefault id
      (ch.recipientWindowSize + amount) (s.withEnc enc₁)
    have henc₁ : t.common.encrypted = some enc₁ := by rw [hcommon]; rfl
    obtain ⟨u, hflushed⟩ := flushAdjusted_crashes (ch.recipientWindowSize + amount) henc₁ hflush
    have hrun : clientReadWindowAdjust app buf s = .error e u := by
      rw [hstart, run_bind, hgrant]
      dsimp only
      rw [hfinish, run_bind, run_bind, hflushed]
    exact not_fails_of_error hrun hcrash

/-! ### Every packet -/

/-- With the default handler an authenticated client returns, or returns an
error, on exactly the packets that are harmless: a CHANNEL_OPEN_FAILURE has a
reason code that the protocol knows, and a CHANNEL_WINDOW_ADJUST a grant that
its channel takes. -/
theorem authenticated_robust_iff (hdefault : app.Default) (s : Session) (enc : Encrypted)
    (henc : s.common.encrypted = some enc) (m : UInt8) (rest : Bytes) :
    Fails Fault.Returned (clientReadAuthenticated app (m :: rest)) s ↔
      Harmless enc (m :: rest) := by
  set buf := m :: rest with hbuf
  have hother : ∀ {m : UInt8}, buf.head? = some m → m ≠ msg.CHANNEL_OPEN_FAILURE →
      m ≠ msg.CHANNEL_WINDOW_ADJUST → Harmless enc buf := by
    intro m hhead hfailure hadjust
    constructor
    · intro h
      exact absurd (Option.some.inj (hhead.symm.trans h)) hfailure
    · intro h
      exact absurd (Option.some.inj (hhead.symm.trans h)) hadjust
  unfold clientReadAuthenticated
  split
  · next h =>
    exact iff_of_true (clientReadOpenConfirmation_robust hdefault henc buf)
      (hother h (by decide) (by decide))
  split
  · next h =>
    exact iff_of_true (clientReadChannelClose_robust hdefault buf)
      (hother h (by decide) (by decide))
  split
  · next h =>
    exact iff_of_true (clientReadChannel_robust hdefault (by simp) (by simp) buf)
      (hother h (by decide) (by decide))
  split
  · next h =>
    constructor
    · intro hfails
      constructor
      · intro _
        by_contra hreason
        exact not_fails_of_error (clientReadOpenFailure_panics hreason) trivial hfails
      · intro hadjust
        exact absurd (Option.some.inj (h.symm.trans hadjust)) (by decide)
    · intro hharmless
      exact clientReadOpenFailure_robust hdefault (hharmless.reason h)
  split
  · next h =>
    exact iff_of_true (clientReadData_robust hdefault henc buf) (hother h (by decide) (by decide))
  split
  · next h =>
    exact iff_of_true (clientReadExtendedData_robust hdefault henc buf)
      (hother h (by decide) (by decide))
  split
  · next h =>
    exact iff_of_true (clientReadChannelRequest_robust hdefault buf)
      (hother h (by decide) (by decide))
  split
  · next h =>
    constructor
    · intro hfails
      constructor
      · intro hfailure
        exact absurd (Option.some.inj (h.symm.trans hfailure)) (by decide)
      · intro _
        by_contra hgrant
        exact clientReadWindowAdjust_crashes hdefault henc hgrant hfails
    · intro hharmless
      exact clientReadWindowAdjust_robust hdefault henc (hharmless.grant h)
  split
  · next h =>
    refine iff_of_true ?_ (hother h (by decide) (by decide))
    exact .lift_bind (readString_errors _) fun _ _ => .pure _
  split
  · next h =>
    exact iff_of_true (clientReadChannel_robust hdefault (by simp) (by simp) buf)
      (hother h (by decide) (by decide))
  split
  · next h =>
    exact iff_of_true (clientHandleChannelOpen_robust hdefault buf)
      (hother h (by decide) (by decide))
  · next hfailure _ _ _ hadjust _ _ _ =>
    exact iff_of_true (.pure _) ⟨fun h => absurd h hfailure, fun h => absurd h hadjust⟩

/-- A grant that the channel it names takes is harmless. -/
theorem harmless_adjust (henc : s.common.encrypted = some enc) {id amount : UInt32}
    (h : (s.common.entry id).all (fun ch => decide (ch.Grants amount)) = true) :
    Harmless enc (adjustPacket id amount) := by
  constructor
  · intro hhead
    cases hhead
  · intro _ id' r amount' r' ch hid hamount hch
    obtain ⟨hid', hamount'⟩ := adjustPacket_reads id amount
    obtain ⟨rfl, rfl⟩ : id = id' ∧ _ = r := Prod.mk.inj (Except.ok.inj (hid'.symm.trans hid))
    obtain ⟨rfl, rfl⟩ : amount = amount' ∧ _ = r' :=
      Prod.mk.inj (Except.ok.inj (hamount'.symm.trans hamount))
    rw [entry_some henc, hch] at h
    exact of_decide_eq_true h

end

/-- An application whose handler has the default methods, and accepts every host key. -/
def trusting : @Application Concrete.deps :=
  letI := Concrete.deps
  { Concrete.application with handler := fun _ callback _ =>
      match callback with
      | .checkServerKey _ => ⟨[], false, true, 0⟩
      | callback => Answer.default callback }

theorem trusting_default :
    letI := Concrete.deps
    trusting.Default := by
  let _ := Concrete.deps
  intro n callback s h
  cases callback with
  | checkServerKey key => exact absurd rfl (h key)
  | _ => rfl

/-- Its loop before the first turn. -/
def trustingClient : @Loop (@Session Concrete.deps) :=
  letI := Concrete.deps
  Concrete.returned (connectStream Concrete.clientConfig trusting Concrete.serverConfig.serverId
    Concrete.world) (by decide +kernel)

theorem trustingClient_eq :
    letI := Concrete.deps
    connectStream Concrete.clientConfig trusting Concrete.serverConfig.serverId
      Concrete.world = .ok trustingClient :=
  Concrete.returned_spec _ _

theorem opened_authenticated :
    letI := Concrete.deps
    (trustingClient.run (driver trusting) opened).session.common.encrypted.map (·.state) =
      some .authenticated := by
  decide +kernel

/-- A grant of the server on the channel of `opened`. -/
theorem authenticated_robust_opened :
    letI := Concrete.deps
    Fails Fault.Returned (clientReadAuthenticated trusting (adjustPacket 2 7))
      (trustingClient.run (driver trusting) opened).session := by
  obtain ⟨enc, henc, -⟩ := Option.map_eq_some_iff.mp opened_authenticated
  have hiff := @authenticated_robust_iff Concrete.deps trusting trusting_default _ enc henc
  exact (hiff _ _).mpr (@harmless_adjust Concrete.deps _ _ henc 2 7 (by decide +kernel))

/-- A failure for a reason that the protocol does not know, a grant of more
than the window can hold, and, behind data that the window has cut, a grant
of less than what has been sent of them. -/
theorem authenticated_crashes :
    letI := Concrete.deps
    let l := trustingClient.run (driver trusting) opened
    let l' := l.run (driver trusting) [.message (some (.data 2 (zeros 150))) 0]
    connectStream Concrete.clientConfig trusting Concrete.serverConfig.serverId
      Concrete.world = .ok trustingClient ∧ trusting.Default ∧
    (l.stage = .running ∧ l'.stage = .running) ∧
    (∃ enc, l.session.common.encrypted = some enc ∧ enc.state = .authenticated) ∧
    ¬ Fails Fault.Returned (clientReadAuthenticated trusting
      (msg.CHANNEL_OPEN_FAILURE :: be32 2 ++ be32 9)) l.session ∧
    ¬ Fails Fault.Returned (clientReadAuthenticated trusting
      (adjustPacket 2 4294967295)) l.session ∧
    ¬ Fails Fault.Returned (clientReadAuthenticated trusting (adjustPacket 2 7)) l'.session := by
  have hstate := opened_authenticated
  exact ⟨trustingClient_eq, trusting_default, ⟨by decide +kernel, by decide +kernel⟩,
    Option.map_eq_some_iff.mp hstate, not_fails_of_crashes (by decide +kernel),
    not_fails_of_crashes (by decide +kernel), not_fails_of_crashes (by decide +kernel)⟩

end Thrussh.Client
