import Thrussh.PeerWindow
import Thrussh.Table

/-!
# Entries that stay

What becomes of the entry of a confirmed channel: until the peer closes the
channel, the peer's number for it and the size of the peer's packets stay, and
its window changes only by the data that are sent and by what the peer
grants. A CHANNEL_OPEN_CONFIRMATION for a channel that is confirmed already is
the exception. A channel that is not confirmed yet has been asked for, and has
no data pending.
-/

namespace Thrussh

open Lib

/-- Whether a packet takes a channel out of the table. -/
def Removes (id : UInt32) (buf : Bytes) : Prop :=
  (buf.head? = some msg.CHANNEL_CLOSE ∨ buf.head? = some msg.CHANNEL_OPEN_FAILURE) ∧
    ∃ r, (reader buf 1).readU32 = .ok (id, r)

/-- The channel, number, window and packet size of a CHANNEL_OPEN_CONFIRMATION. -/
def readConfirmation (buf : Bytes) : Except Fault (UInt32 × UInt32 × UInt32 × UInt32) := do
  let (id, r) ← (reader buf 1).readU32
  let (recipient, r) ← r.readU32
  let (window, r) ← r.readU32
  let (maxPacket, _) ← r.readU32
  .ok (id, recipient, window, maxPacket)

/-- Whether a packet is a whole CHANNEL_OPEN_CONFIRMATION for a channel. -/
def Confirms (id : UInt32) (buf : Bytes) : Prop :=
  buf.head? = some msg.CHANNEL_OPEN_CONFIRMATION ∧
    ∃ recipient window maxPacket, readConfirmation buf = .ok (id, recipient, window, maxPacket)

/-- An entry of a confirmed channel and the entry later, when some packets
have been queued and some have been heard. -/
structure Lasts (id : UInt32) (ch ch' : Channel) (queued heard : List Bytes) : Prop where
  /-- The channel is confirmed. -/
  confirmed : ch'.confirmed = true
  /-- The peer's number for it. -/
  recipient : ch'.recipientChannel = ch.recipientChannel
  /-- The size of the peer's packets. -/
  maxPacket : ch'.recipientMaximumPacketSize = ch.recipientMaximumPacketSize
  /-- Data that are sent are taken off its window, and what the peer grants is added. -/
  window : ∃ sent adjusts, sent.Sublist queued ∧ adjusts.Sublist heard ∧
    ch'.recipientWindowSize.toNat + carried ch.recipientChannel sent =
      ch.recipientWindowSize.toNat + granted id adjusts

section
variable {id : UInt32} {ch ch' ch'' : Channel} {queued queued' heard heard' : List Bytes}

/-- An entry of which only other things change. -/
theorem Lasts.of_same (hconfirmed : ch'.confirmed = true)
    (hrecipient : ch'.recipientChannel = ch.recipientChannel)
    (hmax : ch'.recipientMaximumPacketSize = ch.recipientMaximumPacketSize)
    (hwindow : ch'.recipientWindowSize = ch.recipientWindowSize) : Lasts id ch ch' queued heard :=
  ⟨hconfirmed, hrecipient, hmax, [], [], List.nil_sublist _, List.nil_sublist _, by rw [hwindow]; rfl⟩

theorem Lasts.trans (h : Lasts id ch ch' queued heard) (h' : Lasts id ch' ch'' queued' heard') :
    Lasts id ch ch'' (queued ++ queued') (heard ++ heard') := by
  obtain ⟨sent, adjusts, hsent, hadjusts, hwindow⟩ := h.window
  obtain ⟨sent', adjusts', hsent', hadjusts', hwindow'⟩ := h'.window
  rw [h.recipient] at hwindow'
  constructor
  · exact h'.confirmed
  · exact h'.recipient.trans h.recipient
  · exact h'.maxPacket.trans h.maxPacket
  · refine ⟨sent ++ sent', adjusts ++ adjusts', hsent.append hsent', hadjusts.append hadjusts', ?_⟩
    rw [carried_append, granted_append]
    omega

end

section
variable [Deps] {enc enc' enc'' : Encrypted} {id : UInt32} {heard heard' : List Bytes}

/-- The entry of a channel lasts, if the channel is confirmed. -/
def Persists (id : UInt32) (heard : List Bytes) (enc enc' : Encrypted) : Prop :=
  ∀ ch, enc.channels id = some ch → ch.confirmed = true → ∃ ch' queued,
    enc'.channels id = some ch' ∧ enc'.emitted = enc.emitted ++ queued ∧
      Lasts id ch ch' queued heard

/-- What leaves the entry of a channel. -/
theorem Persists.of_same (hchannels : enc'.channels id = enc.channels id)
    (hemitted : enc.emitted <+: enc'.emitted) : Persists id heard enc enc' := by
  intro ch hch hconfirmed
  obtain ⟨queued, hqueued⟩ := hemitted
  exact ⟨ch, queued, hchannels.trans hch, hqueued.symm, .of_same hconfirmed rfl rfl rfl⟩

theorem Persists.trans (h : Persists id heard enc enc') (h' : Persists id heard' enc' enc'') :
    Persists id (heard ++ heard') enc enc'' := by
  intro ch hch hconfirmed
  obtain ⟨ch', queued, hch', hqueued, hlasts⟩ := h ch hch hconfirmed
  obtain ⟨ch'', queued', hch'', hqueued', hlasts'⟩ := h' ch' hch' hlasts.confirmed
  refine ⟨ch'', queued ++ queued', hch'', ?_, hlasts.trans hlasts'⟩
  rw [hqueued', hqueued, List.append_assoc]

/-- A change of another entry. -/
theorem Persists.of_setChannel {id' : UInt32} {ch' : Channel} (queued : List Bytes)
    (hid : id' ≠ id) : Persists id heard enc ((enc.pushAll queued).setChannel id' ch') := by
  refine .of_same ?_ ?_
  · unfold Encrypted.setChannel
    rw [pushAll_channels]
    exact Function.update_of_ne hid.symm _ _
  · simp only [Encrypted.setChannel, pushAll_emitted]
    exact List.prefix_append _ _

/-- What an operation on a channel makes of its own entry. -/
theorem Persists.of_channelOp (op : ChannelOp) (h : enc.channelOp id op = .ok enc')
    (hadjusted : op.adjusted = 0) : Persists id heard enc enc' := by
  intro ch hch hconfirmed
  have hfits : enc.Fits id op := by
    by_contra hnot
    obtain ⟨e, -, herror⟩ := channelOp_crashes hch hnot
    rw [herror] at h
    cases h
  obtain ⟨enc₁, ch', sent, hrun, hexact⟩ := channelOp_fits hch hfits
  rw [hrun] at h
  cases h
  have hwindow := hexact.window
  rw [hadjusted] at hwindow
  refine ⟨ch', sent, hexact.channel, hexact.emitted, ?_⟩
  constructor
  · rw [hexact.same]
    exact hconfirmed
  · rw [hexact.same]
  · rw [hexact.same]
  · exact ⟨sent, [], List.Sublist.refl _, List.nil_sublist _, hwindow⟩

/-- Data on another channel. -/
theorem Persists.of_transmits {packet : Channel → Bytes → Bytes}
    {deed : UInt32 → List Bytes → Deed} {id' : UInt32} (h : Transmits packet deed id' enc enc') (hid : id' ≠ id) : Persists id heard enc enc' := by
  cases h with
  | unknown h => exact .of_same rfl (List.prefix_refl _)
  | known hch => exact .of_setChannel _ hid

/-- Accepting a channel leaves the others. -/
theorem Accepts.persists {asked : Asked} {window maxPacket id' : UInt32}
    (h : Accepts asked window maxPacket enc id' enc') : Persists id heard enc enc' := by
  obtain ⟨hnone, hchannels, hemitted⟩ := h.spec
  by_cases hid : id' = id
  · intro ch hch
    rw [← hid, hnone] at hch
    cases hch
  · refine .of_same ?_ ?_
    · rw [hchannels]
      exact Function.update_of_ne (Ne.symm hid) _ _
    · rw [hemitted]
      exact List.prefix_append _ _

/-- Entries outlast every operation. -/
theorem Operates.persists {replies : Prop} (h : Operates replies enc enc') :
    Persists id heard enc enc' := by
  cases h with
  | idle hchannels hemitted =>
    exact .of_same (congrFun hchannels id) (by simp only [hemitted, List.prefix_rfl])
  | push _ hchannels hemitted =>
    exact .of_same (congrFun hchannels id) (hemitted ▸ List.prefix_append _ _)
  | confirms remote id' window maxPacket => exact .of_same rfl (List.prefix_append _ _)
  | @data _ id' buf0 h =>
    by_cases hid : id' = id
    · subst hid
      exact .of_channelOp (.data buf0) h rfl
    · exact .of_transmits (submit_transmits h) hid
  | @extendedData _ id' ext buf0 h =>
    by_cases hid : id' = id
    · subst hid
      exact .of_channelOp (.extendedData ext buf0) h rfl
    · exact .of_transmits (submit_transmits h) hid
  | @flushPending _ id' total h =>
    by_cases hid : id' = id
    · subst hid
      have hop : enc.channelOp id' .flushPending = .ok enc' := by
        simp only [Encrypted.channelOp, h, bind, Except.bind]
      exact .of_channelOp _ hop rfl
    · exact .of_transmits (flushPending_transmits h) hid
  | @opened enc₁ id' window maxPacket typ rest h =>
    obtain ⟨hnone, henc₁⟩ := newChannel_ok h
    by_cases hid : id' = id
    · intro ch hch
      rw [← hid, hnone] at hch
      cases hch
    · refine .of_same ?_ ?_
      · rw [henc₁]
        exact Function.update_of_ne (Ne.symm hid) _ _
      · rw [henc₁]
        exact List.prefix_append _ _
  | accepted h => exact h.persists
  | answered _ hbody => exact .of_same rfl (List.prefix_append _ _)
  | @replied id' ch' m _ hch hwants hm =>
    by_cases hid : id' = id
    · subst hid
      intro ch hch' hconfirmed
      obtain rfl : ch' = ch := Option.some.inj (hch.symm.trans hch')
      exact ⟨_, _, Function.update_self .., rfl, .of_same hconfirmed rfl rfl rfl⟩
    · refine .of_same ?_ (List.prefix_append _ _)
      exact Function.update_of_ne (Ne.symm hid) _ _

theorem Operations.persists {replies : Prop} (h : Operations replies enc enc') :
    Persists id [] enc enc' := by
  induction h with
  | refl => exact .of_same rfl (List.prefix_refl _)
  | tail _ hstep ih => exact ih.trans hstep.persists

/-- What the peer grants fits into the window, or the increment fails. -/
theorem adjustRecipientWindow_room {id amount newSize : UInt32} {ch : Channel}
    (hch : enc.channels id = some ch) (h : enc.adjustRecipientWindow id amount = .ok (newSize, enc')) :
    newSize.toNat = ch.recipientWindowSize.toNat + amount.toNat := by
  unfold Encrypted.adjustRecipientWindow at h
  rw [hch] at h
  simp only [Channel.addWindow, bind, Except.bind] at h
  by_cases hroom : ch.recipientWindowSize.toNat + amount.toNat < 2 ^ 32
  · rw [if_pos hroom] at h
    cases h
    rw [UInt32.toNat_add, Nat.mod_eq_of_lt hroom]
  · rw [if_neg hroom] at h
    cases h

/-- A change of an entry that leaves what the peer has said of the channel. -/
theorem Persists.of_entry {id' : UInt32} {entry entry' : Channel} (queued : List Bytes)
    (hentry : enc.channels id' = some entry) (hconfirmed : entry'.confirmed = entry.confirmed)
    (hrecipient : entry'.recipientChannel = entry.recipientChannel)
    (hmax : entry'.recipientMaximumPacketSize = entry.recipientMaximumPacketSize)
    (hwindow : entry'.recipientWindowSize = entry.recipientWindowSize) :
    Persists id heard enc ((enc.pushAll queued).setChannel id' entry') := by
  by_cases hid : id' = id
  · subst hid
    intro ch hch hch'
    obtain rfl : entry = ch := Option.some.inj (hentry.symm.trans hch)
    refine ⟨entry', queued, Function.update_self .., ?_, ?_⟩
    · simp only [Encrypted.setChannel, pushAll_emitted]
    · exact .of_same (hconfirmed.trans hch') hrecipient hmax hwindow
  · exact .of_setChannel _ hid

/-- Entries outlast a packet that does not close the channel, and confirms it
only if it is not confirmed yet. -/
theorem Dispatches.persists {buf : Bytes} (h : Dispatches buf enc enc') (hremoves : ¬ Removes id buf)
    (hconfirms : Confirms id buf → ∀ ch, enc.channels id = some ch → ch.confirmed = false) :
    Persists id [buf] enc enc' := by
  cases h with
  | none => exact .of_same rfl (List.prefix_refl _)
  | accepted hhead htyp hchannel hwindow hmax h => exact h.persists
  | @confirmed _ id' asked entry r r1 r2 r3 hhead hid hchannel hwindow hmax hch =>
    by_cases hsame : id' = id
    · subst hsame
      intro ch hch' hconfirmed
      have hread : readConfirmation buf =
          .ok (id', asked.channel, asked.window, asked.maxPacket) := by
        simp only [readConfirmation, hid, hchannel, hwindow, hmax, bind, Except.bind]
      have hnot := hconfirms ⟨hhead, _, _, _, hread⟩ ch hch'
      rw [hnot] at hconfirmed
      cases hconfirmed
    · exact .of_setChannel [] hsame
  | @removed id' r _ hhead hid =>
    by_cases hsame : id' = id
    · subst hsame
      exact absurd ⟨hhead, r, hid⟩ hremoves
    · refine .of_same ?_ (List.prefix_refl _)
      exact Function.update_of_ne (Ne.symm hsame) _ _
  | @received id' target d r _ hhead hid =>
    have hreceives := adjustWindowSize_receives enc id' d target
    generalize (enc.adjustWindowSize id' d target).1 = enc' at hreceives
    cases hreceives with
    | unknown h => exact .of_same rfl (List.prefix_refl _)
    | kept hch hlarge => exact .of_entry [] hch rfl rfl rfl rfl
    | granted hch hsmall => exact .of_entry [_] hch rfl rfl rfl rfl
  | @adjusted _ _ id' amount newSize r r1 hhead hid hamount h =>
    obtain ⟨entry, hentry, -, henc⟩ := adjustRecipientWindow_ok h
    have hroom := adjustRecipientWindow_room hentry h
    subst henc
    by_cases hsame : id' = id
    · subst hsame
      intro ch hch hconfirmed
      obtain rfl : entry = ch := Option.some.inj (hentry.symm.trans hch)
      have hgranted : granted id' [buf] = amount.toNat := by
        simp [granted, readAdjust, hhead, hid, hamount]
      refine ⟨_, [], Function.update_self .., (List.append_nil _).symm, ?_⟩
      refine ⟨hconfirmed, rfl, rfl, [], [buf], List.Sublist.refl _, List.Sublist.refl _, ?_⟩
      rw [hgranted]
      exact hroom
    · exact .of_setChannel [] hsame
  | @wanted _ id' req wants entry r r1 r2 hhead hid hreq hwants hch =>
    exact .of_entry [] hch rfl rfl rfl rfl

/-! ### Channels that are not confirmed -/

/-- Whether a channel has been asked for. -/
def AskedFor (id : UInt32) (emitted : List Bytes) : Prop :=
  ∃ typ window maxPacket rest, channelOpenPacket typ id window maxPacket rest ∈ emitted

/-- Every channel that is not confirmed has been asked for, and no data are pending on it. -/
def Encrypted.Sought (enc : Encrypted) : Prop :=
  ∀ id ch, enc.channels id = some ch → ch.confirmed = false →
    AskedFor id enc.emitted ∧ ch.pendingData = []

omit [Deps] in
theorem AskedFor.mono {emitted emitted' : List Bytes} (h : AskedFor id emitted)
    (hgrows : emitted <+: emitted') : AskedFor id emitted' := by
  obtain ⟨typ, window, maxPacket, rest, hmem⟩ := h
  exact ⟨typ, window, maxPacket, rest, hgrows.subset hmem⟩

/-- Entries that are not confirmed come from such entries. -/
theorem Encrypted.Sought.grow (h : enc.Sought) (hemitted : enc.emitted <+: enc'.emitted)
    (hentries : ∀ id ch', enc'.channels id = some ch' → ch'.confirmed = false →
      ∃ ch, enc.channels id = some ch ∧ ch.confirmed = false ∧
        (ch.pendingData = [] → ch'.pendingData = [])) : enc'.Sought := by
  intro id ch' hch' hconfirmed
  obtain ⟨ch, hch, hnot, hpending⟩ := hentries id ch' hch' hconfirmed
  obtain ⟨hasked, hnone⟩ := h id ch hch hnot
  exact ⟨hasked.mono hemitted, hpending hnone⟩

/-- The entries are from before. -/
theorem Encrypted.Sought.of_channels (h : enc.Sought) (hemitted : enc.emitted <+: enc'.emitted)
    (hchannels : ∀ id ch, enc'.channels id = some ch → enc.channels id = some ch) : enc'.Sought :=
  h.grow hemitted fun id ch' hch' hnot => ⟨ch', hchannels id ch' hch', hnot, fun hnone => hnone⟩

/-- An entry that is changed, and confirmed if it was. -/
theorem Encrypted.Sought.of_entry {id' : UInt32} {entry entry' : Channel} (queued : List Bytes)
    (h : enc.Sought) (hentry : enc.channels id' = some entry)
    (hkept : entry'.confirmed = false →
      entry.confirmed = false ∧ (entry.pendingData = [] → entry'.pendingData = [])) :
    ((enc.pushAll queued).setChannel id' entry').Sought := by
  refine h.grow ?_ fun id ch' hch' hnot => ?_
  · simp only [Encrypted.setChannel, pushAll_emitted]
    exact List.prefix_append _ _
  · by_cases hid : id = id'
    · subst hid
      have hsame : entry' = ch' := by simpa [Encrypted.setChannel] using hch'
      rw [← hsame] at hnot ⊢
      exact ⟨entry, hentry, hkept hnot⟩
    · refine ⟨ch', ?_, hnot, fun hnone => hnone⟩
      simpa [Encrypted.setChannel, hid] using hch'

theorem Encrypted.Sought.of_transmits {packet : Channel → Bytes → Bytes}
    {deed : UInt32 → List Bytes → Deed} {id' : UInt32} (h : enc.Sought)
    (htransmits : Transmits packet deed id' enc enc')
    (hpending : ∀ ch, enc.channels id' = some ch → ch.confirmed = false → ch.pendingData = [] →
      ∀ ch', enc'.channels id' = some ch' → ch'.pendingData = []) : enc'.Sought := by
  cases htransmits with
  | unknown _ => exact h
  | known hch =>
    refine h.of_entry _ hch fun hnot => ⟨hnot, fun hnone => ?_⟩
    exact hpending _ hch hnot hnone _ (Function.update_self ..)

/-- Data are submitted on a channel that is confirmed. -/
theorem submit_confirmed {id' : UInt32} {ext : Option UInt32} {packet : Channel → Bytes → Bytes}
    {buf : Bytes} {ch : Channel} (hsubmit : enc.submit id' ext packet buf = .ok enc')
    (hch : enc.channels id' = some ch) : ch.confirmed = true := by
  by_contra hnot
  unfold Encrypted.submit at hsubmit
  rw [hch] at hsubmit
  dsimp only at hsubmit
  rw [if_neg hnot] at hsubmit
  cases hsubmit

/-- A flush with nothing pending leaves nothing pending. -/
theorem flushPending_none {id' : UInt32} {total : Nat} {ch ch' : Channel}
    (hflush : enc.flushPending id' = .ok (enc', total)) (hch : enc.channels id' = some ch)
    (hnone : ch.pendingData = []) (hch' : enc'.channels id' = some ch') :
    ch'.pendingData = [] := by
  unfold Encrypted.flushPending at hflush
  simp only [hch, hnone, flushPendingLoop, bind, Except.bind] at hflush
  cases hflush
  simp only [Encrypted.note, Encrypted.setChannel, Function.update_self,
    Option.some.injEq] at hch'
  rw [← hch']

theorem Encrypted.Sought.of_submit {id' : UInt32} {ext : Option UInt32}
    {packet : Channel → Bytes → Bytes} {buf : Bytes} (h : enc.Sought)
    (hsubmit : enc.submit id' ext packet buf = .ok enc') : enc'.Sought := by
  refine h.of_transmits (submit_transmits hsubmit) fun ch hch hnot => ?_
  have hconfirmed := submit_confirmed hsubmit hch
  rw [hnot] at hconfirmed
  cases hconfirmed

theorem Accepts.sought {asked : Asked} {window maxPacket id' : UInt32}
    (haccepts : Accepts asked window maxPacket enc id' enc') (h : enc.Sought) : enc'.Sought := by
  obtain ⟨hnone, hchannels, hemitted⟩ := haccepts.spec
  refine h.grow ?_ fun id ch' hch' hnot => ?_
  · rw [hemitted]
    exact List.prefix_append _ _
  · rw [hchannels] at hch'
    by_cases hid : id = id'
    · subst hid
      rw [Function.update_self] at hch'
      cases hch'
      cases hnot
    · rw [Function.update_of_ne hid] at hch'
      exact ⟨ch', hch', hnot, fun hnone => hnone⟩

/-- Only an opening makes an entry that is not confirmed. -/
theorem Operates.sought {replies : Prop} (hoperates : Operates replies enc enc') (h : enc.Sought) :
    enc'.Sought := by
  cases hoperates with
  | idle hchannels hemitted =>
    refine h.of_channels (by simp only [hemitted, List.prefix_rfl]) fun id ch hch => ?_
    rw [← hchannels]
    exact hch
  | push _ hchannels hemitted =>
    refine h.of_channels (hemitted ▸ List.prefix_append _ _) fun id ch hch => ?_
    rw [← hchannels]
    exact hch
  | confirms remote id' window maxPacket =>
    exact h.of_channels (List.prefix_append _ _) fun id ch hch => hch
  | data hdata => exact h.of_submit hdata
  | extendedData hdata => exact h.of_submit hdata
  | flushPending hflush =>
    exact h.of_transmits (flushPending_transmits hflush) fun ch hch _ hnone ch' hch' =>
      flushPending_none hflush hch hnone hch'
  | @opened enc₁ id' window maxPacket typ rest hnew =>
    obtain ⟨hnone, henc₁⟩ := newChannel_ok hnew
    intro id ch hch hnot
    rw [henc₁] at hch ⊢
    by_cases hid : id = id'
    · subst hid
      refine ⟨⟨typ, window, maxPacket, rest,
        List.mem_append_right _ (List.mem_singleton.mpr rfl)⟩, ?_⟩
      simp only [Encrypted.push, Encrypted.insertChannel, Encrypted.note, Encrypted.setChannel,
        Function.update_self, Option.some.injEq] at hch
      rw [← hch]
    · have hold : enc.channels id = some ch := by
        simpa [Encrypted.push, hid] using hch
      obtain ⟨hasked, hnone⟩ := h id ch hold hnot
      exact ⟨hasked.mono (List.prefix_append _ _), hnone⟩
  | accepted haccepts => exact haccepts.sought h
  | answered _ _ => exact h.of_channels (List.prefix_append _ _) fun id ch hch => hch
  | @replied id' ch m _ hch _ _ =>
    have hset : Encrypted.Sought ((enc.pushAll []).setChannel id' { ch with wantsReply := false }) :=
      h.of_entry _ hch fun hnot => ⟨hnot, fun hnone => hnone⟩
    exact hset.of_channels (List.prefix_append _ _) fun id ch hch => hch

theorem Operations.sought {replies : Prop} (hoperations : Operations replies enc enc')
    (h : enc.Sought) : enc'.Sought := by
  induction hoperations with
  | refl => exact h
  | tail _ hstep ih => exact hstep.sought ih

theorem Dispatches.sought {buf : Bytes} (hdispatches : Dispatches buf enc enc') (h : enc.Sought) :
    enc'.Sought := by
  cases hdispatches with
  | none => exact h
  | accepted _ _ _ _ _ haccepts => exact haccepts.sought h
  | confirmed _ _ _ _ _ hch => exact h.of_entry [] hch fun hnot => by cases hnot
  | @removed id' r _ hhead hid =>
    refine h.of_channels (List.prefix_refl _) fun id ch hch => ?_
    by_cases hsame : id = id'
    · subst hsame
      simp [Encrypted.removeChannel] at hch
    · simpa [Encrypted.removeChannel, hsame] using hch
  | @received id' target d r _ hhead hid =>
    have hreceives := adjustWindowSize_receives enc id' d target
    generalize (enc.adjustWindowSize id' d target).1 = enc' at hreceives
    cases hreceives with
    | unknown _ => exact h
    | kept hch hlarge => exact h.of_entry [] hch fun hnot => ⟨hnot, fun hnone => hnone⟩
    | granted hch hsmall => exact h.of_entry [_] hch fun hnot => ⟨hnot, fun hnone => hnone⟩
  | adjusted _ _ _ hadjust =>
    obtain ⟨entry, hentry, -, rfl⟩ := adjustRecipientWindow_ok hadjust
    exact h.of_entry [] hentry fun hnot => ⟨hnot, fun hnone => hnone⟩
  | wanted _ _ _ _ hch => exact h.of_entry [] hch fun hnot => ⟨hnot, fun hnone => hnone⟩

end

/-! ### Sessions -/

section
variable [Deps] {C : Type}

/-- The entry of a channel. -/
def CommonSession.entry (s : CommonSession C) (id : UInt32) : Option Channel :=
  s.encrypted.bind (·.channels id)

/-- The entry of a channel lasts in a session, if the channel is confirmed. -/
def CommonSession.Persists (id : UInt32) (heard : List Bytes) (s t : CommonSession C) : Prop :=
  ∀ ch, s.entry id = some ch → ch.confirmed = true → ∃ ch' queued,
    t.entry id = some ch' ∧ t.emitted = s.emitted ++ queued ∧ Lasts id ch ch' queued heard

/-- Every channel that is not confirmed has been asked for, and no data are pending on it. -/
def CommonSession.Sought (s : CommonSession C) : Prop :=
  ∀ id ch, s.entry id = some ch → ch.confirmed = false →
    AskedFor id s.emitted ∧ ch.pendingData = []

variable {s t u : CommonSession C} {enc enc' : Encrypted} {id : UInt32} {heard heard' : List Bytes}

theorem entry_some (h : s.encrypted = some enc) (id : UInt32) : s.entry id = enc.channels id := by
  unfold CommonSession.entry
  rw [h]
  rfl

theorem entry_none (h : s.encrypted = none) (id : UInt32) : s.entry id = none := by
  unfold CommonSession.entry
  rw [h]
  rfl

/-- Sessions that stand at the same have the same entries. -/
theorem entry_of_standing (h : t.standing.map Prod.snd = s.standing.map Prod.snd) (id : UInt32) :
    t.entry id = s.entry id := by
  have hentry : ∀ u : CommonSession C,
      u.entry id = (u.standing.map Prod.snd).bind fun x => x.2.1 id := by
    intro u
    unfold CommonSession.entry CommonSession.standing
    cases u.encrypted with
    | none => rfl
    | some enc => rfl
  rw [hentry t, hentry s, h]

theorem emitted_of_standing (h : t.standing.map Prod.snd = s.standing.map Prod.snd) :
    t.emitted = s.emitted := by
  have hemitted : ∀ u : CommonSession C,
      u.emitted = (u.standing.map Prod.snd).elim [] fun x => x.1 := by
    intro u
    unfold CommonSession.emitted
    cases u.standing with
    | none => rfl
    | some x => rfl
  rw [hemitted t, hemitted s, h]

theorem CommonSession.Persists.of_enc (hs : s.encrypted = some enc) (ht : t.encrypted = some enc')
    (h : Thrussh.Persists id heard enc enc') : s.Persists id heard t := by
  unfold CommonSession.Persists
  rw [entry_some hs, entry_some ht, emitted_some hs, emitted_some ht]
  exact h

theorem CommonSession.Persists.of_none (hs : s.encrypted = none) : s.Persists id heard t := by
  intro ch hch
  rw [entry_none hs] at hch
  cases hch

theorem CommonSession.Persists.of_standing
    (h : t.standing.map Prod.snd = s.standing.map Prod.snd) : s.Persists id heard t := by
  intro ch hch hconfirmed
  refine ⟨ch, [], ?_, ?_, .of_same hconfirmed rfl rfl rfl⟩
  · rw [entry_of_standing h, hch]
  · rw [emitted_of_standing h, List.append_nil]

theorem CommonSession.Persists.trans (h : s.Persists id heard t) (h' : t.Persists id heard' u) :
    s.Persists id (heard ++ heard') u := by
  intro ch hch hconfirmed
  obtain ⟨ch', queued, hch', hqueued, hlasts⟩ := h ch hch hconfirmed
  obtain ⟨ch'', queued', hch'', hqueued', hlasts'⟩ := h' ch' hch' hlasts.confirmed
  refine ⟨ch'', queued ++ queued', hch'', ?_, hlasts.trans hlasts'⟩
  rw [hqueued', hqueued, List.append_assoc]

theorem CommonSession.sought_some (h : s.encrypted = some enc) : s.Sought ↔ enc.Sought := by
  unfold CommonSession.Sought Encrypted.Sought
  simp only [entry_some h, emitted_some h]

theorem CommonSession.sought_none (h : s.encrypted = none) : s.Sought := by
  intro id ch hch
  rw [entry_none h] at hch
  cases hch

theorem CommonSession.Sought.of_standing (hs : s.Sought)
    (h : t.standing.map Prod.snd = s.standing.map Prod.snd) : t.Sought := by
  intro id ch hch hconfirmed
  rw [entry_of_standing h] at hch
  rw [emitted_of_standing h]
  exact hs id ch hch hconfirmed

end

end Thrussh
