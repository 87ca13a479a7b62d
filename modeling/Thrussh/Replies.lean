import Thrussh.Table

/-!
# Replies that are owed

A request on a channel that wants a reply sets a flag in the entry, and a reply
clears it. The replies sent so far, together with the flags that are set, are
no more than the requests that wanted a reply.
-/

namespace Thrussh

open Lib

/-- Whether a packet is a reply that names a channel. -/
def isChannelReply (packet : Bytes) : Bool :=
  packet.length = 5 && (packet.head? = some msg.CHANNEL_SUCCESS ||
    packet.head? = some msg.CHANNEL_FAILURE)

/-- Whether a packet has the number of a reply to a request, global or on a channel. -/
def isReply (packet : Bytes) : Bool :=
  packet.head?.any fun m => m = msg.REQUEST_SUCCESS || m = msg.REQUEST_FAILURE ||
    m = msg.CHANNEL_SUCCESS || m = msg.CHANNEL_FAILURE

/-- A plain packet is no reply. -/
theorem Plain.not_reply {body : Bytes} (h : Plain body) : isChannelReply body = false := by
  unfold isChannelReply
  have hne : ∀ m, body.head? = some m → m ≠ msg.CHANNEL_SUCCESS ∧ m ≠ msg.CHANNEL_FAILURE :=
    fun m hm => ⟨(h m hm).2.2.2.2.2.2.2.1, (h m hm).2.2.2.2.2.2.2.2⟩
  have hsuccess : body.head? ≠ some msg.CHANNEL_SUCCESS := fun hm => (hne _ hm).1 rfl
  have hfailure : body.head? ≠ some msg.CHANNEL_FAILURE := fun hm => (hne _ hm).2 rfl
  simp [hsuccess, hfailure]

/-- A packet of another number is no reply. -/
theorem not_reply_cons {m : UInt8} (h : m ≠ msg.CHANNEL_SUCCESS ∧ m ≠ msg.CHANNEL_FAILURE)
    (rest : Bytes) : isChannelReply (m :: rest) = false := by
  simp [isChannelReply, h.1, h.2]

/-- The channel, the type and the want_reply byte of a CHANNEL_REQUEST, and the reader behind. -/
def readChannelRequest (buf : Bytes) : Except Fault (UInt32 × Bytes × UInt8 × Position) := do
  let (id, r) ← (reader buf 1).readU32
  let (reqType, r) ← r.readString
  let (wantsReply, r) ← r.readByte
  .ok (id, reqType, wantsReply, r)

variable [Deps]

/-- Whether a channel has a request that waits for a reply. -/
def Encrypted.Awaits (enc : Encrypted) (id : UInt32) : Prop :=
  ∃ ch, enc.channels id = some ch ∧ ch.wantsReply = true

/-- Whether a packet is a request on an open channel that wants a reply. -/
def Encrypted.wanted (enc : Encrypted) (buf : Bytes) : Bool :=
  buf.head? = some msg.CHANNEL_REQUEST &&
    match readChannelRequest buf with
    | .ok (id, _, wantsReply, _) => (enc.channels id).isSome && wantsReply ≠ 0
    | .error _ => false

/-- The replies sent and those that may still be sent are at most `n`. -/
def Owes (n : Nat) (enc : Encrypted) : Prop :=
  ∃ awaiting : List UInt32, (∀ id, enc.Awaits id → id ∈ awaiting) ∧
    enc.emitted.countP isChannelReply + awaiting.length ≤ n

section
variable {enc enc' : Encrypted}

/-- Packets are queued, and none is a reply. -/
def Unreplied (enc enc' : Encrypted) : Prop :=
  ∃ packets, enc'.emitted = enc.emitted ++ packets ∧ ∀ packet ∈ packets, isReply packet = false

theorem Unreplied.trans {enc'' : Encrypted} (h : Unreplied enc enc')
    (h' : Unreplied enc' enc'') : Unreplied enc enc'' := by
  obtain ⟨packets, hemitted, hpackets⟩ := h
  obtain ⟨packets', hemitted', hpackets'⟩ := h'
  refine ⟨packets ++ packets', by rw [hemitted', hemitted, List.append_assoc], ?_⟩
  intro packet hpacket
  exact (List.mem_append.mp hpacket).elim (hpackets packet) (hpackets' packet)

theorem Unreplied.of_emitted (h : enc'.emitted = enc.emitted) : Unreplied enc enc' :=
  ⟨[], by rw [h, List.append_nil], by simp⟩

theorem Unreplied.single {b : Bytes} (h : isReply b = false)
    (hemitted : enc'.emitted = enc.emitted ++ [b]) : Unreplied enc enc' :=
  ⟨[b], hemitted, by simpa using h⟩

theorem Transmits.unreplied {packet : Channel → Bytes → Bytes}
    {deed : UInt32 → List Bytes → Deed} {id : UInt32} (h : Transmits packet deed id enc enc')
    (hpacket : ∀ ch chunk, isReply (packet ch chunk) = false) :
    Unreplied enc enc' := by
  cases h with
  | unknown h => exact .of_emitted rfl
  | @known ch window pending chunks hch =>
    refine ⟨chunks.map (packet ch), ?_, ?_⟩
    · rw [note_emitted, setChannel_emitted, pushAll_emitted]
    intro body hbody
    obtain ⟨chunk, -, rfl⟩ := List.mem_map.mp hbody
    exact hpacket ch chunk

/-- Operations without replies queue none. -/
theorem Operates.unreplied (h : Operates False enc enc') : Unreplied enc enc' := by
  cases h with
  | idle hchannels hemitted => exact .of_emitted hemitted
  | @push _ body hplain _ hemitted =>
    refine .single ?_ hemitted
    cases body with
    | nil => rfl
    | cons m rest =>
      have hhead := hplain m rfl
      simp [isReply, hhead.2.2.2.2.2.1, hhead.2.2.2.2.2.2.1, hhead.2.2.2.2.2.2.2.1,
        hhead.2.2.2.2.2.2.2.2]
  | confirms remote id window maxPacket =>
    refine .single ?_ rfl
    rfl
  | data h => exact (submit_transmits h).unreplied fun _ _ => rfl
  | extendedData h => exact (submit_transmits h).unreplied fun _ _ => rfl
  | flushPending h => exact (flushPending_transmits h).unreplied fun _ _ => rfl
  | @opened enc₁ id window maxPacket typ rest h =>
    obtain ⟨-, henc₁⟩ := newChannel_ok h
    refine .single (b := channelOpenPacket typ id window maxPacket rest) rfl ?_
    rw [henc₁]
    rfl
  | accepted h =>
    obtain ⟨-, -, hemitted⟩ := h.spec
    exact .single rfl hemitted
  | answered h => exact h.elim
  | replied h => exact h.elim

theorem Operations.unreplied (h : Operations False enc enc') : Unreplied enc enc' := by
  induction h with
  | refl => exact .of_emitted rfl
  | tail _ hstep ih => exact ih.trans hstep.unreplied

end

section
variable {enc enc' : Encrypted} {n : Nat}

theorem Owes.mono {m : Nat} (h : Owes n enc) (hle : n ≤ m) : Owes m enc := by
  obtain ⟨awaiting, hawaiting, hcount⟩ := h
  exact ⟨awaiting, hawaiting, by omega⟩

/-- What is queued without a reply, and without a new flag, owes no more. -/
theorem Owes.grow {l : List Bytes} (h : Owes n enc) (hemitted : enc'.emitted = enc.emitted ++ l)
    (hbodies : ∀ body ∈ l, isChannelReply body = false)
    (hawaits : ∀ id, enc'.Awaits id → enc.Awaits id) : Owes n enc' := by
  obtain ⟨awaiting, hawaiting, hcount⟩ := h
  have hnone : l.countP isChannelReply = 0 := by
    rw [List.countP_eq_zero]
    intro body hbody
    rw [hbodies body hbody]
    exact Bool.false_ne_true
  refine ⟨awaiting, fun id hid => hawaiting id (hawaits id hid), ?_⟩
  rw [hemitted, List.countP_append, hnone]
  omega

/-- The flags of a table with one entry changed. -/
theorem awaits_setChannel {id id' : UInt32} {ch : Channel} :
    (enc.setChannel id ch).Awaits id' ↔
      if id' = id then ch.wantsReply = true else enc.Awaits id' := by
  unfold Encrypted.Awaits Encrypted.setChannel
  by_cases hid : id' = id
  · simp [hid]
  · simp [hid]

/-- A change of an entry that sets no flag. -/
theorem awaits_of_setChannel {id id' : UInt32} {ch : Channel}
    (hflag : ch.wantsReply = true → enc.Awaits id)
    (h : (enc.setChannel id ch).Awaits id') : enc.Awaits id' := by
  rw [awaits_setChannel] at h
  by_cases hid : id' = id
  · rw [if_pos hid] at h
    rw [hid]
    exact hflag h
  · rwa [if_neg hid] at h

theorem Owes.of_setChannel {id : UInt32} {ch : Channel} (h : Owes n enc)
    (hflag : ch.wantsReply = true → enc.Awaits id) : Owes n (enc.setChannel id ch) :=
  h.grow (l := []) (List.append_nil _).symm (by simp)
    fun _ hset => awaits_of_setChannel hflag hset

theorem Accepts.owes {asked : Asked} {window maxPacket id : UInt32}
    (h : Accepts asked window maxPacket enc id enc') (hn : Owes n enc) : Owes n enc' := by
  obtain ⟨-, hchannels, hemitted⟩ := h.spec
  refine hn.grow hemitted ?_ fun id' hset => ?_
  · intro body hbody
    rw [List.mem_singleton.mp hbody]
    exact not_reply_cons (by decide) _
  · have hset' : (enc.setChannel id (asked.entry id window maxPacket)).Awaits id' := by
      unfold Encrypted.Awaits at hset ⊢
      rwa [hchannels] at hset
    exact awaits_of_setChannel (fun hflag => by cases hflag) hset'

theorem Transmits.owes {packet : Channel → Bytes → Bytes}
    {deed : UInt32 → List Bytes → Deed} {id : UInt32} (h : Transmits packet deed id enc enc')
    (hpacket : ∀ ch chunk, isChannelReply (packet ch chunk) = false) (hn : Owes n enc) :
    Owes n enc' := by
  cases h with
  | unknown h => exact hn
  | @known ch window pending chunks hch =>
    refine hn.grow (l := chunks.map (packet ch)) ?_ ?_ fun id' h => ?_
    · rw [note_emitted, setChannel_emitted, pushAll_emitted]
    · intro body hbody
      obtain ⟨chunk, -, rfl⟩ := List.mem_map.mp hbody
      exact hpacket ch chunk
    · have hawaits : (enc.pushAll (chunks.map (packet ch))).Awaits id' := by
        refine awaits_of_setChannel (fun hflag => ?_) h
        exact ⟨ch, by rw [pushAll_channels, hch], hflag⟩
      unfold Encrypted.Awaits at hawaits
      rwa [pushAll_channels] at hawaits

/-- No operation makes the session owe more. -/
theorem Operates.owes {replies : Prop} (h : Operates replies enc enc') (hn : Owes n enc) :
    Owes n enc' := by
  cases h with
  | idle hchannels hemitted =>
    refine hn.grow (l := []) (by rw [hemitted, List.append_nil]) (by simp) fun id h => ?_
    unfold Encrypted.Awaits at h ⊢
    rwa [← hchannels]
  | push hplain hchannels hemitted =>
    refine hn.grow hemitted (by simpa using hplain.not_reply) fun id h => ?_
    unfold Encrypted.Awaits at h ⊢
    rwa [← hchannels]
  | confirms remote id window maxPacket =>
    refine hn.grow rfl ?_ fun _ h => h
    intro body hbody
    rw [List.mem_singleton.mp hbody]
    exact not_reply_cons (by decide) _
  | data h => exact (submit_transmits h).owes (fun _ _ => not_reply_cons (by decide) _) hn
  | extendedData h => exact (submit_transmits h).owes (fun _ _ => not_reply_cons (by decide) _) hn
  | flushPending h =>
    exact (flushPending_transmits h).owes (fun _ _ => not_reply_cons (by decide) _) hn
  | @opened enc₁ id window maxPacket typ rest h =>
    obtain ⟨-, henc₁⟩ := newChannel_ok h
    refine hn.grow (l := [channelOpenPacket typ id window maxPacket rest]) ?_ ?_
      fun id' h => ?_
    · rw [henc₁]
      rfl
    · intro body hbody
      rw [List.mem_singleton.mp hbody]
      exact not_reply_cons (by decide) _
    · rw [henc₁] at h
      have hawaits : Encrypted.Awaits { enc with lastChannelId := id } id' :=
        awaits_of_setChannel (fun hflag => by cases hflag) h
      exact hawaits
  | accepted h => exact h.owes hn
  | answered _ hbody =>
    refine hn.grow rfl ?_ fun _ h => h
    intro body hmem
    rw [List.mem_singleton.mp hmem]
    rcases hbody with rfl | rfl | rfl <;> rfl
  | @replied id ch m _ hch hwants hm =>
    -- the reply takes the place of the flag
    obtain ⟨awaiting, hawaiting, hcount⟩ := hn
    have hmem : id ∈ awaiting := hawaiting id ⟨ch, hch, hwants⟩
    have hlength : (awaiting.erase id).length + 1 = awaiting.length := by
      have hpositive := List.length_pos_of_mem hmem
      rw [List.length_erase_of_mem hmem]
      omega
    refine ⟨awaiting.erase id, fun id' h => ?_, ?_⟩
    · have hset : (enc.setChannel id { ch with wantsReply := false }).Awaits id' := h
      rw [awaits_setChannel] at hset
      by_cases hid : id' = id
      · rw [if_pos hid] at hset
        cases hset
      · rw [if_neg hid] at hset
        exact (List.mem_erase_of_ne hid).mpr (hawaiting id' hset)
    · have hreply : isChannelReply (m :: be32 ch.recipientChannel) = true := by
        have hlen := length_be32 ch.recipientChannel
        rcases hm with rfl | rfl <;> simp [isChannelReply, hlen]
      have hemitted : ((enc.setChannel id { ch with wantsReply := false }).push
          (m :: be32 ch.recipientChannel)).emitted =
          enc.emitted ++ [m :: be32 ch.recipientChannel] := rfl
      rw [hemitted, List.countP_append, List.countP_singleton, if_pos hreply]
      omega

theorem Operations.owes {replies : Prop} (h : Operations replies enc enc') (hn : Owes n enc) :
    Owes n enc' := by
  induction h with
  | refl => exact hn
  | tail _ hstep ih => exact hstep.owes ih

/-- Only a request on an open channel that wants a reply makes the session owe one more. -/
theorem Dispatches.owes {buf : Bytes} (h : Dispatches buf enc enc') (hn : Owes n enc) :
    Owes (n + if enc.wanted buf then 1 else 0) enc' := by
  have hle : n ≤ n + if enc.wanted buf then 1 else 0 := Nat.le_add_right _ _
  cases h with
  | none => exact hn.mono hle
  | accepted hhead htyp hchannel hwindow hmax h => exact (h.owes hn).mono hle
  | @confirmed _ id asked ch _ _ _ _ hhead hid hchannel hwindow hmax hch =>
    refine Owes.mono (hn.of_setChannel fun hflag => ?_) hle
    exact ⟨ch, hch, hflag⟩
  | @removed id r hhead hid =>
    refine Owes.mono (hn.grow (l := []) (List.append_nil _).symm (by simp) fun id' h => ?_) hle
    obtain ⟨ch, hch, hflag⟩ := h
    unfold Encrypted.removeChannel at hch
    by_cases hid' : id' = id
    · simp [hid'] at hch
    · exact ⟨ch, by simpa [hid'] using hch, hflag⟩
  | @received id target d r hhead hid =>
    have hreceives := adjustWindowSize_receives enc id d target
    generalize (enc.adjustWindowSize id d target).1 = enc' at hreceives
    refine Owes.mono ?_ hle
    cases hreceives with
    | unknown h => exact hn
    | @kept ch hch hlarge => exact hn.of_setChannel fun hflag => ⟨ch, hch, hflag⟩
    | @granted ch hch hsmall =>
      have hpush : Owes n (enc.push (msg.CHANNEL_WINDOW_ADJUST :: be32 ch.recipientChannel ++
          be32 (target - windowLeft ch.senderWindowSize d))) := by
        refine hn.grow rfl ?_ fun _ h => h
        simpa using not_reply_cons (by decide) _
      exact hpush.of_setChannel fun hflag => ⟨ch, hch, hflag⟩
  | adjusted hhead hid hamount h =>
    obtain ⟨ch, hch, -, rfl⟩ := adjustRecipientWindow_ok h
    refine Owes.mono (hn.of_setChannel fun hflag => ?_) hle
    exact ⟨ch, hch, hflag⟩
  | @wanted _ id req wants ch r r1 r2 hhead hid hreq hwants hch =>
    have hread : readChannelRequest buf = .ok (id, req, wants, r2) := by
      simp only [readChannelRequest, hid, hreq, hwants, bind, Except.bind]
    have hwanted : enc.wanted buf = decide (wants ≠ 0) := by
      simp [Encrypted.wanted, hhead, hread, hch]
    by_cases hzero : wants = 0
    · refine Owes.mono (hn.of_setChannel fun hflag => ?_) hle
      simp [hzero] at hflag
    · rw [hwanted]
      obtain ⟨awaiting, hawaiting, hcount⟩ := hn
      refine ⟨id :: awaiting, fun id' h => ?_, ?_⟩
      · rw [awaits_setChannel] at h
        by_cases hid' : id' = id
        · rw [hid']
          exact List.mem_cons_self
        · rw [if_neg hid'] at h
          exact List.mem_cons_of_mem _ (hawaiting id' h)
      · have hset : (enc.setChannel id { ch with wantsReply := decide (wants ≠ 0) }).emitted =
            enc.emitted := rfl
        simp only [hzero, ne_eq, not_false_eq_true, decide_true, if_true, List.length_cons]
        change enc.emitted.countP isChannelReply + _ ≤ _
        omega

/-- A packet that is served makes the session owe one reply at most, and only a
request that wants one. -/
theorem Handles.owes {buf : Bytes} (h : Handles buf enc enc') (hn : Owes n enc) :
    Owes (n + if enc.wanted buf then 1 else 0) enc' := by
  obtain ⟨start, mid, hchannels, hemitted, hdispatches, hoperations⟩ := h.handles
  have hidle : Operates True enc start := .idle hchannels hemitted
  have hmid := hdispatches.owes (hidle.owes hn)
  have hwanted : start.wanted buf = enc.wanted buf := by
    unfold Encrypted.wanted
    rw [hchannels]
  rw [hwanted] at hmid
  exact hoperations.owes hmid

end

end Thrussh
