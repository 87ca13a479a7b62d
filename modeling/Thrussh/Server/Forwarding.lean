import Thrussh.Closing
import Thrussh.Persistence

/-!
# Channels that the server opens

`channel_open_forwarded_tcpip` enters a channel that is not confirmed, and asks
the client for it. The dispatcher has no branch for either answer of the client:
the entry stays as it is, not confirmed, until the client closes the channel.
-/

namespace Thrussh.Server

open Deps Lib

/-- Whether a packet answers the opening of a channel. -/
def AnswersOpening (id : UInt32) (buf : Bytes) : Prop :=
  Confirms id buf ∨
    buf.head? = some msg.CHANNEL_OPEN_FAILURE ∧ ∃ r, (reader buf 1).readU32 = .ok (id, r)

/-- Whether a packet tells the peer of a new channel with a number. -/
def Announces (id : UInt32) (body : Bytes) : Prop :=
  (∃ typ window maxPacket rest, body = channelOpenPacket typ id window maxPacket rest) ∨
    ∃ remote window maxPacket, body = confirmChannelOpenPacket remote id window maxPacket

section
variable [Deps]

/-- A channel whose entry is not confirmed. -/
def Unconfirmed (id : UInt32) (enc : Encrypted) : Prop :=
  ∃ ch, enc.channels id = some ch ∧ ch.confirmed = false

section
variable {enc enc' : Encrypted} {id : UInt32}

/-- A change of an entry that leaves whether the channel is confirmed. -/
theorem Unconfirmed.of_entry {id' : UInt32} {ch ch' : Channel} (bodies : List Bytes)
    (h : Unconfirmed id enc) (hch : enc.channels id' = some ch)
    (hconfirmed : ch'.confirmed = ch.confirmed) :
    Unconfirmed id ((enc.pushAll bodies).setChannel id' ch') := by
  by_cases hid : id = id'
  · subst hid
    obtain ⟨entry, hentry, hnot⟩ := h
    obtain rfl : entry = ch := Option.some.inj (hentry.symm.trans hch)
    exact ⟨ch', Function.update_self .., hconfirmed.trans hnot⟩
  · unfold Unconfirmed
    rw [setChannel_other _ _ hid, pushAll_channels]
    exact h

theorem Unconfirmed.of_channels (h : Unconfirmed id enc)
    (hchannels : enc'.channels id = enc.channels id) : Unconfirmed id enc' := by
  obtain ⟨ch, hch, hnot⟩ := h
  exact ⟨ch, hchannels.trans hch, hnot⟩

theorem Unconfirmed.of_transmits {id' : UInt32} {packet : Channel → Bytes → Bytes}
    {deed : UInt32 → List Bytes → Deed} (h : Unconfirmed id enc)
    (htransmits : Transmits packet deed id' enc enc') :
    Unconfirmed id enc' := by
  cases htransmits with
  | unknown _ => exact h
  | known hch => exact h.of_entry _ hch rfl

/-- A number that is given out was not that of the channel. -/
theorem Unconfirmed.ne {id' : UInt32} (h : Unconfirmed id enc) (hnone : enc.channels id' = none) :
    id ≠ id' := by
  obtain ⟨ch, hch, -⟩ := h
  intro heq
  rw [heq, hnone] at hch
  cases hch

theorem Unconfirmed.of_accepts {id' window maxPacket : UInt32} {asked : Asked}
    (h : Unconfirmed id enc) (haccepts : Accepts asked window maxPacket enc id' enc') :
    Unconfirmed id enc' := by
  obtain ⟨hnone, hchannels, -⟩ := haccepts.spec
  refine h.of_channels ?_
  rw [hchannels]
  exact Function.update_of_ne (h.ne hnone) _ _

/-- No operation confirms a channel. -/
theorem Unconfirmed.operates {replies : Prop} (h : Unconfirmed id enc)
    (hoperates : Operates replies enc enc') : Unconfirmed id enc' := by
  cases hoperates with
  | idle hchannels _ => exact h.of_channels (congrFun hchannels id)
  | push _ hchannels _ => exact h.of_channels (congrFun hchannels id)
  | confirms _ _ _ _ => exact h
  | data hdata => exact h.of_transmits (submit_transmits hdata)
  | extendedData hdata => exact h.of_transmits (submit_transmits hdata)
  | flushPending hflush => exact h.of_transmits (flushPending_transmits hflush)
  | opened typ rest hnew =>
    obtain ⟨hnone, henc₁⟩ := newChannel_ok hnew
    subst henc₁
    exact h.of_channels (setChannel_other _ _ (h.ne hnone))
  | accepted haccepts => exact h.of_accepts haccepts
  | answered _ _ => exact h
  | @replied id' ch m _ hch _ _ =>
    have hset : Unconfirmed id ((enc.pushAll [m :: be32 ch.recipientChannel]).setChannel id'
        { ch with wantsReply := false }) := h.of_entry _ hch rfl
    exact hset

theorem Unconfirmed.operations {replies : Prop} (h : Unconfirmed id enc)
    (hoperations : Operations replies enc enc') : Unconfirmed id enc' := by
  induction hoperations with
  | refl => exact h
  | tail _ hstep ih => exact ih.operates hstep

/-- A packet that is no answer to an opening, and does not close the channel. -/
theorem Unconfirmed.dispatches {buf : Bytes} (h : Unconfirmed id enc)
    (hdispatches : Dispatches buf enc enc') (hcloses : ¬ Closes id buf)
    (hconfirms : buf.head? ≠ some msg.CHANNEL_OPEN_CONFIRMATION)
    (hrefuses : buf.head? ≠ some msg.CHANNEL_OPEN_FAILURE) : Unconfirmed id enc' := by
  cases hdispatches with
  | none => exact h
  | accepted _ _ _ _ _ haccepts => exact h.of_accepts haccepts
  | confirmed hhead _ _ _ _ _ => exact absurd hhead hconfirms
  | @removed id' r _ hhead hid =>
    have hclose := hhead.resolve_right hrefuses
    refine h.of_channels (Function.update_of_ne ?_ _ _)
    intro heq
    subst heq
    exact hcloses ⟨hclose, r, hid⟩
  | @received id' target d r _ _ _ =>
    have hreceives := adjustWindowSize_receives enc id' d target
    generalize (enc.adjustWindowSize id' d target).1 = enc' at hreceives
    cases hreceives with
    | unknown _ => exact h
    | kept hch _ => exact h.of_entry [] hch rfl
    | granted hch _ => exact h.of_entry [_] hch rfl
  | adjusted _ _ _ hadjust =>
    obtain ⟨ch, hch, -, rfl⟩ := adjustRecipientWindow_ok hadjust
    exact h.of_entry [] hch rfl
  | wanted _ _ _ _ hch => exact h.of_entry [] hch rfl

end

/-- What a step does to a number without an entry: it stays so, or the peer is
told of a new channel with it. -/
structure Frees (id : UInt32) (enc enc' : Encrypted) (bodies : List Bytes) : Prop where
  /-- Packets are queued. -/
  emitted : enc'.emitted = enc.emitted ++ bodies
  /-- The entry. -/
  absent : enc.channels id = none →
    enc'.channels id = none ∨ ∃ body ∈ bodies, Announces id body

section
variable {enc enc' : Encrypted} {id : UInt32} {bodies : List Bytes}

/-- The entries of the table are changed, and no new one is made. -/
theorem Frees.of_entry {id' : UInt32} {ch : Channel} (hch : enc.channels id' = some ch)
    (hchannels : ∃ ch', enc'.channels = Function.update enc.channels id' (some ch'))
    (hemitted : enc'.emitted = enc.emitted ++ bodies) : Frees id enc enc' bodies := by
  refine ⟨hemitted, fun habsent => .inl ?_⟩
  have hne : id ≠ id' := by
    rintro rfl
    rw [hch] at habsent
    cases habsent
  obtain ⟨ch', hchannels⟩ := hchannels
  rw [hchannels, Function.update_of_ne hne, habsent]

/-- The entry stays. -/
theorem Frees.of_same (hchannels : enc'.channels id = enc.channels id)
    (hemitted : enc'.emitted = enc.emitted ++ bodies) : Frees id enc enc' bodies :=
  ⟨hemitted, fun habsent => .inl (hchannels.trans habsent)⟩

/-- A channel is opened. -/
theorem Frees.of_opening {id' : UInt32} {ch : Channel} {body : Bytes}
    (hchannels : enc'.channels = Function.update enc.channels id' (some ch))
    (hemitted : enc'.emitted = enc.emitted ++ [body]) (hbody : Announces id' body) :
    Frees id enc enc' [body] := by
  refine ⟨hemitted, fun habsent => ?_⟩
  by_cases hid : id = id'
  · subst hid
    exact .inr ⟨body, List.mem_cons_self, hbody⟩
  · rw [hchannels, Function.update_of_ne hid]
    exact .inl habsent

/-- What is transmitted makes no entry. -/
theorem Frees.of_transmits {id' : UInt32} {packet : Channel → Bytes → Bytes}
    {deed : UInt32 → List Bytes → Deed} (h : Transmits packet deed id' enc enc') :
    ∃ bodies, Frees id enc enc' bodies := by
  cases h with
  | unknown _ => exact ⟨[], .of_same rfl (List.append_nil _).symm⟩
  | @known ch window pending l hch =>
    refine ⟨l.map (packet ch), .of_entry hch
      ⟨{ ch with recipientWindowSize := window, pendingData := pending }, ?_⟩ ?_⟩
    · rw [note_channels, Encrypted.setChannel, pushAll_channels]
    · rw [note_emitted, setChannel_emitted, pushAll_emitted]

theorem Frees.of_accepts {asked : Asked} {window maxPacket id' : UInt32}
    (h : Accepts asked window maxPacket enc id' enc') : ∃ bodies, Frees id enc enc' bodies :=
  have ⟨_, hchannels, hemitted⟩ := h.spec
  ⟨_, .of_opening hchannels hemitted (.inr ⟨_, _, _, rfl⟩)⟩

/-- Every operation makes an entry only for a channel that the peer is told of. -/
theorem Frees.of_operates (id : UInt32) {replies : Prop} (h : Operates replies enc enc') :
    ∃ bodies, Frees id enc enc' bodies := by
  cases h with
  | idle hchannels hemitted =>
    exact ⟨[], .of_same (congrFun hchannels id) (hemitted.trans (List.append_nil _).symm)⟩
  | push _ hchannels hemitted => exact ⟨_, .of_same (congrFun hchannels id) hemitted⟩
  | confirms _ _ _ _ => exact ⟨_, .of_same rfl rfl⟩
  | data h => exact Frees.of_transmits (submit_transmits h)
  | extendedData h => exact Frees.of_transmits (submit_transmits h)
  | flushPending h => exact Frees.of_transmits (flushPending_transmits h)
  | opened typ rest h =>
    obtain ⟨-, henc₁⟩ := newChannel_ok h
    subst henc₁
    exact ⟨_, .of_opening rfl rfl (.inl ⟨_, _, _, _, rfl⟩)⟩
  | accepted h => exact Frees.of_accepts h
  | answered _ _ => exact ⟨_, .of_same rfl rfl⟩
  | replied _ hch _ _ => exact ⟨_, .of_entry hch ⟨_, rfl⟩ rfl⟩

/-- Neither does the dispatcher. -/
theorem Frees.of_dispatches (id : UInt32) {buf : Bytes} (h : Dispatches buf enc enc') :
    ∃ bodies, Frees id enc enc' bodies := by
  have hnil : ∀ l : List Bytes, l = l ++ [] := fun l => (List.append_nil l).symm
  cases h with
  | none => exact ⟨[], .of_same rfl (hnil _)⟩
  | accepted _ _ _ _ _ h => exact Frees.of_accepts h
  | confirmed _ _ _ _ _ hch => exact ⟨[], .of_entry hch ⟨_, rfl⟩ (hnil _)⟩
  | @removed id' r _ _ _ =>
    refine ⟨[], hnil _, fun habsent => .inl ?_⟩
    by_cases hid : id = id'
    · subst hid
      exact Function.update_self ..
    · exact (Function.update_of_ne hid _ _).trans habsent
  | @received id' target d r _ _ _ =>
    have hreceives := adjustWindowSize_receives enc id' d target
    generalize (enc.adjustWindowSize id' d target).1 = enc' at hreceives
    cases hreceives with
    | unknown _ => exact ⟨[], .of_same rfl (hnil _)⟩
    | kept hch _ => exact ⟨[], .of_entry hch ⟨_, rfl⟩ (hnil _)⟩
    | granted hch _ => exact ⟨_, .of_entry hch ⟨_, rfl⟩ rfl⟩
  | adjusted _ _ _ hadjust =>
    obtain ⟨ch, hch, -, rfl⟩ := adjustRecipientWindow_ok hadjust
    exact ⟨[], .of_entry hch ⟨_, rfl⟩ (hnil _)⟩
  | wanted _ _ _ _ hch => exact ⟨[], .of_entry hch ⟨_, rfl⟩ (hnil _)⟩

end

/-- What an answer to an opening is to make of the channel. -/
structure Heeded (id : UInt32) (buf : Bytes) (s : Session) : Prop where
  /-- A confirmation fills in what the client has said, and data can be sent. -/
  confirmed : ∀ recipient window maxPacket, buf.head? = some msg.CHANNEL_OPEN_CONFIRMATION →
    readConfirmation buf = .ok (id, recipient, window, maxPacket) →
    ∃ ch, s.common.entry id = some ch ∧ ch.confirmed = true ∧ ch.recipientChannel = recipient ∧
      ch.recipientWindowSize = window ∧ ch.recipientMaximumPacketSize = maxPacket
  /-- A refusal takes the channel out of the table. -/
  refused : buf.head? = some msg.CHANNEL_OPEN_FAILURE → s.common.entry id = none

/-- Whether the client has closed a channel: a CHANNEL_CLOSE for it was served. -/
def closedBy (id : UInt32) (closed : Prop) : Act Session (UInt32 × ChannelMsg) → Prop
  | .reply s buf => closed ∨ (s.Settled ∧ ¬ s.common.InExchange buf) ∧ Closes id buf
  | .message _ _ => closed

/-- What has become of a channel that was not confirmed when `base` had been
queued: it is not confirmed, or the client has closed it. -/
inductive Pends (id : UInt32) (base : List Bytes) (closed : Prop) (enc : Encrypted) : Prop where
  /-- The client has not closed it. -/
  | unconfirmed (hopen : ¬ closed) (h : Unconfirmed id enc) (hgrows : base <+: enc.emitted)
  /-- The client has closed it: there is no entry, unless it has been told of a new channel. -/
  | gone (hclosed : closed) (hgrows : base <+: enc.emitted) (h : enc.channels id = none ∨
      ∃ body ∈ enc.emitted.drop base.length, Announces id body)

/-- The same of a session. -/
def PendsIn (id : UInt32) (base : List Bytes) (closed : Prop) (s : Session) : Prop :=
  ∃ enc, s.common.encrypted = some enc ∧ Pends id base closed enc

section
variable {enc enc' : Encrypted} {id : UInt32} {base : List Bytes} {closed : Prop}
  {s t : Session} {buf : Bytes} {handler : Handler}

/-- What has been queued stays queued. -/
theorem Frees.grows {bodies : List Bytes} (h : Frees id enc enc' bodies)
    (hgrows : base <+: enc.emitted) : base <+: enc'.emitted := by
  rw [h.emitted]
  exact hgrows.trans (List.prefix_append _ _)

/-- The channel is closed already. -/
theorem Pends.freed (h : Pends id base closed enc) (hclosed : closed)
    (hfrees : ∃ bodies, Frees id enc enc' bodies) : Pends id base closed enc' := by
  obtain ⟨bodies, hfrees⟩ := hfrees
  cases h with
  | unconfirmed hopen _ _ => exact absurd hclosed hopen
  | gone _ hgrows hgone =>
    refine .gone hclosed (hfrees.grows hgrows) ?_
    rw [hfrees.emitted, List.drop_append_of_le_length hgrows.length_le]
    have htold : ∀ {l m : List Bytes} {body : Bytes}, body ∈ l ∨ body ∈ m → Announces id body →
        ∃ body ∈ l ++ m, Announces id body := fun hmem hbody =>
      ⟨_, List.mem_append.mpr hmem, hbody⟩
    rcases hgone with habsent | ⟨body, hmem, hbody⟩
    · exact (hfrees.absent habsent).imp_right fun ⟨body, hmem, hbody⟩ => htold (.inr hmem) hbody
    · exact .inr (htold (.inl hmem) hbody)

theorem Pends.operations {replies : Prop} (h : Pends id base closed enc)
    (hoperations : Operations replies enc enc') : Pends id base closed enc' := by
  cases h with
  | unconfirmed hopen hnot hgrows =>
    refine .unconfirmed hopen (hnot.operations hoperations) ?_
    induction hoperations with
    | refl => exact hgrows
    | tail _ hstep ih => exact (Frees.of_operates id hstep).elim fun _ hfrees => hfrees.grows ih
  | gone hclosed hgrows hgone =>
    have hkept : Pends id base closed enc := .gone hclosed hgrows hgone
    induction hoperations with
    | refl => exact hkept
    | tail _ hstep ih => exact ih.freed hclosed (Frees.of_operates id hstep)

theorem PendsIn.of_rel {closed' : Prop} {R : Encrypted → Encrypted → Prop}
    (h : PendsIn id base closed s) (hrel : Option.Rel R s.common.encrypted t.common.encrypted)
    (hstep : ∀ enc enc', R enc enc' → Pends id base closed enc → Pends id base closed' enc') :
    PendsIn id base closed' t :=
  encrypted_of_rel h hrel hstep

theorem PendsIn.operated (h : PendsIn id base closed s)
    (hoperated : Relation.ReflTransGen (Operated True) s t) : PendsIn id base closed t :=
  h.of_rel (operations_of_operated hoperated) fun _ _ hoperations hpends =>
    hpends.operations hoperations

theorem PendsIn.of_standing (h : PendsIn id base closed s)
    (hstanding : t.common.standing.map Prod.snd = s.common.standing.map Prod.snd) :
    PendsIn id base closed t :=
  h.operated (.single (operating_of_standing hstanding))

/-- The answers of the client to an opening are ignored. -/
theorem reply_ignores (handler : Handler) (hsettled : s.Settled)
    (hout : ¬ s.common.InExchange buf)
    (hhead : buf.head? = some msg.CHANNEL_OPEN_CONFIRMATION ∨
      buf.head? = some msg.CHANNEL_OPEN_FAILURE) :
    ∃ t, reply handler buf s = .ok () t ∧ Ignores s t := by
  obtain ⟨t, hstate, hignores, -⟩ := serverReadState_settled handler buf hsettled
  refine ⟨t, ?_, hignores⟩
  rw [reply_state handler hout, hstate]
  unfold serverReadAuthenticated
  rcases hhead with hhead | hhead
  · rw [hhead]
    rfl
  · rw [hhead]
    rfl

/-- Any packet, once the client has closed the channel. -/
theorem Pends.served (h : Pends id base closed enc) (hclosed : closed)
    (hhandles : Handles buf enc enc') : Pends id base closed enc' := by
  obtain ⟨first, mid, hchannels, hemitted, hdispatches, hoperations⟩ := hhandles.handles
  have hfirst : Pends id base closed first := by
    refine h.freed hclosed ⟨[], .of_same (congrFun hchannels id) ?_⟩
    rw [hemitted, List.append_nil]
  exact (hfirst.freed hclosed (Frees.of_dispatches id hdispatches)).operations hoperations

/-- A packet that neither answers an opening nor closes the channel. -/
theorem Pends.handles (h : Pends id base closed enc) (hhandles : Handles buf enc enc')
    (hcloses : ¬ Closes id buf) (hconfirms : buf.head? ≠ some msg.CHANNEL_OPEN_CONFIRMATION)
    (hrefuses : buf.head? ≠ some msg.CHANNEL_OPEN_FAILURE) : Pends id base closed enc' := by
  cases h with
  | gone hclosed hgrows hgone => exact (Pends.gone hclosed hgrows hgone).served hclosed hhandles
  | unconfirmed hopen hnot hgrows =>
    obtain ⟨first, mid, hchannels, hemitted, hdispatches, hoperations⟩ := hhandles.handles
    have hfirst : Unconfirmed id first := hnot.of_channels (congrFun hchannels id)
    have hmid := hfirst.dispatches hdispatches hcloses hconfirms hrefuses
    have hbase : base <+: mid.emitted := by
      rw [← hemitted] at hgrows
      exact (Frees.of_dispatches id hdispatches).elim fun _ hfrees => hfrees.grows hgrows
    exact (Pends.unconfirmed hopen hmid hbase).operations hoperations

/-- A packet leaves the channel as it is, or closes it. -/
theorem reply_pends (handler : Handler) (hsound : s.common.Sound) (h : PendsIn id base closed s)
    (buf : Bytes) :
    Ends (reply handler buf) s (fun _ t => PendsIn id base (closedBy id closed (.reply s buf)) t)
      (PendsIn id base (closedBy id closed (.reply s buf))) := by
  by_cases hserves : s.Settled ∧ ¬ s.common.InExchange buf
  · by_cases hcloses : Closes id buf
    · have hclosed : closedBy id closed (.reply s buf) := .inr ⟨hserves, hcloses⟩
      obtain ⟨enc, henc, hpends⟩ := h
      cases hpends with
      | unconfirmed hopen hnot hgrows =>
        obtain ⟨u, hreply, hdrops, hu⟩ := reply_close handler hserves.1 hserves.2 hcloses
        obtain ⟨enc', henc'⟩ := Option.isSome_iff_exists.mp hu
        have hdropped : PendsIn id base (closedBy id closed (.reply s buf)) u := by
          refine ⟨enc', henc', .gone hclosed ?_ (.inl ?_)⟩
          · rw [← emitted_some henc', hdrops.emitted, emitted_some henc]
            exact hgrows
          · rw [← entry_some henc', hdrops.absent]
        refine .of_final ?_
        rw [hreply]
        exact hdropped.operated (finish_operated handler _ u)
      | gone hbefore hgrows hgone =>
        have hkept : PendsIn id base (closedBy id closed (.reply s buf)) s :=
          ⟨enc, henc, .gone hclosed hgrows hgone⟩
        have hserving : ∀ t, Serving buf s t →
            PendsIn id base (closedBy id closed (.reply s buf)) t := fun t ht =>
          hkept.of_rel ht fun _ _ hhandles hpends => hpends.served hclosed hhandles
        exact (reply_serving handler hserves.1 hserves.2).mono (fun _ => hserving) hserving
    · have hsame : closedBy id closed (.reply s buf) = closed :=
        propext ⟨fun hor => hor.resolve_right fun hboth => hcloses hboth.2, .inl⟩
      rw [hsame]
      by_cases hanswer : buf.head? = some msg.CHANNEL_OPEN_CONFIRMATION ∨
          buf.head? = some msg.CHANNEL_OPEN_FAILURE
      · obtain ⟨t, hreply, hignores⟩ := reply_ignores handler hserves.1 hserves.2 hanswer
        unfold Ends
        rw [hreply]
        exact h.of_standing hignores.standing
      · rw [not_or] at hanswer
        have hserving : ∀ t, Serving buf s t → PendsIn id base closed t := fun t ht =>
          h.of_rel ht fun _ _ hhandles hpends =>
            hpends.handles hhandles hcloses hanswer.1 hanswer.2
        exact (reply_serving handler hserves.1 hserves.2).mono (fun _ => hserving) hserving
  · have hsame : closedBy id closed (.reply s buf) = closed :=
      propext ⟨fun hor => hor.resolve_right fun hboth => hserves hboth.1, .inl⟩
    rw [hsame]
    have hundispatched : ∀ t, Undispatched s t → PendsIn id base closed t := by
      intro t ht
      cases ht with
      | operations hrel =>
        exact h.of_rel hrel fun _ _ hoperations hpends => hpends.operations hoperations
      | started hnone _ =>
        obtain ⟨enc, henc, -⟩ := h
        rw [hnone] at henc
        cases henc
    exact (reply_undispatched handler hsound hserves).mono (fun _ => hundispatched) hundispatched

/-- Every program of the server leaves the channel as it is, or the client closes it. -/
theorem driver_pends (handler : Handler) (id : UInt32) (base : List Bytes) :
    (driver handler).Follows (closedBy id)
      (fun closed s => s.common.Sound ∧ PendsIn id base closed s)
      fun closed s => PendsIn id base closed s := by
  have hbehaves := driver_behaves (P := fun _ => True) (fun _ _ => trivial) handler
  have hsound := hbehaves.keeps_sound
  constructor
  · exact fun closed s hs => hs.2
  · intro closed s enc decompress henc hs
    refine ⟨hsound.inflate s enc decompress henc hs.1, hs.2.of_standing ?_⟩
    have henc' : s.common.encrypted = some enc := henc
    simp only [driver, CommonSession.standing, henc', Option.map_some]
    rfl
  · intro closed s buf hs
    exact ((hsound.reply s buf hs.1).and (reply_pends handler hs.1 hs.2 buf)).mono
      (fun _ _ ht => ht) fun _ ht => ht.2
  · intro closed s m enc hs henc hrekey
    have hmessage : Ends (message m) s (fun _ t => PendsIn id base closed t)
        (PendsIn id base closed) := .of_final (hs.2.operated (message_operated m s))
    exact ((hsound.message s m hs.1).and hmessage).mono (fun _ _ ht => ht) fun _ ht => ht.2
  · intro closed s hs
    refine ((hsound.flush s hs.1).and (zoom_flush_standing hbehaves s)).mono
      (fun _ t ht => ⟨ht.1, ?_⟩) fun t ht => ?_
    · exact hs.2.of_standing (congrArg (Option.map Prod.snd) ht.2)
    · exact hs.2.of_standing (congrArg (Option.map Prod.snd) ht.2)
  · exact fun closed s hs => hs

/-- The entries that an ignored packet leaves at the end of its event. -/
theorem iterate_ignores {l : Loop Session} {e : Event (UInt32 × ChannelMsg)} {p : Session × Bytes}
    (hp : p ∈ Loop.given (driver handler) l e) (hsettled : p.1.Settled)
    (hout : ¬ p.1.common.InExchange p.2)
    (hhead : p.2.head? = some msg.CHANNEL_OPEN_CONFIRMATION ∨
      p.2.head? = some msg.CHANNEL_OPEN_FAILURE) :
    (l.iterate (driver handler) e).session.common.standing.map Prod.snd =
      p.1.common.standing.map Prod.snd := by
  have hbehaves := driver_behaves (P := fun _ => True) (fun _ _ => trivial) handler
  obtain ⟨t, hreply, hignores⟩ := reply_ignores handler hsettled hout hhead
  have hflush := zoom_flush_standing hbehaves t
  unfold Ends at hflush
  cases Loop.iterate_given hp with
  | @returned u v hrun hwritten hlast =>
    have hrun' : reply handler p.2 p.1 = .ok () u := hrun
    rw [hreply] at hrun'
    cases hrun'
    rw [hwritten] at hflush
    rw [hlast]
    exact (congrArg (Option.map Prod.snd) hflush).trans hignores.standing
  | @stuck u e' hrun hwritten =>
    have hrun' : reply handler p.2 p.1 = .ok () u := hrun
    rw [hreply] at hrun'
    cases hrun'
    rw [hwritten] at hflush
    exact (congrArg (Option.map Prod.snd) hflush).trans hignores.standing
  | failed hrun =>
    have hrun' : reply handler p.2 p.1 = .error _ _ := hrun
    rw [hreply] at hrun'
    cases hrun'

end

/-- In every run of the server, an answer of the client to the opening of a channel
that the server has asked for does what it is to do exactly when it is a refusal
and the client has closed the channel before. -/
theorem opening_heeded_iff {config : Config} {handler : Handler} {sshid : Bytes} {world : World}
    {l : Loop Session} (hl : runStream config handler sshid world = .ok l)
    (before after : List (Event (UInt32 × ChannelMsg))) {id : UInt32} {enc : Encrypted}
    (henc : (l.run (driver handler) before).session.common.encrypted = some enc)
    (hopened : Unconfirmed id enc) {e : Event (UInt32 × ChannelMsg)} {p : Session × Bytes}
    (hp : p ∈ Loop.given (driver handler) ((l.run (driver handler) before).run (driver handler)
      after) e)
    (hsettled : p.1.Settled) (hout : ¬ p.1.common.InExchange p.2)
    (hanswers : AnswersOpening id p.2)
    (hsame : ∀ body ∈ p.1.common.emitted.drop enc.emitted.length, ¬ Announces id body) :
    Heeded id p.2 (((l.run (driver handler) before).run (driver handler) after).iterate
        (driver handler) e).session ↔
      p.2.head? = some msg.CHANNEL_OPEN_FAILURE ∧
        Loop.history (driver handler) (closedBy id) False (l.run (driver handler) before) after := by
  have hbehaves := driver_behaves (P := fun _ => True) (fun _ _ => trivial) handler
  obtain ⟨s, output, hs, rfl⟩ := runStream_start hl
  have hkept := Loop.run_kept hbehaves.keeps_sound
    (Loop.start_kept hbehaves.keeps_sound hs.sound output) before
  have hbegins : PendsIn id enc.emitted False
      ((Loop.start (driver handler) s output).run (driver handler) before).session :=
    ⟨enc, henc, .unconfirmed not_false hopened (List.prefix_refl _)⟩
  have hstart := Loop.run_follows (driver_pends handler id enc.emitted) (h := False)
    ⟨fun hrunning => ⟨hkept.running hrunning, hbegins⟩, hbegins⟩ after
  obtain ⟨-, enc', henc', hpends⟩ := Loop.given_follows (driver_pends handler id enc.emitted)
    hstart hp
  have hhead : p.2.head? = some msg.CHANNEL_OPEN_CONFIRMATION ∨
      p.2.head? = some msg.CHANNEL_OPEN_FAILURE := by
    rcases hanswers with hconfirms | hrefuses
    · exact .inl hconfirms.1
    · exact .inr hrefuses.1
  have hentry := entry_of_standing (iterate_ignores hp hsettled hout hhead) id
  rw [entry_some henc'] at hentry
  cases hpends with
  | unconfirmed hopen hnot hgrows =>
    -- the entry is there, and not confirmed: neither answer does what it is to do
    obtain ⟨ch, hch, hunconfirmed⟩ := hnot
    constructor
    · intro hheeded
      rcases hanswers with ⟨hconfirms, recipient, window, maxPacket, hread⟩ | hrefuses
      · obtain ⟨ch', hch', hconfirmed, -⟩ := hheeded.confirmed recipient window maxPacket
          hconfirms hread
        rw [hentry, hch] at hch'
        cases hch'
        rw [hunconfirmed] at hconfirmed
        cases hconfirmed
      · have hnone := hheeded.refused hrefuses.1
        rw [hentry, hch] at hnone
        cases hnone
    · exact fun hboth => absurd hboth.2 hopen
  | gone hclosed hgrows hgone =>
    have hnone : enc'.channels id = none := by
      refine hgone.resolve_right ?_
      rintro ⟨body, hbody, hannounces⟩
      refine hsame body ?_ hannounces
      rw [emitted_some henc']
      exact hbody
    rw [hnone] at hentry
    constructor
    · intro hheeded
      rcases hanswers with ⟨hconfirms, recipient, window, maxPacket, hread⟩ | hrefuses
      · obtain ⟨ch', hch', -⟩ := hheeded.confirmed recipient window maxPacket hconfirms hread
        rw [hentry] at hch'
        cases hch'
      · exact ⟨hrefuses.1, hclosed⟩
    · rintro ⟨hrefuses, -⟩
      refine ⟨fun recipient window maxPacket hconfirms => ?_, fun _ => hentry⟩
      rw [hrefuses] at hconfirms
      cases hconfirms

end

/-- A handler that opens a channel for a forwarded connection when a session is opened. -/
def Concrete.forwarding : @Handler Concrete.deps := fun _ callback _ =>
  match callback with
  | .channelOpenSession _ =>
    ⟨[.channelOpenForwardedTcpip [1] 1 [2] 2], false, .accept, false, 0⟩
  | _ => ⟨[], false, .accept, false, 0⟩

/-- A client whose session is opened. -/
def forwarded : List (Event (UInt32 × ChannelMsg)) :=
  Concrete.authenticated ++ [.arrive (Concrete.sealed Concrete.sessionOpen), .read]

/-- The client refuses the server's channel. -/
def refusal : Bytes :=
  msg.CHANNEL_OPEN_FAILURE :: be32 3 ++ be32 2 ++ sshString [] ++ sshString []

/-- The client closes the server's channel, and refuses it then. -/
def refusedLate : List (Event (UInt32 × ChannelMsg)) :=
  [.arrive (Concrete.sealed (msg.CHANNEL_CLOSE :: be32 3)), .read, .arrive (Concrete.sealed refusal)]

/-- A session whose channel is not confirmed. -/
theorem unconfirmed_of_entry [Deps] {s : Session} {id : UInt32}
    (h : (s.common.entry id).map (·.confirmed) = some false) :
    ∃ enc, s.common.encrypted = some enc ∧ Unconfirmed id enc := by
  obtain ⟨ch, hch, hnot⟩ := Option.map_eq_some_iff.mp h
  obtain ⟨enc, henc, hentry⟩ := Option.bind_eq_some_iff.mp hch
  exact ⟨enc, henc, ch, hentry, hnot⟩

/-- A refusal of a channel that the client has closed before does what it is to do. -/
theorem opening_heeded_closed :
    letI := Concrete.deps
    Heeded 3 refusal (((Concrete.server.run (driver Concrete.forwarding) forwarded).run
      (driver Concrete.forwarding) refusedLate).iterate (driver Concrete.forwarding)
        .read).session ∧
    Loop.history (driver Concrete.forwarding) (closedBy 3) False
      (Concrete.server.run (driver Concrete.forwarding) forwarded) refusedLate := by
  have hentry : letI := Concrete.deps
      ((Concrete.server.run (driver Concrete.forwarding) forwarded).session.common.entry
        3).map (·.confirmed) = some false := by
    decide +kernel
  obtain ⟨enc, henc, hopened⟩ := @unconfirmed_of_entry Concrete.deps _ _ hentry
  have hgiven : letI := Concrete.deps
      (Loop.given (driver Concrete.forwarding) ((Concrete.server.run
        (driver Concrete.forwarding) forwarded).run (driver Concrete.forwarding) refusedLate)
          .read).any (fun p => ((p.1.Settled ∧ ¬ p.1.common.InExchange p.2) ∧ p.2 = refusal) ∧
            p.1.common.emitted.drop (Concrete.server.run (driver Concrete.forwarding)
              forwarded).session.common.emitted.length = []) = true := by
    decide +kernel
  obtain ⟨p, hp, hrefused⟩ := (Option.any_eq_true _ _).mp hgiven
  rw [decide_eq_true_eq, @emitted_some Concrete.deps _ _ _ henc] at hrefused
  obtain ⟨⟨hserves, hrefusal⟩, hnone⟩ := hrefused
  have hanswers : AnswersOpening 3 p.2 := by
    rw [hrefusal]
    exact .inr ⟨rfl, _, rfl⟩
  have hiff := @opening_heeded_iff Concrete.deps _ _ _ _ _
    (Concrete.runStream_eq Concrete.forwarding) forwarded refusedLate 3 enc henc hopened .read p hp
    hserves.1 hserves.2 hanswers (by rw [hnone]; nofun)
  rw [hrefusal] at hiff
  have hentry' : letI := Concrete.deps
      (((Concrete.server.run (driver Concrete.forwarding) forwarded).run
        (driver Concrete.forwarding) refusedLate).iterate (driver Concrete.forwarding)
          .read).session.common.entry 3 = none := by
    decide +kernel
  have hheeded : letI := Concrete.deps
      Heeded 3 refusal (((Concrete.server.run (driver Concrete.forwarding)
        forwarded).run (driver Concrete.forwarding) refusedLate).iterate
          (driver Concrete.forwarding) .read).session :=
    @Heeded.mk Concrete.deps _ _ _ nofun fun _ => hentry'
  exact (hiff.mp hheeded).imp_left fun _ => hheeded

/-- The client confirms the server's channel: it stays unconfirmed, and data on it
panic; and a channel that the client refuses stays in the table. -/
theorem opening_unheeded :
    letI := Concrete.deps
    let confirmed := (Concrete.server.run (driver Concrete.forwarding) forwarded).run
      (driver Concrete.forwarding) [.arrive (Concrete.sealed (confirmChannelOpenPacket 3 9 50 60)),
        .read]
    let refused := (Concrete.server.run (driver Concrete.forwarding) forwarded).run
      (driver Concrete.forwarding) [.arrive (Concrete.sealed refusal), .read]
    runStream Concrete.serverConfig Concrete.forwarding Concrete.clientConfig.clientId
      Concrete.world = .ok Concrete.server ∧
    (confirmed.session.common.entry 3).map (·.confirmed) = some false ∧
    (confirmed.iterate (driver Concrete.forwarding) (.message (some (3, .data [1])) 0)).stage =
      .finished (.error .panic) ∧
    ¬ Heeded 3 (confirmChannelOpenPacket 3 9 50 60) confirmed.session ∧
    ¬ Heeded 3 refusal refused.session := by
  have hconfirmed : letI := Concrete.deps
      (((Concrete.server.run (driver Concrete.forwarding) forwarded).run
        (driver Concrete.forwarding) [.arrive (Concrete.sealed (confirmChannelOpenPacket 3 9 50 60)),
          .read]).session.common.entry 3).map (·.confirmed) = some false := by
    decide +kernel
  have hrefused : letI := Concrete.deps
      (((Concrete.server.run (driver Concrete.forwarding) forwarded).run
        (driver Concrete.forwarding) [.arrive (Concrete.sealed refusal),
          .read]).session.common.entry 3).isSome = true := by
    decide +kernel
  refine ⟨Concrete.runStream_eq _, hconfirmed, by decide +kernel, fun hheeded => ?_,
    fun hheeded => ?_⟩
  · obtain ⟨ch, hch, hyes, -⟩ := @Heeded.confirmed Concrete.deps _ _ _ hheeded 9 50 60 rfl
      (by decide +kernel)
    rw [hch, Option.map_some, hyes] at hconfirmed
    cases hconfirmed
  · rw [@Heeded.refused Concrete.deps _ _ _ hheeded rfl] at hrefused
    cases hrefused

end Thrussh.Server
