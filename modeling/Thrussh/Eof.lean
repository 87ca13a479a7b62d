import Thrussh.ChannelData
import Thrussh.Client.Service
import Thrussh.Tracing

/-!
# The end of data on a channel

`Encrypted::eof` queues its packet at once, also when data are still pending
on the channel. The deeds that a session has noted account for every packet of
a channel that it has queued. When nothing is pending at an `eof`, nothing is
sent on the channel behind it, unless the application submits more.
-/

namespace Thrussh

open Lib

/-- No data are sent on a channel behind an `eof`, as long as the application
submits no more. -/
def EofLast (id : UInt32) (log : List Deed) : Prop :=
  ∀ l m r pending packet, log = l ++ .byte id msg.CHANNEL_EOF pending packet :: (m ++ r) →
    (∀ packets, .data id packets ∉ m) → m.flatMap (Deed.sent id) = []

/-- Whether every `eof` on a channel finds nothing pending. -/
def EofMeets (id : UInt32) (log : List Deed) : Prop :=
  ∀ pending packet, .byte id msg.CHANNEL_EOF pending packet ∈ log → pending = []

/-- Whether there has been an `eof` on a channel, and no data since. -/
def Ended (id : UInt32) (log : List Deed) : Prop :=
  ∃ l m pending packet, log = l ++ .byte id msg.CHANNEL_EOF pending packet :: m ∧
    ∀ packets, .data id packets ∉ m

section
variable [Deps] {enc enc' : Encrypted} {id : UInt32}

/-- What a step is for one channel. -/
inductive Affects (id : UInt32) (enc enc' : Encrypted) : Prop where
  /-- Nothing is noted, and no data become pending. -/
  | unnoted (hdeeds : enc'.deeds = enc.deeds) (h : enc.pending id = [] → enc'.pending id = [])
  /-- A deed is noted: an end of data with what is pending, and only data submitted to the
  channel send any or become pending when nothing is. -/
  | noted (d : Deed) (hdeeds : enc'.deeds = enc.deeds ++ [d])
    (hbyte : ∀ m pending packet, d = .byte id m pending packet → pending = enc.pending id)
    (h : (∀ packets, d ≠ .data id packets) → enc.pending id = [] →
      d.sent id = [] ∧ enc'.pending id = [])

/-- The end of data leaves what is pending, and nothing else is sent. -/
structure EndsWell (id : UInt32) (enc : Encrypted) : Prop where
  /-- No data are sent behind it. -/
  last : EofLast id enc.deeds
  /-- None are pending. -/
  drained : Ended id enc.deeds → enc.pending id = []

theorem pending_setChannel (enc : Encrypted) (id id' : UInt32) (ch : Channel) :
    (enc.setChannel id' ch).pending id = if id = id' then ch.pendingData else enc.pending id := by
  unfold Encrypted.pending Encrypted.setChannel
  by_cases h : id = id'
  · subst h
    simp
  · simp [h]

/-- What is transmitted on another channel sends nothing and leaves what is pending. -/
theorem Transmits.affects_other {packet : Channel → Bytes → Bytes}
    {deed : UInt32 → List Bytes → Deed} {id' : UInt32} (h : Transmits packet deed id' enc enc')
    (hne : id ≠ id') (hsent : ∀ packets, (deed id' packets).sent id = [])
    (hdeed : ∀ packets m pending packet, deed id' packets ≠ .byte id m pending packet) :
    Affects id enc enc' := by
  cases h with
  | unknown h => exact .unnoted rfl fun hnil => hnil
  | @known ch window pending l hch =>
    have hpending : enc.pending id = (((enc.pushAll (l.map (packet ch))).setChannel id'
        { ch with recipientWindowSize := window, pendingData := pending }).note
          (deed id' (l.map (packet ch)))).pending id := by
      change _ = ((enc.pushAll (l.map (packet ch))).setChannel id' _).pending id
      rw [pending_setChannel, if_neg hne]
      simp only [Encrypted.pending, pushAll_channels]
    refine .noted (deed id' (l.map (packet ch))) ?_ ?_ fun _ hnil => ⟨hsent _, ?_⟩
    · rw [Encrypted.note, Encrypted.setChannel, pushAll_deeds]
    · exact fun m pending packet heq => absurd heq (hdeed _ _ _ _)
    · rw [← hpending, hnil]

/-- Data submitted to a channel. -/
theorem submit_affects {id' : UInt32} {ext : Option UInt32} {packet : Channel → Bytes → Bytes}
    {buf0 : Bytes} (h : enc.submit id' ext packet buf0 = .ok enc') : Affects id enc enc' := by
  have htransmits := submit_transmits h
  by_cases hid : id = id'
  · subst hid
    cases htransmits with
    | unknown h => exact .unnoted rfl fun hnil => hnil
    | @known ch window pending l hch =>
      refine .noted (.data id (l.map (packet ch))) ?_ (fun _ _ _ heq => by cases heq) fun hne => ?_
      · rw [Encrypted.note, Encrypted.setChannel, pushAll_deeds]
      · exact absurd rfl (hne _)
  · exact htransmits.affects_other hid (fun _ => if_neg (Ne.symm hid)) fun _ _ _ _ heq => by
      cases heq

/-- Sending what is pending on a channel sends nothing if nothing is. -/
theorem flushPending_affects {id' : UInt32} {total : Nat}
    (h : enc.flushPending id' = .ok (enc', total)) : Affects id enc enc' := by
  by_cases hid : id = id'
  · subst hid
    cases hch : enc.channels id with
    | none =>
      cases flushPending_transmits h with
      | unknown _ => exact .unnoted rfl fun hnil => hnil
      | known hsome =>
        rw [hch] at hsome
        cases hsome
    | some ch =>
      unfold Encrypted.flushPending at h
      simp only [hch] at h
      obtain ⟨⟨enc₁, ch', total'⟩, hloop, hrest⟩ := ok_of_bind h
      cases hrest
      obtain ⟨-, -, chunks, henc₁, -, -⟩ := flushPendingLoop_pushes hloop
      refine .noted (.flushPending id (enc₁.queuedSince enc)) ?_ (fun _ _ _ heq => by cases heq)
        fun _ hnil => ?_
      · rw [Encrypted.note, Encrypted.setChannel, henc₁, pushAll_deeds]
      · have hpending : ch.pendingData = [] := by
          simpa only [Encrypted.pending, hch, Option.elim_some] using hnil
        rw [hpending] at hloop
        cases hloop
        constructor
        · simp [Deed.sent, Encrypted.queuedSince]
        · change (enc.setChannel id _).pending id = []
          rw [pending_setChannel, if_pos rfl]
  · exact (flushPending_transmits h).affects_other hid (fun _ => if_neg (Ne.symm hid))
      fun _ _ _ _ heq => by cases heq

/-- The end of data, and the closing of a channel, find what is pending and leave it. -/
theorem byte_affects (enc : Encrypted) (id id' : UInt32) (m : UInt8) :
    Affects id enc (enc.byte id' m) := by
  unfold Encrypted.byte
  cases hch : enc.channels id' with
  | none => exact .unnoted rfl fun hnil => hnil
  | some ch =>
    refine .noted (.byte id' m ch.pendingData (m :: be32 ch.recipientChannel)) rfl ?_
      fun _ hnil => ⟨rfl, hnil⟩
    rintro m' pending packet heq
    cases heq
    simp only [Encrypted.pending, hch, Option.elim_some]

/-- What a step is for one channel. -/
theorem Does.affects (h : Does enc enc') (id : UInt32) : Affects id enc enc' := by
  cases h with
  | idle hchannels hemitted hdeeds =>
    refine .unnoted hdeeds fun hnil => ?_
    rw [Encrypted.pending, hchannels]
    exact hnil
  | push => exact .unnoted rfl fun hnil => hnil
  | signed body => exact .noted (.signed body) rfl (fun _ _ _ heq => by cases heq) fun _ hnil =>
      ⟨rfl, hnil⟩
  | @channel id' ch ch' hch hsame =>
    refine .unnoted rfl fun hnil => ?_
    rw [pending_setChannel]
    split
    · rename_i heq
      subst heq
      rw [hsame]
      simpa only [Encrypted.pending, hch, Option.elim_some] using hnil
    · exact hnil
  | @opened id' ch hopened =>
    refine .noted (.opened id') rfl (fun _ _ _ heq => by cases heq) fun _ hnil => ⟨rfl, ?_⟩
    change (enc.setChannel id' ch).pending id = []
    rw [pending_setChannel, hopened, hnil, ite_self]
  | removed id' =>
    refine .unnoted rfl fun hnil => ?_
    unfold Encrypted.pending at hnil ⊢
    unfold Encrypted.removeChannel
    by_cases heq : id = id'
    · subst heq
      simp
    · simpa [heq] using hnil
  | data h => exact submit_affects h
  | byte id' m => exact byte_affects enc id id' m
  | flushPending h => exact flushPending_affects h

omit [Deps] in
/-- A list that ends in an element, split at another place. -/
theorem split_concat {α : Type} {log l rest : List α} {x y : α} (h : log ++ [x] = l ++ y :: rest) :
    rest = [] ∧ log = l ∧ x = y ∨ ∃ rest', rest = rest' ++ [x] ∧ log = l ++ y :: rest' := by
  rcases List.eq_nil_or_concat' rest with rfl | ⟨rest', z, rfl⟩
  · obtain ⟨hlog, hx⟩ := List.append_inj' h rfl
    exact .inl ⟨rfl, hlog, List.head_eq_of_cons_eq hx⟩
  · rw [← List.cons_append, ← List.append_assoc] at h
    obtain ⟨hlog, hx⟩ := List.append_inj' h rfl
    rw [List.cons.injEq] at hx
    exact .inr ⟨rest', by rw [hx.1], hlog⟩

/-- A step keeps the end of data, if every `eof` finds nothing pending. -/
theorem EndsWell.affected (h : EofMeets id enc.deeds → EndsWell id enc)
    (haffects : Affects id enc enc') (hmeets : EofMeets id enc'.deeds) : EndsWell id enc' := by
  cases haffects with
  | unnoted hdeeds hpending =>
    rw [hdeeds] at hmeets
    obtain ⟨hlast, hdrained⟩ := h hmeets
    refine ⟨by rwa [hdeeds], fun hended => hpending (hdrained ?_)⟩
    rwa [hdeeds] at hended
  | noted d hdeeds hbyte hsilent =>
    rw [hdeeds] at hmeets
    obtain ⟨hlast, hdrained⟩ :=
      h fun pending packet hmem => hmeets pending packet (List.mem_append_left _ hmem)
    constructor
    · intro l m r pending packet hsplit hnone
      rw [hdeeds] at hsplit
      rcases split_concat hsplit with ⟨hrest, -, -⟩ | ⟨rest, hrest, hlog⟩
      · rw [(List.append_eq_nil_iff.mp hrest).1]
        rfl
      · rcases List.eq_nil_or_concat' r with rfl | ⟨r', z, rfl⟩
        · -- the new deed is the last of those behind the end
          rw [List.append_nil] at hrest
          subst hrest
          have hbefore : ∀ packets, .data id packets ∉ rest := fun packets hmem =>
            hnone packets (List.mem_append_left _ hmem)
          have hnil := hdrained ⟨l, rest, pending, packet, hlog, hbefore⟩
          have hsent := hlast l rest [] pending packet (by rw [List.append_nil, hlog]) hbefore
          have hd : d.sent id = [] := (hsilent (fun packets heq => hnone packets (by
            rw [heq]
            exact List.mem_append_right _ List.mem_cons_self)) hnil).1
          rw [List.flatMap_append, hsent, List.flatMap_singleton, hd, List.append_nil]
        · rw [← List.append_assoc] at hrest
          obtain ⟨hrest, -⟩ := List.append_inj' hrest rfl
          exact hlast l m r' pending packet (by rw [hlog, hrest]) hnone
    · rintro ⟨l, m, pending, packet, hsplit, hnone⟩
      rw [hdeeds] at hsplit
      rcases split_concat hsplit with ⟨-, -, hd⟩ | ⟨rest, hrest, hlog⟩
      · -- the end of data that is noted finds nothing pending
        have hnil : enc.pending id = [] := by
          rw [← hbyte _ _ _ hd]
          exact hmeets pending packet (by
            rw [hd]
            exact List.mem_append_right _ List.mem_cons_self)
        exact (hsilent (fun packets heq => by rw [hd] at heq; cases heq) hnil).2
      · subst hrest
        have hnil := hdrained ⟨l, rest, pending, packet, hlog, fun packets hmem =>
          hnone packets (List.mem_append_left _ hmem)⟩
        exact (hsilent (fun packets heq => hnone packets (by
          rw [heq]
          exact List.mem_append_right _ List.mem_cons_self)) hnil).2

/-- Nothing has been noted of a new session. -/
theorem Encrypted.New.endsWell (h : enc.New) : EndsWell id enc := by
  constructor
  · intro l m r pending packet hsplit
    rw [h.deeds] at hsplit
    cases (List.append_eq_nil_iff.mp hsplit.symm).2
  · rintro ⟨l, m, pending, packet, hsplit, -⟩
    rw [h.deeds] at hsplit
    cases (List.append_eq_nil_iff.mp hsplit.symm).2

/-- Steps from a new session keep the end of data on every channel. -/
theorem Deeds.endsWell {start : Encrypted} (hstart : start.New) (h : Deeds start enc)
    (hmeets : EofMeets id enc.deeds) : EndsWell id enc := by
  induction h with
  | refl => exact hstart.endsWell
  | tail _ hstep ih => exact .affected ih (hstep.affects id) hmeets

/-- The deeds of a session account for the packets of channels that it has queued. -/
theorem Encrypted.New.accounts {start : Encrypted} (hstart : start.New) (h : Deeds start enc) :
    enc.emitted.filter Carried = (enc.deeds.flatMap Deed.packets).filter Carried := by
  obtain ⟨since, haccounts⟩ := h.accounts
  obtain ⟨packets, hemitted, hcarried⟩ := haccounts.emitted
  rw [hemitted, haccounts.deeds, hstart.emitted, hstart.deeds]
  exact hcarried

/-- In every run of either role the deeds of the session account for the packets of channels
that it has queued, and on every channel on which each `eof` finds nothing pending no data are
sent behind it. -/
theorem eof_last :
    (∀ config handler sshid world l, Server.runStream config handler sshid world = .ok l →
      ∀ events enc, (l.run (Server.driver handler) events).session.common.encrypted = some enc →
        enc.emitted.filter Carried = (enc.deeds.flatMap Deed.packets).filter Carried ∧
        ∀ id, EofMeets id enc.deeds → EofLast id enc.deeds) ∧
    ∀ config app sshid world l, Client.connectStream config app sshid world = .ok l →
      ∀ events enc, (l.run (Client.driver app) events).session.common.encrypted = some enc →
        enc.emitted.filter Carried = (enc.deeds.flatMap Deed.packets).filter Carried ∧
        ∀ id, EofMeets id enc.deeds → EofLast id enc.deeds := by
  constructor
  · intro config handler sshid world l hl events enc henc
    obtain ⟨s, output, hs, rfl⟩ := Server.runStream_start hl
    obtain ⟨start, hstart, hdeeds⟩ := Loop.run_traceable (Server.driver_behaves
      (P := fun _ => True) (fun _ _ => trivial) handler) hs output events enc henc
    exact ⟨hstart.accounts hdeeds, fun id hmeets => (Deeds.endsWell hstart hdeeds hmeets).last⟩
  · intro config app sshid world l hl events enc henc
    obtain ⟨s, output, hs, rfl⟩ := Client.connectStream_start hl
    obtain ⟨start, hstart, hdeeds⟩ := Loop.run_traceable (Client.driver_behaves
      (P := fun _ => True) (fun _ _ => trivial) app fun _ _ _ _ => trivial) hs output events enc henc
    exact ⟨hstart.accounts hdeeds, fun id hmeets => (Deeds.endsWell hstart hdeeds hmeets).last⟩

end

/-- A client whose application submits data to a channel with some window, ends them and is
given more window then. -/
def Client.ended (window : UInt32) : List (Event Client.Msg) :=
  Concrete.answers ++ [.message (some (.authenticate [1] (.password [2]))) 0] ++ Client.accepts ++
    [.arrive (Concrete.sealed [msg.USERAUTH_SUCCESS]), .read,
      .message (some (.channelOpenSession 0)) 0,
      .arrive (Concrete.sealed (msg.CHANNEL_OPEN_CONFIRMATION ::
        be32 2 ++ be32 7 ++ be32 window ++ be32 100)), .read,
      .message (some (.data 2 [1])) 0, .message (some (.eof 2)) 0,
      .arrive (Concrete.sealed (msg.CHANNEL_WINDOW_ADJUST :: be32 2 ++ be32 5)), .read]

/-- A server that does so on a channel that the client has opened. -/
def Server.ended : List (Event (UInt32 × ChannelMsg)) :=
  Concrete.authenticated ++ [.arrive (Concrete.sealed Concrete.sessionOpen), .read,
    .message (some (2, .data [1])) 0, .message (some (2, .eof)) 0]

/-- Data that the window allows are sent before their end. -/
theorem eof_last_sent :
    letI := Concrete.deps
    (∃ enc, (Concrete.server.run (Server.driver Concrete.handler)
      Server.ended).session.common.encrypted = some enc ∧ enc.deeds = [.opened 2,
        .data 2 [dataPacket 5 [1]], .byte 2 msg.CHANNEL_EOF [] (msg.CHANNEL_EOF :: be32 5)] ∧
      EofLast 2 enc.deeds) ∧
    ∃ enc, (Concrete.client.run (Client.driver Concrete.application)
      (Client.ended 5)).session.common.encrypted = some enc ∧ enc.deeds = [.opened 2,
        .data 2 [dataPacket 7 [1]], .byte 2 msg.CHANNEL_EOF [] (msg.CHANNEL_EOF :: be32 7),
        .flushPending 2 []] ∧ EofLast 2 enc.deeds := by
  obtain ⟨hserver, hclient⟩ := @eof_last Concrete.deps
  have hmeets : ∀ sent packet last, last = [] ∨ last = [Deed.flushPending 2 []] →
      EofMeets 2 ([.opened 2, .data 2 sent, .byte 2 msg.CHANNEL_EOF [] packet] ++ last) := by
    rintro sent packet last hlast pending packet' hmem
    have hsame : pending = [] ∧ packet' = packet := by
      rcases hlast with rfl | rfl
      · simpa using hmem
      · simpa using hmem
    exact hsame.1
  have hserved : letI := Concrete.deps
      (Concrete.server.run (Server.driver Concrete.handler)
        Server.ended).session.common.encrypted.map (·.deeds) = some [.opened 2,
          .data 2 [dataPacket 5 [1]], .byte 2 msg.CHANNEL_EOF [] (msg.CHANNEL_EOF :: be32 5)] := by
    decide +kernel
  have hsent : letI := Concrete.deps
      (Concrete.client.run (Client.driver Concrete.application)
        (Client.ended 5)).session.common.encrypted.map (·.deeds) = some [.opened 2,
          .data 2 [dataPacket 7 [1]], .byte 2 msg.CHANNEL_EOF [] (msg.CHANNEL_EOF :: be32 7),
          .flushPending 2 []] := by
    decide +kernel
  obtain ⟨enc, henc, hdeeds⟩ := Option.map_eq_some_iff.mp hserved
  obtain ⟨enc', henc', hdeeds'⟩ := Option.map_eq_some_iff.mp hsent
  have hlast := (hserver _ _ _ _ _ (Concrete.runStream_eq Concrete.handler) _ _ henc).2 2
  have hlast' := (hclient _ _ _ _ _ Concrete.connectStream_eq _ _ henc').2 2
  refine ⟨⟨enc, henc, hdeeds, hlast ?_⟩, ⟨enc', henc', hdeeds', hlast' ?_⟩⟩
  · rw [hdeeds]
    exact hmeets _ _ [] (.inl rfl)
  · rw [hdeeds']
    exact hmeets _ _ _ (.inr rfl)

/-- Data that were pending at the end are sent behind it. -/
theorem eof_overtakes :
    letI := Concrete.deps
    ∃ enc, (Concrete.client.run (Client.driver Concrete.application)
      (Client.ended 0)).session.common.encrypted = some enc ∧
      enc.emitted.drop 2 = [msg.CHANNEL_EOF :: be32 7, dataPacket 7 [1]] ∧
      enc.deeds = [.opened 2, .data 2 [],
        .byte 2 msg.CHANNEL_EOF [([1], none, 0)] (msg.CHANNEL_EOF :: be32 7),
        .flushPending 2 [dataPacket 7 [1]]] ∧ ¬ EofLast 2 enc.deeds := by
  have hrun : letI := Concrete.deps
      (Concrete.client.run (Client.driver Concrete.application)
        (Client.ended 0)).session.common.encrypted.map (fun enc => (enc.emitted.drop 2, enc.deeds)) =
          some ([msg.CHANNEL_EOF :: be32 7, dataPacket 7 [1]], [.opened 2, .data 2 [],
            .byte 2 msg.CHANNEL_EOF [([1], none, 0)] (msg.CHANNEL_EOF :: be32 7),
            .flushPending 2 [dataPacket 7 [1]]]) := by
    decide +kernel
  obtain ⟨enc, henc, hsame⟩ := Option.map_eq_some_iff.mp hrun
  obtain ⟨hemitted, hdeeds⟩ := Prod.mk.inj hsame
  refine ⟨enc, henc, hemitted, hdeeds, fun hlast => ?_⟩
  have hnone := hlast [.opened 2, .data 2 []] [.flushPending 2 [dataPacket 7 [1]]] [] _ _ hdeeds
    (by simp)
  cases hnone

end Thrussh
