import Thrussh.Server.Inquiry
import Thrussh.Server.Questions
import Thrussh.Server.Gate

/-!
# Channels that the server tells its handler about

The questions of a packet about a channel name the channel of the packet,
and most branches of the dispatcher do not look it up. While every packet
that they serve names a channel of the table, the handler hears of no other,
and a packet for another one fails with WrongChannel or is ignored.
-/

namespace Thrussh.Server

open Deps Lib Position

/-- The channel that a question is about, where the peer has named it. -/
def Callback.channel : Callback → Option UInt32
  | .channelClose id => some id
  | .channelEof id => some id
  | .data id _ => some id
  | .extendedData id _ _ => some id
  | .windowAdjusted id _ => some id
  | .ptyRequest id _ _ _ _ _ _ => some id
  | .x11Request id _ _ _ _ => some id
  | .envRequest id _ _ => some id
  | .shellRequest id => some id
  | .execRequest id _ => some id
  | .subsystemRequest id _ => some id
  | .windowChangeRequest id _ _ _ _ => some id
  | .signal id _ => some id
  | _ => none

/-- Whether a packet is a readable request of an unknown type on a channel. -/
def UnknownRequest (buf : Bytes) (id : UInt32) : Prop :=
  buf.head? = some msg.CHANNEL_REQUEST ∧ ∃ r reqType r1 wantsReply r2,
    (reader buf 1).readU32 = .ok (id, r) ∧ r.readString = .ok (reqType, r1) ∧
    r1.readByte = .ok (wantsReply, r2) ∧ channelRequestCallback id reqType r2 = .ok none

/-- The messages about a channel that the server does not serve. -/
def Unserved (m : UInt8) : Prop :=
  m = msg.CHANNEL_OPEN_CONFIRMATION ∨ m = msg.CHANNEL_OPEN_FAILURE ∨ m = msg.CHANNEL_SUCCESS ∨
    m = msg.CHANNEL_FAILURE

/-- Whether a readable packet is about a channel. -/
inductive About (buf : Bytes) (id : UInt32) : Prop where
  /-- The handler is to be told of the channel. -/
  | question {callback : Callback} (h : InPacket buf callback) (hid : callback.channel = some id)
  /-- A request of an unknown type. -/
  | unknown (h : UnknownRequest buf id)
  /-- A message that the server does not serve. -/
  | unserved {m : UInt8} {r : Position} (hhead : buf.head? = some m) (h : Unserved m)
    (hid : (reader buf 1).readU32 = .ok (id, r))

/-- Whether a packet is about a channel that its branch does not look up. -/
inductive Trusts (buf : Bytes) (id : UInt32) : Prop where
  /-- The handler is told of the channel. -/
  | question {callback : Callback} (hhead : buf.head? ≠ some msg.CHANNEL_WINDOW_ADJUST)
    (h : InPacket buf callback) (hid : callback.channel = some id)
  /-- A request of an unknown type, which is answered. -/
  | unknown (h : UnknownRequest buf id)

/-- The question for a channel request is about its channel. -/
theorem channelRequestCallback_channel {id : UInt32} {reqType : Bytes} {r : Position}
    {callback : Callback} (h : channelRequestCallback id reqType r = .ok (some callback)) :
    callback.channel = some id ∧ callback.authenticates = false := by
  unfold channelRequestCallback at h
  split at h
  · obtain ⟨_, -, h⟩ := ok_of_bind h
    obtain ⟨_, -, h⟩ := ok_of_bind h
    obtain ⟨_, -, h⟩ := ok_of_bind h
    obtain ⟨_, -, h⟩ := ok_of_bind h
    obtain ⟨_, -, h⟩ := ok_of_bind h
    obtain ⟨_, -, h⟩ := ok_of_bind h
    obtain ⟨_, -, h⟩ := ok_of_bind h
    obtain ⟨_, -, h⟩ := ok_of_bind h
    cases h
    exact ⟨rfl, rfl⟩
  split at h
  · obtain ⟨_, -, h⟩ := ok_of_bind h
    obtain ⟨_, -, h⟩ := ok_of_bind h
    obtain ⟨_, -, h⟩ := ok_of_bind h
    obtain ⟨_, -, h⟩ := ok_of_bind h
    obtain ⟨_, -, h⟩ := ok_of_bind h
    obtain ⟨_, -, h⟩ := ok_of_bind h
    cases h
    exact ⟨rfl, rfl⟩
  split at h
  · obtain ⟨_, -, h⟩ := ok_of_bind h
    obtain ⟨_, -, h⟩ := ok_of_bind h
    obtain ⟨_, -, h⟩ := ok_of_bind h
    obtain ⟨_, -, h⟩ := ok_of_bind h
    cases h
    exact ⟨rfl, rfl⟩
  split at h
  · cases h
    exact ⟨rfl, rfl⟩
  split at h
  · obtain ⟨_, -, h⟩ := ok_of_bind h
    cases h
    exact ⟨rfl, rfl⟩
  split at h
  · obtain ⟨_, -, h⟩ := ok_of_bind h
    obtain ⟨_, -, h⟩ := ok_of_bind h
    cases h
    exact ⟨rfl, rfl⟩
  split at h
  · obtain ⟨_, -, h⟩ := ok_of_bind h
    obtain ⟨_, -, h⟩ := ok_of_bind h
    obtain ⟨_, -, h⟩ := ok_of_bind h
    obtain ⟨_, -, h⟩ := ok_of_bind h
    cases h
    exact ⟨rfl, rfl⟩
  split at h
  · obtain ⟨_, -, h⟩ := ok_of_bind h
    obtain ⟨_, -, h⟩ := ok_of_bind h
    obtain ⟨_, -, h⟩ := ok_of_bind h
    cases h
    exact ⟨rfl, rfl⟩
  cases h

/-- A packet of the connection protocol asks nothing about the authentication. -/
theorem InPacket.authenticates {buf : Bytes} {callback : Callback} (h : InPacket buf callback) :
    callback.authenticates = false := by
  cases h with
  | @data id ext d =>
    cases ext with
    | none => rfl
    | some ext => rfl
  | request hhead hid hreq hwants h => exact (channelRequestCallback_channel h).2
  | _ => rfl

/-- A question about a channel is about the channel that the packet names. -/
theorem InPacket.channel {buf : Bytes} {callback : Callback} {id : UInt32}
    (h : InPacket buf callback) (hid : callback.channel = some id) :
    ∃ r, (reader buf 1).readU32 = .ok (id, r) := by
  cases h with
  | channelClose hhead hread => cases hid; exact ⟨_, hread⟩
  | channelEof hhead hread => cases hid; exact ⟨_, hread⟩
  | @data _ ext d _ _ _ hhead hread hext hd =>
    cases ext with
    | none => cases hid; exact ⟨_, hread⟩
    | some ext => cases hid; exact ⟨_, hread⟩
  | adjustWindow hread => cases hid
  | windowAdjusted hhead hread hamount => cases hid; exact ⟨_, hread⟩
  | request hhead hread hreq hwants h =>
    rw [(channelRequestCallback_channel h).1] at hid
    cases hid
    exact ⟨_, hread⟩
  | openSession htyp hsender hwindow hmax => cases hid
  | openX11 htyp hsender hwindow hmax ha ha' hb => cases hid
  | openDirectTcpip htyp hsender hwindow hmax ha ha' hb hc hc' hd => cases hid
  | tcpipForward hreq hwants ha ha' hport => cases hid
  | cancelTcpipForward hreq hwants ha ha' hport => cases hid

/-- Only CHANNEL_WINDOW_ADJUST has questions that its branch asks after a lookup. -/
theorem InPacket.windowAdjust {buf : Bytes} {callback : Callback} {id : UInt32}
    (hhead : buf.head? = some msg.CHANNEL_WINDOW_ADJUST) (h : InPacket buf callback)
    (hid : callback.channel = some id) :
    ∃ r amount r1, (reader buf 1).readU32 = .ok (id, r) ∧ r.readU32 = .ok (amount, r1) := by
  have hne : ∀ {m : UInt8}, m ≠ msg.CHANNEL_WINDOW_ADJUST → buf.head? ≠ some m := by
    intro m hm hsome
    rw [hhead] at hsome
    exact hm (Option.some.inj hsome).symm
  cases h with
  | channelClose hhead' hread => exact absurd hhead' (hne (by decide))
  | channelEof hhead' hread => exact absurd hhead' (hne (by decide))
  | data hhead' hread hext hd =>
    rcases hhead' with hhead' | hhead'
    · exact absurd hhead' (hne (by decide))
    · exact absurd hhead' (hne (by decide))
  | adjustWindow hread => cases hid
  | windowAdjusted hhead' hread hamount => cases hid; exact ⟨_, _, _, hread, hamount⟩
  | request hhead' hread hreq hwants h => exact absurd hhead' (hne (by decide))
  | openSession htyp hsender hwindow hmax => cases hid
  | openX11 htyp hsender hwindow hmax ha ha' hb => cases hid
  | openDirectTcpip htyp hsender hwindow hmax ha ha' hb hc hc' hd => cases hid
  | tcpipForward hreq hwants ha ha' hport => cases hid
  | cancelTcpipForward hreq hwants ha ha' hport => cases hid

section
variable [Deps]

/-- A packet is ignored: nothing is asked or queued, and no channel changes. -/
structure Ignores (s t : Session) : Prop where
  /-- Nothing is asked. -/
  callbacks : t.callbacks = s.callbacks
  /-- Nothing is queued, and no channel changes. -/
  standing : t.common.standing.map Prod.snd = s.common.standing.map Prod.snd

/-- What serving a packet does about channels: the handler is asked only about
those in the table, and a packet about another one fails or is ignored. -/
structure TellsKnown (handler : Handler) (s : Session) (buf : Bytes) : Prop where
  /-- The questions are about channels of the table. -/
  asks : Asks (fun callback => ∀ id, callback.channel = some id → s.common.Knows id) s
    (final (reply handler buf s))
  /-- A packet about a channel that is not in the table. -/
  unknown : s.Settled → ¬ s.common.InExchange buf → ∀ id, About buf id → ¬ s.common.Knows id →
    (∃ t, reply handler buf s = .error (.error .wrongChannel) t) ∨
      ∃ t, reply handler buf s = .ok () t ∧ Ignores s t

/-- Whether a packet whose branch does not look its channel up names one of the table. -/
def NamesKnown (s : Session) (buf : Bytes) : Prop :=
  s.Settled → ¬ s.common.InExchange buf → ∀ id, Trusts buf id → s.common.Knows id

section
variable {handler : Handler} {s t : Session} {buf : Bytes}

/-- A settled session is encrypted. -/
theorem encrypted_of_settled (h : s.Settled) : ∃ enc, s.common.encrypted = some enc := by
  rcases h with hstate | hstate
  · obtain ⟨enc, henc, -⟩ := Option.map_eq_some_iff.mp hstate
    exact ⟨enc, henc⟩
  · obtain ⟨enc, henc, -⟩ := Option.map_eq_some_iff.mp hstate
    exact ⟨enc, henc⟩

/-- The packets of an authenticated session are served by one function. -/
theorem serverReadState_settled (handler : Handler) (buf : Bytes) (h : s.Settled) :
    ∃ u, serverReadState handler buf s = serverReadAuthenticated handler buf u ∧ Ignores s u ∧
      u.Settled := by
  obtain ⟨enc, henc⟩ := encrypted_of_settled h
  have hcases : enc.state = .initCompression ∨ enc.state = .authenticated := by
    simpa [Session.Settled, Session.state, henc] using h
  rcases hcases with hstate | hstate
  · refine ⟨{ s with common := s.common.modifyEnc fun enc => { enc with
      compress := enc.serverCompression.initCompress enc.compress, state := .authenticated } },
      ?_, ⟨rfl, ?_⟩, .inr ?_⟩
    · simp only [serverReadState, run_bind, getEnc, run_get, henc, run_pure, hstate, modifyEnc,
        run_modify]
    · simp only [CommonSession.standing, CommonSession.modifyEnc, henc, Option.map_some]
      rfl
    · simp only [Session.state, CommonSession.modifyEnc, henc, Option.map_some]
  · refine ⟨s, ?_, ⟨rfl, rfl⟩, h⟩
    simp only [serverReadState, run_bind, getEnc, run_get, henc, run_pure, hstate]

/-- What is ignored queues nothing. -/
theorem Ignores.emitted (h : Ignores s t) : t.emitted = s.emitted := by
  have hqueue : ∀ u : Session,
      u.emitted = (u.common.standing.map Prod.snd).elim [] Prod.fst := by
    intro u
    unfold Session.emitted CommonSession.emitted
    cases u.common.standing with
    | none => rfl
    | some standing => rfl
  rw [hqueue t, hqueue s, h.standing]

/-- Within the dialogue only questions about the authentication are asked. -/
theorem serverReadState_dialogue (handler : Handler) (buf : Bytes) {d : Dialogue}
    (h : s.dialogue = some d) :
    Asks (fun callback => callback.authenticates = true) s
      (final (serverReadState handler buf s)) := by
  unfold Session.dialogue at h
  split at h
  · rename_i auth hstate
    cases h
    obtain ⟨enc, henc, hauth⟩ := Option.map_eq_some_iff.mp hstate
    obtain ⟨v, hv, hvstate, -⟩ := view_some henc
    obtain ⟨-, -, -, hvcallbacks⟩ := view_shows hv
    have htold : ∀ {t w bodies}, t.view = some w → Told v w bodies →
        Asks (fun callback => callback.authenticates = true) s t := by
      intro t w bodies ht htold
      obtain ⟨asked, hasked, hkind⟩ := htold.asked
      exact ⟨asked, by rw [(view_shows ht).2.2.2, hasked, hvcallbacks], hkind⟩
    refine ((serverReadState_answered handler buf hv (hvstate.trans hauth)).mono
      (fun _ t ⟨w, ht, hanswered⟩ => ?_) fun t ⟨w, _, ht, hw, _⟩ => htold ht hw).final
    cases hanswered with
    | ignored hw =>
      rw [hw] at ht
      exact htold ht (.refl v)
    | rejected hw => exact htold ht hw
    | prompted hw => exact htold ht hw
    | accepted haccepts hcurrent hcallback hanswer hasked hw => exact htold ht hw
    | @requested u hhead hrequested hw =>
      have hasks : ∀ {bodies}, Told v u bodies →
          Asks (fun callback => callback.authenticates = true) s t := by
        intro bodies hu
        obtain ⟨asked, hasked, hkind⟩ := hu.asked
        refine ⟨asked, ?_, hkind⟩
        rw [(view_shows ht).2.2.2, hw, View.opened_callbacks, hasked, hvcallbacks]
      cases hrequested with
      | rejected hu => exact hasks hu
      | prompted hu => exact hasks hu
      | other hother hcallback haccepts hasked hu => exact hasks hu
      | probed hkey haccepts hu =>
        subst hu
        exact hasks (.asks rfl rfl rfl rfl rfl ⟨rfl, rfl⟩)
      | vouched hreq hsent huser hverified hu =>
        subst hu
        exact hasks ⟨rfl, ⟨[], by simp, by simp⟩, rfl, rfl, rfl, rfl⟩
      | asked hreq haccepts hverified hu =>
        subst hu
        exact hasks (.asks rfl rfl rfl rfl rfl ⟨rfl, rfl⟩)
  · cases h

/-- A window adjustment for a channel that is not in the table fails. -/
theorem windowAdjust_wrongChannel (handler : Handler) {id amount : UInt32} {r r1 : Position}
    {enc : Encrypted} (hhead : buf.head? = some msg.CHANNEL_WINDOW_ADJUST)
    (hid : (reader buf 1).readU32 = .ok (id, r)) (hamount : r.readU32 = .ok (amount, r1))
    (henc : s.common.encrypted = some enc) (hunknown : enc.channels id = none) :
    serverReadAuthenticated handler buf s = .error (.error .wrongChannel) s := by
  have hne : ∀ {m : UInt8}, m ≠ msg.CHANNEL_WINDOW_ADJUST → ¬ buf.head? = some m := by
    intro m hm hsome
    rw [hhead] at hsome
    exact hm (Option.some.inj hsome).symm
  have hdata : ¬ (buf.head? = some msg.CHANNEL_EXTENDED_DATA ∨
      buf.head? = some msg.CHANNEL_DATA) := by
    rintro (h | h)
    · exact hne (by decide) h
    · exact hne (by decide) h
  unfold serverReadAuthenticated
  rw [if_neg (hne (by decide)), if_neg (hne (by decide)), if_neg (hne (by decide)), if_neg hdata,
    if_pos hhead]
  unfold serverReadWindowAdjust
  rw [run_bind, run_lift hid]
  dsimp only
  rw [run_bind, run_lift hamount]
  dsimp only
  have hfails : enc.adjustRecipientWindow id amount = .error (.error .wrongChannel) := by
    simp only [Encrypted.adjustRecipientWindow, hunknown]
  simp only [run_bind, onCommon, zoom, withEnc, run_get, henc, hfails, run_lift_error]

/-- The messages that the server does not serve are ignored. -/
theorem unserved_ignored (handler : Handler) {m : UInt8} (hhead : buf.head? = some m)
    (h : Unserved m) (s : Session) : serverReadAuthenticated handler buf s = .ok () s := by
  unfold serverReadAuthenticated
  rw [hhead]
  rcases h with rfl | rfl | rfl | rfl <;> rfl

/-- A window adjustment that the server reads is for a channel of the table, or it fails. -/
theorem windowAdjust_reply (handler : Handler) {id amount : UInt32} {r r1 : Position}
    (hsettled : s.Settled) (hout : ¬ s.common.InExchange buf)
    (hhead : buf.head? = some msg.CHANNEL_WINDOW_ADJUST)
    (hid : (reader buf 1).readU32 = .ok (id, r)) (hamount : r.readU32 = .ok (amount, r1))
    (hunknown : ¬ s.common.Knows id) :
    ∃ t, reply handler buf s = .error (.error .wrongChannel) t ∧ t.callbacks = s.callbacks := by
  obtain ⟨u, hrun, hu, -⟩ := serverReadState_settled handler buf hsettled
  obtain ⟨enc, henc⟩ := encrypted_of_settled hsettled
  have hunknown' := (knows_congr hu.standing id).not.mpr hunknown
  cases huenc : u.common.encrypted with
  | none =>
    have hstanding := hu.standing
    simp only [CommonSession.standing, huenc, henc, Option.map_none, Option.map_some] at hstanding
    cases hstanding
  | some enc' =>
    have hnone : enc'.channels id = none := by
      cases hch : enc'.channels id with
      | none => rfl
      | some ch => exact absurd ⟨enc', ch, huenc, hch⟩ hunknown'
    rw [reply_state handler hout, hrun]
    exact ⟨u, windowAdjust_wrongChannel handler hhead hid hamount huenc hnone, hu.callbacks⟩

/-- The handler is told of channels only when a packet of a settled session is
served, and only what the packet says. -/
theorem reply_asks (hsound : s.common.Sound) :
    Asks (fun callback => callback.channel = none ∨
      s.Settled ∧ ¬ s.common.InExchange buf ∧ InPacket buf callback) s
      (final (reply handler buf s)) := by
  by_cases hin : s.common.InExchange buf
  · have hfinal := ((reply_stands handler hsound hin).mono (fun _ t ht => ht.callbacks)
      fun t ht => ht.callbacks).final
    exact .silent hfinal
  cases henc : s.common.encrypted with
  | none => exact absurd (.inl henc) hin
  | some enc =>
    rw [reply_state handler hin]
    obtain ⟨v, hv, hvstate, -⟩ := view_some henc
    obtain ⟨hstate, -, -, hvcallbacks⟩ := view_shows hv
    rw [hvstate] at hstate
    have hsettled : s.Settled → Asks (fun callback => callback.channel = none ∨
        s.Settled ∧ ¬ s.common.InExchange buf ∧ InPacket buf callback) s
        (final (serverReadState handler buf s)) := by
      intro hsettled
      obtain ⟨u, hrun, hu, -⟩ := serverReadState_settled handler buf hsettled
      have hasks := (serverReadAuthenticated_asks handler).invariant
        (p := Asks (InPacket buf) u) (fun _ _ hstep h => h.trans hstep) (.silent rfl)
      obtain ⟨asked, hasked, hkind⟩ := hasks
      rw [hrun]
      exact ⟨asked, by rw [hasked, hu.callbacks], fun p hp => .inr ⟨hsettled, hin, hkind p hp⟩⟩
    cases hcase : enc.state with
    | waitingServiceRequest sent accepted =>
      refine ((serverReadState_service handler buf hv (hvstate.trans hcase)).mono
        (fun _ t ht => .silent ?_) fun t ht => .silent ?_).final
      · rcases ht with ht | ⟨methods, banner, ht⟩
        · rw [(view_shows ht).2.2.2, hvcallbacks]
        · rw [(view_shows ht).2.2.2, hvcallbacks]
      · rw [(view_shows ht).2.2.2, hvcallbacks]
    | waitingAuthRequest auth =>
      have hdialogue : s.dialogue = some ⟨s.common.authUser, auth⟩ := by
        simp only [Session.dialogue, hstate, hcase]
      obtain ⟨asked, hasked, hkind⟩ := serverReadState_dialogue handler buf hdialogue
      refine ⟨asked, hasked, fun p hp => .inl ?_⟩
      have hauth := hkind p hp
      generalize p.1 = callback at hauth
      cases callback <;> cases hauth <;> rfl
    | initCompression => exact hsettled (.inl (hstate.trans (by rw [hcase])))
    | authenticated => exact hsettled (.inr (hstate.trans (by rw [hcase])))

/-- A packet that trusts only channels of the table tells the handler of no other. -/
theorem tellsKnown_of_namesKnown (hsound : s.common.Sound) (h : NamesKnown s buf) :
    TellsKnown handler s buf := by
  constructor
  · have hasks : Asks (fun callback => callback.channel = none ∨
        s.Settled ∧ ¬ s.common.InExchange buf ∧ InPacket buf callback) s
        (final (reply handler buf s)) := reply_asks hsound
    obtain ⟨asked, hasked, hkind⟩ := hasks
    refine ⟨asked, hasked, fun p hp id hid => ?_⟩
    rcases hkind p hp with hnone | ⟨hsettled, hin, hpacket⟩
    · rw [hnone] at hid
      cases hid
    by_cases hhead : buf.head? = some msg.CHANNEL_WINDOW_ADJUST
    · -- the branch looks the channel up before it asks
      by_contra hunknown
      obtain ⟨r, amount, r1, hread, hamount⟩ := hpacket.windowAdjust hhead hid
      obtain ⟨t, hreply, ht⟩ := windowAdjust_reply handler hsettled hin hhead hread hamount hunknown
      rw [hreply, final_error, ht, List.self_eq_append_right] at hasked
      rw [hasked] at hp
      cases hp
    · exact h hsettled hin id (.question hhead hpacket hid)
  · intro hsettled hin id habout hunknown
    cases habout with
    | question hquestion hid =>
      by_cases hhead : buf.head? = some msg.CHANNEL_WINDOW_ADJUST
      · obtain ⟨r, amount, r1, hread, hamount⟩ := hquestion.windowAdjust hhead hid
        obtain ⟨t, hreply, -⟩ := windowAdjust_reply handler hsettled hin hhead hread hamount
          hunknown
        exact .inl ⟨t, hreply⟩
      · exact absurd (h hsettled hin id (.question hhead hquestion hid)) hunknown
    | unknown hrequest => exact absurd (h hsettled hin id (.unknown hrequest)) hunknown
    | unserved hhead hunserved hread =>
      obtain ⟨u, hrun, hu, -⟩ := serverReadState_settled handler buf hsettled
      refine .inr ⟨u, ?_, hu⟩
      rw [reply_state handler hin, hrun]
      exact unserved_ignored handler hhead hunserved u

end

end

end Thrussh.Server
