import Thrussh.Delivery
import Thrussh.Handing

/-!
# Where the data that the application is given come from

The data that the client's application is given are those of the packets that the
session was given, each once and in order. Local messages and exchanges hand over
nothing.
-/

namespace Thrussh.Client

open Deps Lib

section
variable [Deps]

/-- The data that a question hands over on a channel, with their stream. -/
def Callback.dataOn (id : UInt32) : Callback → Option (Option UInt32 × Bytes)
  | .data channel d => if channel = id then some (none, d) else none
  | .extendedData channel ext d => if channel = id then some (some ext, d) else none
  | _ => none

/-- Whether a question hands over no data. -/
abbrev Callback.Bare : Callback → Prop := Thrussh.Bare Callback.dataOn

/-- The data that were handed over on a channel, in order. -/
def handedOn (id : UInt32) (callbacks : List (Callback × Answer)) : List (Option UInt32 × Bytes) :=
  handedOver Callback.dataOn id callbacks

/-- What two sessions have handed over between them is in a packet. -/
def Hands (buf : Bytes) (s t : Session) : Prop :=
  HandsOver Callback.dataOn buf s.callbacks t.callbacks

section
variable {app : Application} {s t : Session} {buf : Bytes} {q : Callback}

omit [Deps] in
/-- A question about no channel hands over nothing. -/
theorem bare_of_channel (h : q.channel = none) : q.Bare := by
  intro id
  cases q with
  | data channel d => cases h
  | extendedData channel ext d => cases h
  | _ => rfl

theorem Hands.of_poses (h : Poses Callback.Bare s t) : Hands buf s t := by
  obtain ⟨asked, hasked, hkind⟩ := h
  rw [Hands, hasked]
  exact .of_bare hkind

/-- Data are handed over after other questions. -/
theorem Hands.after {u : Session} {answer : Answer} (h : Poses Callback.Bare s t)
    (hu : u.callbacks = t.callbacks ++ [(q, answer)]) (hq : ∀ id, q.dataOn id = readData id buf) :
    Hands buf s u := by
  obtain ⟨asked, hasked, hkind⟩ := h
  rw [Hands, hu, hasked]
  exact .after hkind hq

/-- Data are handed over at the end, if nothing fails before. -/
theorem clientReceiveData_hands (num : UInt32) (d : Bytes)
    (hq : ∀ id, q.dataOn id = readData id buf) :
    Hands buf s (final (clientReceiveData app num d q s)) := by
  have hquiet : ∀ {α : Type} {x : M α} {u : Session}, Moves (Poses Callback.Bare) x →
      Poses Callback.Bare s u → Ends x u (fun _ v => Poses Callback.Bare s v) (Hands buf s) :=
    fun hx hu => (Ends.of_moves hx (fun _ _ hstep h => h.trans hstep) hu).mono
      (fun _ _ h => h) fun _ h => .of_poses h
  have hrest : ∀ u, Poses Callback.Bare s u →
      Ends (finish app q) u (fun _ t => Hands buf s t) (Hands buf s) :=
    fun u hu => Ends.of_final (.after hu (finish_callbacks app q u) hq)
  have hends : Ends (clientReceiveData app num d q) s (fun _ t => Hands buf s t) (Hands buf s) := by
    refine Ends.get_bind ?_
    refine (hquiet (poses_of_silent (onCommon_silent _)) (.silent rfl)).bind fun adjusted u hu => ?_
    cases adjusted with
    | false => exact hrest u hu
    | true =>
      refine (hquiet (ask_poses app fun _ => rfl) hu).bind fun answer v hv => ?_
      by_cases hwindow : answer.window > 0
      · simp only [if_pos hwindow]
        exact (hquiet (poses_of_silent (modify_silent (f := fun s => { s with
          targetWindowSize := answer.window }) fun _ => rfl)) hv).bind fun _ w hw => hrest w hw
      · simp only [if_neg hwindow]
        exact hrest v hv
  exact hends.final

omit [Deps] in
/-- The question for a channel request hands over nothing. -/
theorem channelRequestCallback_bare {num : UInt32} {req : Bytes} {r : Position}
    (h : channelRequestCallback num req r = .ok (some q)) : q.Bare := by
  unfold channelRequestCallback at h
  split_ifs at h
  all_goals
    repeat obtain ⟨_, -, h⟩ := ok_of_bind h
    cases h
    try exact fun _ => rfl

omit [Deps] in
/-- Only packets with data hand them over. -/
theorem InPacket.bare (h : InPacket buf q) (hdata : buf.head? ≠ some msg.CHANNEL_DATA)
    (hext : buf.head? ≠ some msg.CHANNEL_EXTENDED_DATA) : q.Bare := by
  cases h with
  | data hhead hid hd => exact absurd hhead hdata
  | extendedData hhead hid hcode hd => exact absurd hhead hext
  | request hhead hid hreq h => exact channelRequestCallback_bare h
  | other h => exact bare_of_channel h
  | _ => exact fun _ => rfl

/-- What an authenticated session hands over is in the packet. -/
theorem clientReadAuthenticated_hands :
    Hands buf s (final (clientReadAuthenticated app buf s)) := by
  have hnone : Hands buf s s := .of_poses (.silent rfl)
  by_cases hdata : buf.head? = some msg.CHANNEL_DATA
  · have hother : ∀ m, m ≠ msg.CHANNEL_DATA → buf.head? ≠ some m := fun m hm heq =>
      hm (Option.some.inj (heq.symm.trans hdata))
    have hrun : clientReadAuthenticated app buf = clientReadData app buf := by
      unfold clientReadAuthenticated
      rw [if_neg (hother _ (by decide)), if_neg (hother _ (by decide)),
        if_neg (hother _ (by decide)), if_neg (hother _ (by decide)), if_pos hdata]
    have hends : Ends (clientReadData app buf) s (fun _ t => Hands buf s t) (Hands buf s) := by
      refine Ends.lift_bind hnone fun p hid => ?_
      obtain ⟨num, r⟩ := p
      refine Ends.lift_bind hnone fun p hd => ?_
      obtain ⟨d, r1⟩ := p
      refine Ends.of_final (clientReceiveData_hands num d fun id => ?_)
      by_cases hnum : num = id
      · simp [Callback.dataOn, readData, hdata, hid, hd, hnum]
      · simp [Callback.dataOn, readData, hdata, hid, hnum]
    rw [hrun]
    exact hends.final
  by_cases hext : buf.head? = some msg.CHANNEL_EXTENDED_DATA
  · have hother : ∀ m, m ≠ msg.CHANNEL_EXTENDED_DATA → buf.head? ≠ some m := fun m hm heq =>
      hm (Option.some.inj (heq.symm.trans hext))
    have hrun : clientReadAuthenticated app buf = clientReadExtendedData app buf := by
      unfold clientReadAuthenticated
      rw [if_neg (hother _ (by decide)), if_neg (hother _ (by decide)),
        if_neg (hother _ (by decide)), if_neg (hother _ (by decide)), if_neg hdata, if_pos hext]
    have hends : Ends (clientReadExtendedData app buf) s (fun _ t => Hands buf s t)
        (Hands buf s) := by
      refine Ends.lift_bind hnone fun p hid => ?_
      obtain ⟨num, r⟩ := p
      refine Ends.lift_bind hnone fun p hcode => ?_
      obtain ⟨ext, r1⟩ := p
      refine Ends.lift_bind hnone fun p hd => ?_
      obtain ⟨d, r2⟩ := p
      refine Ends.of_final (clientReceiveData_hands num d fun id => ?_)
      have hne : msg.CHANNEL_EXTENDED_DATA ≠ msg.CHANNEL_DATA := by decide
      by_cases hnum : num = id
      · simp [Callback.dataOn, readData, hext, hid, hcode, hd, hne, hnum]
      · simp [Callback.dataOn, readData, hext, hid, hnum]
    rw [hrun]
    exact hends.final
  · have hposes : Moves (Poses (InPacket buf)) (clientReadAuthenticated app buf) :=
      clientReadAuthenticated_poses app
    obtain ⟨asked, hasked, hkind⟩ := poses_final hposes s
    exact .of_poses ⟨asked, hasked, fun p hp => (hkind p hp).bare hdata hext⟩

/-- What a packet hands over is in it. -/
theorem reply_hands (app : Application) (hs : s.common.Sound) (buf : Bytes) :
    Hands buf s (final (reply app buf s)) := by
  by_cases hserves : s.Settled ∧ ¬ s.common.InExchange buf
  · rw [reply_state app hs hserves.2, clientReadState_settled app hserves.1]
    exact clientReadAuthenticated_hands
  · have hposes : Poses (fun callback => callback.channel = none ∨
        s.Settled ∧ ¬ s.common.InExchange buf ∧ InPacket buf callback) s (final (reply app buf s)) :=
      reply_poses app hs
    obtain ⟨asked, hasked, hkind⟩ := hposes
    refine .of_poses ⟨asked, hasked, fun p hp => ?_⟩
    rcases hkind p hp with hnone | ⟨hsettled, hin, -⟩
    · exact bare_of_channel hnone
    · exact absurd ⟨hsettled, hin⟩ hserves

end

/-- A local message asks nothing. -/
theorem message_callbacks (m : Option Msg) (s : Session) :
    (final (message m s)).callbacks = s.callbacks := by
  have hsilent : Moves Silent (message m) := by
    cases m with
    | none => exact .bind (modify_silent fun _ => rfl) fun _ => .pure _
    | some m => exact (serveMessage_silent m).bind fun _ => .pure _
  exact hsilent.invariant (p := fun t => t.callbacks = s.callbacks)
    (fun _ _ hstep ht => hstep.trans ht) rfl

/-- Every program of the client hands over only the data in the packets that it was given. -/
theorem driver_conveys (app : Application) : (driver app).Follows (fun acts act => acts ++ [act])
    (fun acts s => s.common.Sound ∧ Conveys Callback.dataOn acts s.callbacks)
    fun acts s => Conveys Callback.dataOn acts s.callbacks := by
  have hbehaves := driver_behaves (P := fun _ => True) (fun _ _ => trivial) app
    fun _ _ _ _ => trivial
  exact hbehaves.conveys (fun _ _ => rfl) (fun _ => rfl)
    (fun _ buf hs => reply_hands app hs buf) fun s m => message_callbacks m s

/-- In every run the application is given only the data of the packets, each once and in order. -/
theorem run_conveys {config : Config} {app : Application} {sshid : Bytes} {world : World}
    {l : Loop Session} (hl : connectStream config app sshid world = .ok l)
    (events : List (Event Msg)) :
    Conveys Callback.dataOn (l.acts (driver app) events)
      (l.run (driver app) events).session.callbacks := by
  obtain ⟨s, t, output, hid, hfinish, rfl⟩ := connectStream_finish hl
  have hasked := finish_callbacks app .onSessionConnected s
  rw [hfinish, final_ok, readSshId_callbacks hid, List.nil_append] at hasked
  have hconveys : Conveys Callback.dataOn ([] : List (Act Session Msg)) t.callbacks := by
    intro id
    rw [hasked]
    exact List.nil_sublist _
  exact (Loop.run_follows (driver_conveys app)
    (Loop.start_follows (driver_conveys app)
      ⟨(finish_initial (readSshId_initial hid) hfinish).sound, hconveys⟩ output) events).ended

end

end Thrussh.Client
