import Thrussh.Handing
import Thrussh.Server.Course
import Thrussh.Server.Gate
import Thrussh.Server.Inquiry
import Thrussh.Server.Questions

/-!
# Where the questions of the server come from

Everything that the handler is ever asked about is in a packet that the session
was given: a request in the dialogue, or a packet of the connection protocol
once the session is authenticated. Local messages and exchanges ask nothing. The data that
the handler is given are those of the packets, each once and in order.
-/

namespace Thrussh.Server

open Deps Lib

section
variable [Deps]

/-- A question that a packet of the authentication puts in some dialogue. -/
def InRequest (buf : Bytes) (q : Callback) : Prop :=
  ∃ current inquiry d, Inquires buf ∧ readInquiry current buf = .ok inquiry ∧
    inquiry.question d = some q

/-- A question that is in a packet. -/
def Prompts (buf : Bytes) (q : Callback) : Prop :=
  InRequest buf q ∨ Connects buf ∧ InPacket buf q

section
variable {handler : Handler} {s t : Session} {buf : Bytes}

/-- A packet that is none of the connection protocol does nothing once the session is
authenticated. -/
theorem serverReadAuthenticated_other (h : ¬ Connects buf) :
    serverReadAuthenticated handler buf s = .ok () s := by
  have hhead : ∀ m, msg.GLOBAL_REQUEST ≤ m → buf.head? ≠ some m := fun m hm heq =>
    h ⟨m, heq, hm⟩
  unfold serverReadAuthenticated
  rw [if_neg (hhead _ (by decide)), if_neg (hhead _ (by decide)), if_neg (hhead _ (by decide)),
    if_neg (by
      rintro (heq | heq)
      · exact hhead _ (by decide) heq
      · exact hhead _ (by decide) heq), if_neg (hhead _ (by decide)),
    if_neg (hhead _ (by decide)), if_neg (hhead _ (by decide))]
  rfl

/-- What an authenticated session asks is in the packet. -/
theorem serverReadAuthenticated_asked :
    Ends (serverReadAuthenticated handler buf) s (fun _ t => Server.Asks (Prompts buf) s t)
      (Server.Asks (Prompts buf) s) := by
  by_cases hconnects : Connects buf
  · refine Ends.of_moves (p := Server.Asks (Prompts buf) s) (serverReadAuthenticated_asks handler)
      (fun u v hstep hu => hu.trans ?_) (.silent rfl)
    obtain ⟨asked, hasked, hkind⟩ := hstep
    exact ⟨asked, hasked, fun p hp => .inr ⟨hconnects, hkind p hp⟩⟩
  · unfold Ends
    rw [serverReadAuthenticated_other hconnects]
    exact .silent rfl

/-- What a packet of the dialogue asks is in it. -/
theorem Treated.asks_in {id : Bytes32} {d : Dialogue} {current : Option CurrentRequest}
    {result : EStateM.Result Fault Session Unit}
    (h : Treated handler s id d (readInquiry current buf) result) (hinquires : Inquires buf) :
    Server.Asks (InRequest buf) s (final result) := by
  generalize hread : readInquiry current buf = read at h
  have hsilent : ∀ {t : Session}, t.callbacks = s.callbacks ++ [] →
      Server.Asks (InRequest buf) s t := fun ht => .silent (by rw [ht, List.append_nil])
  have hone : ∀ {t : Session} {inquiry : Inquiry} {q : Callback} {answer : Answer},
      readInquiry current buf = .ok inquiry → inquiry.question d = some q →
      t.callbacks = s.callbacks ++ [(q, answer)] → Server.Asks (InRequest buf) s t := by
    intro t inquiry q answer hok hq ht
    refine ⟨_, ht, fun p hp => ?_⟩
    rw [List.mem_singleton.mp hp]
    exact ⟨current, inquiry, d, hinquires, hok, hq⟩
  cases h with
  | unread ht => exact hsilent ht.callbacks
  | untold hq ho ht => exact hsilent ht.callbacks
  | failed hq hfail ht => exact hone hread hq ht.callbacks
  | stuck hq hfail ho ht => exact hone hread hq ht.callbacks
  | told hq hfail ho ht => exact hone hread hq ht.callbacks

/-- A packet outside of an exchange is one of the dialogue, or served by an authenticated
session. -/
theorem serverReadState_cases (handler : Handler) (buf : Bytes) (s : Session) :
    Server.Asks (InRequest buf) s (final (serverReadState handler buf s)) ∨
      ∃ u : Session, u.callbacks = s.callbacks ∧
        serverReadState handler buf s = serverReadAuthenticated handler buf u := by
  cases henc : s.common.encrypted with
  | none =>
    simp only [serverReadState, getEnc, run_bind, run_get, henc, run_throw, final_error]
    exact .inl (.silent rfl)
  | some enc =>
    obtain ⟨v, hv, hstate, -⟩ := view_some henc
    cases hcase : enc.state with
    | waitingServiceRequest sent accepted =>
      have hsilent : ∀ t : Session, (∃ w, t.view = some w ∧ w.callbacks = v.callbacks) →
          Server.Asks (InRequest buf) s t := by
        rintro t ⟨w, ht, hw⟩
        refine .silent ?_
        rw [(view_shows ht).2.2.2, hw, (view_shows hv).2.2.2]
      have hends : Ends (serverReadState handler buf) s (fun _ t => Server.Asks (InRequest buf) s t)
          (Server.Asks (InRequest buf) s) := by
        refine (serverReadState_service handler buf hv (hstate.trans hcase)).mono
          (fun _ t ht => ?_) fun t ht => hsilent t ⟨v, ht, rfl⟩
        rcases ht with ht | ⟨methods, banner, ht⟩
        · exact hsilent t ⟨v, ht, rfl⟩
        · exact hsilent t ⟨_, ht, rfl⟩
      exact .inl hends.final
    | waitingAuthRequest auth =>
      refine .inl ?_
      by_cases hinquires : Inquires buf
      · exact (serverReadState_treated handler hv (hstate.trans hcase) hinquires).asks_in hinquires
      · unfold Inquires at hinquires
        rw [not_or] at hinquires
        have hrun : serverReadState handler buf s = .ok () s := by
          simp only [serverReadState, run_bind, getEnc, run_get, henc, run_pure, hcase,
            if_neg hinquires.1, if_neg hinquires.2]
        rw [hrun]
        exact .silent rfl
    | authenticated =>
      refine .inr ⟨s, rfl, ?_⟩
      simp only [serverReadState, run_bind, getEnc, run_get, henc, run_pure, hcase]
    | initCompression =>
      refine .inr ⟨{ s with common := s.common.modifyEnc fun enc => { enc with
        compress := enc.serverCompression.initCompress enc.compress
        state := .authenticated } }, rfl, ?_⟩
      simp only [serverReadState, run_bind, getEnc, run_get, henc, run_pure, hcase, modifyEnc,
        run_modify]

/-- What a packet asks is in it. -/
theorem reply_asked (handler : Handler) (hs : s.common.Sound) (buf : Bytes) :
    Server.Asks (Prompts buf) s (final (reply handler buf s)) := by
  by_cases hin : s.common.InExchange buf
  · have hstands : ∀ t, Stands s t → Server.Asks (Prompts buf) s t := fun t ht =>
      .silent ht.callbacks
    exact ((reply_stands handler hs hin).mono (fun _ => hstands) hstands).final
  · rw [reply_state handler hin]
    rcases serverReadState_cases handler buf s with ⟨asked, hasked, hkind⟩ | ⟨u, hu, hrun⟩
    · exact ⟨asked, hasked, fun p hp => .inl (hkind p hp)⟩
    · rw [hrun]
      exact (Asks.silent hu).trans serverReadAuthenticated_asked.final

end

/-- The handler was asked some questions before, and since then only what is in a packet that the
session was given. -/
def Sourced (before : List (Callback × Answer)) (acts : List (Act Session (UInt32 × ChannelMsg)))
    (s : Session) : Prop :=
  ∃ asked, s.callbacks = before ++ asked ∧ ∀ p ∈ asked, ∃ buf ∈ heard acts, Prompts buf p.1

section
variable {before : List (Callback × Answer)} {acts : List (Act Session (UInt32 × ChannelMsg))}
  {s t : Session}

theorem Sourced.silent (h : Sourced before acts s) (hcallbacks : t.callbacks = s.callbacks) :
    Sourced before acts t := by
  obtain ⟨asked, hs, hasked⟩ := h
  exact ⟨asked, hcallbacks.trans hs, hasked⟩

/-- What was given later is given, too. -/
theorem Sourced.later (h : Sourced before acts s) (act : Act Session (UInt32 × ChannelMsg)) :
    Sourced before (acts ++ [act]) s := by
  obtain ⟨asked, hs, hasked⟩ := h
  refine ⟨asked, hs, fun p hp => ?_⟩
  obtain ⟨buf, hbuf, hin⟩ := hasked p hp
  rw [heard_append]
  exact ⟨buf, List.mem_append_left _ hbuf, hin⟩

theorem Sourced.reply {buf : Bytes} (h : Sourced before acts s)
    (hasks : Server.Asks (Prompts buf) s t) : Sourced before (acts ++ [.reply s buf]) t := by
  obtain ⟨more, hmore, hkind⟩ := hasks
  obtain ⟨asked, hs, hasked⟩ := h.later (.reply s buf)
  refine ⟨asked ++ more, by rw [hmore, hs, List.append_assoc], fun p hp => ?_⟩
  rcases List.mem_append.mp hp with hp | hp
  · exact hasked p hp
  · rw [heard_append]
    exact ⟨buf, List.mem_append_right _ (List.mem_singleton_self _), hkind p hp⟩

end

/-- Every program of the server asks only what is in the packets that it was given. -/
theorem driver_sourced (handler : Handler) (before : List (Callback × Answer)) :
    (driver handler).Follows (fun acts act => acts ++ [act])
      (fun acts s => s.common.Sound ∧ Sourced before acts s) (Sourced before) := by
  have hkeeps := (driver_behaves (P := fun _ => True) (fun _ _ => trivial) handler).keeps_sound
  refine ⟨fun acts s hs => hs.2, fun acts s enc decompress henc hs => ⟨?_, hs.2⟩,
    fun acts s buf hs => ?_, fun acts s m enc hs _ _ => ?_, fun acts s hs => ?_,
    fun acts s hs => ?_⟩
  · exact hkeeps.inflate s enc decompress henc hs.1
  · have hsourced := hs.2.reply (reply_asked handler hs.1 buf)
    exact ((hkeeps.reply s buf hs.1).and (Ends.of_final hsourced)).mono (fun _ _ ht => ht)
      fun _ ht => ht.2
  · have hsourced := (hs.2.later (.message s m)).silent (silent_callbacks (message_silent m) s)
    exact ((hkeeps.message s m hs.1).and (Ends.of_final hsourced)).mono (fun _ _ ht => ht)
      fun _ ht => ht.2
  · exact ((hkeeps.flush s hs.1).and (flush_stands s)).mono
      (fun _ t ht => ⟨ht.1, hs.2.silent ht.2.1⟩) fun t ht => hs.2.silent ht.2.1
  · exact ⟨hkeeps.settle s hs.1, hs.2⟩

/-- In the course of every run the handler is asked only about what the session is given. -/
theorem sourced_since {config : Config} {handler : Handler} {sshid : Bytes} {world : World}
    {l : Loop Session} (hl : runStream config handler sshid world = .ok l)
    (events more : List (Event (UInt32 × ChannelMsg))) :
    Sourced (l.run (driver handler) events).session.callbacks
      ((l.run (driver handler) events).acts (driver handler) more)
      ((l.run (driver handler) events).run (driver handler) more).session := by
  obtain ⟨s, output, hid, rfl⟩ := runStream_readSshId hl
  have hkeeps := (driver_behaves (P := fun _ => True) (fun _ _ => trivial) handler).keeps_sound
  have hkept := Loop.run_kept hkeeps
    (Loop.start_kept hkeeps (readSshId_initial hid).sound output) events
  set u := (Loop.start (driver handler) s output).run (driver handler) events
  have hsourced : Sourced u.session.callbacks [] u.session :=
    ⟨[], (List.append_nil _).symm, by simp⟩
  exact (Loop.run_follows (driver_sourced handler u.session.callbacks) (h := [])
    ⟨fun hrunning => ⟨hkept.running hrunning, hsourced⟩, hsourced⟩ more).ended

/-- In every run the handler is asked only about what the session was given. -/
theorem run_sourced {config : Config} {handler : Handler} {sshid : Bytes} {world : World}
    {l : Loop Session} (hl : runStream config handler sshid world = .ok l)
    (events : List (Event (UInt32 × ChannelMsg))) :
    Sourced [] (l.acts (driver handler) events) (l.run (driver handler) events).session := by
  obtain ⟨s, output, hid, rfl⟩ := runStream_readSshId hl
  have hsourced : Sourced [] [] s := ⟨[], readSshId_callbacks hid, by simp⟩
  exact (Loop.run_follows (driver_sourced handler [])
    (Loop.start_follows (driver_sourced handler []) ⟨(readSshId_initial hid).sound, hsourced⟩ output)
    events).ended

/-! ### Data -/

/-- The data that a question hands over on a channel, with their stream. -/
def Callback.dataOn (id : UInt32) : Callback → Option (Option UInt32 × Bytes)
  | .data channel d => if channel = id then some (none, d) else none
  | .extendedData channel ext d => if channel = id then some (some ext, d) else none
  | _ => none

/-- Whether a question hands over no data. -/
abbrev Callback.Bare : Callback → Prop := Thrussh.Bare Callback.dataOn

/-- The data that were handed over on a channel, in order. -/
def handedOn (id : UInt32) (callbacks : List (Callback × Answer)) : List (Option UInt32 × Bytes) :=
  handedOver Callback.dataOn id callbacks

/-- What two sessions have handed over between them is in a packet. -/
def Hands (buf : Bytes) (s t : Session) : Prop :=
  HandsOver Callback.dataOn buf s.callbacks t.callbacks

section
variable {handler : Handler} {s t : Session} {buf : Bytes}

theorem Hands.of_asks (h : Server.Asks Callback.Bare s t) : Hands buf s t := by
  obtain ⟨asked, hasked, hkind⟩ := h
  rw [Hands, hasked]
  exact .of_bare hkind

/-- Data are handed over after other questions. -/
theorem Hands.after {u : Session} {q : Callback} {answer : Answer}
    (h : Server.Asks Callback.Bare s t) (hu : u.callbacks = t.callbacks ++ [(q, answer)])
    (hq : ∀ id, q.dataOn id = readData id buf) : Hands buf s u := by
  obtain ⟨asked, hasked, hkind⟩ := h
  rw [Hands, hu, hasked]
  exact .after hkind hq

omit [Deps] in
/-- What the server reads in a packet with data is what they are. -/
theorem dataCallback_dataOn {num : UInt32} {ext : Option UInt32} {d : Bytes} {r r1 r2 : Position}
    (hhead : buf.head? = some msg.CHANNEL_EXTENDED_DATA ∨ buf.head? = some msg.CHANNEL_DATA)
    (hid : (reader buf 1).readU32 = .ok (num, r)) (hext : readExt buf r = .ok (ext, r1))
    (hd : r1.readString = .ok (d, r2)) (id : UInt32) :
    (dataCallback num ext d).dataOn id = readData id buf := by
  unfold readExt at hext
  rcases hhead with hhead | hhead
  · have hother : buf.head? ≠ some msg.CHANNEL_DATA := by
      rw [hhead]
      decide
    have hne : msg.CHANNEL_EXTENDED_DATA ≠ msg.CHANNEL_DATA := by decide
    rw [if_neg hother] at hext
    obtain ⟨⟨e, r'⟩, he, heq⟩ := ok_of_bind hext
    cases heq
    by_cases hnum : num = id
    · simp [dataCallback, Callback.dataOn, readData, hhead, hid, he, hd, hne, hnum]
    · simp [dataCallback, Callback.dataOn, readData, hhead, hid, hnum]
  · rw [if_pos hhead] at hext
    cases hext
    by_cases hnum : num = id
    · simp [dataCallback, Callback.dataOn, readData, hhead, hid, hd, hnum]
    · simp [dataCallback, Callback.dataOn, readData, hhead, hid, hnum]

/-- A packet with data hands them over at the end, if nothing fails before. -/
theorem serverReadData_hands
    (hhead : buf.head? = some msg.CHANNEL_EXTENDED_DATA ∨ buf.head? = some msg.CHANNEL_DATA) :
    Ends (serverReadData handler buf) s (fun _ t => Hands buf s t) (Hands buf s) := by
  have hsilent : Server.Asks Callback.Bare s s := .silent rfl
  have hquiet : ∀ {α : Type} {x : M α} {u : Session}, Moves (Server.Asks Callback.Bare) x →
      Server.Asks Callback.Bare s u →
        Ends x u (fun _ v => Server.Asks Callback.Bare s v) (Hands buf s) :=
    fun hx hu => (Ends.of_moves hx (fun _ _ hstep h => h.trans hstep) hu).mono
      (fun _ _ h => h) fun _ h => .of_asks h
  refine Ends.lift_bind (.of_asks hsilent) fun ⟨num, r⟩ hid => ?_
  refine Ends.lift_bind (.of_asks hsilent) fun ⟨ext, r1⟩ hext => ?_
  refine Ends.lift_bind (.of_asks hsilent) fun ⟨d, r2⟩ hd => Ends.get_bind ?_
  have hrest : ∀ u, Server.Asks Callback.Bare s u → Ends (do
      onCommon flush
      finish handler (dataCallback num ext d)) u (fun _ t => Hands buf s t) (Hands buf s) := by
    intro u hu
    refine (hquiet (asks_of_silent (onCommon_silent _)) hu).bind fun _ v hv => ?_
    exact Ends.of_final (.after hv (finish_callbacks handler _ v)
      (dataCallback_dataOn hhead hid hext hd))
  refine (hquiet (asks_of_silent (onCommon_silent _)) hsilent).bind fun adjusted u hu => ?_
  cases adjusted with
  | false => exact hrest u hu
  | true =>
    have hask : Moves (Server.Asks Callback.Bare)
        (ask handler (.adjustWindow num s.targetWindowSize)) :=
      fun t => .single ⟨_, rfl, fun p hp => by
        rw [List.mem_singleton.mp hp]
        exact fun _ => rfl⟩
    refine (hquiet hask hu).bind fun answer v hv => ?_
    by_cases hwindow : answer.window > 0
    · simp only [if_pos hwindow]
      exact (hquiet (asks_of_silent (modify_silent (f := fun s => { s with
        targetWindowSize := answer.window }) fun _ => rfl)) hv).bind fun _ w hw => hrest w hw
    · simp only [if_neg hwindow]
      exact hrest v hv

omit [Deps] in
/-- The question for a channel request hands over nothing. -/
theorem channelRequestCallback_bare {num : UInt32} {reqType : Bytes} {r : Position} {q : Callback}
    (h : channelRequestCallback num reqType r = .ok (some q)) : q.Bare := by
  unfold channelRequestCallback at h
  split_ifs at h
  all_goals
    repeat obtain ⟨_, -, h⟩ := ok_of_bind h
    cases h
    try exact fun _ => rfl

omit [Deps] in
/-- Only packets with data hand them over. -/
theorem InPacket.bare {q : Callback} (h : InPacket buf q)
    (hhead : ¬ (buf.head? = some msg.CHANNEL_EXTENDED_DATA ∨ buf.head? = some msg.CHANNEL_DATA)) :
    q.Bare := by
  cases h with
  | data hdata hid hext hd => exact absurd hdata hhead
  | request hrequest hid hreq hwants h => exact channelRequestCallback_bare h
  | _ => exact fun _ => rfl

/-- A request of the dialogue hands over nothing. -/
theorem InRequest.bare {q : Callback} (h : InRequest buf q) : q.Bare := by
  obtain ⟨current, inquiry, d, -, -, hq⟩ := h
  unfold Inquiry.question at hq
  intro id
  cases inquiry with
  | signed req =>
    dsimp only at hq
    split at hq
    · cases hq
      rfl
    · cases hq
  | refused => cases hq
  | _ =>
    cases hq
    rfl

/-- What an authenticated session hands over is in the packet. -/
theorem serverReadAuthenticated_hands :
    Hands buf s (final (serverReadAuthenticated handler buf s)) := by
  by_cases hhead : buf.head? = some msg.CHANNEL_EXTENDED_DATA ∨ buf.head? = some msg.CHANNEL_DATA
  · have hother : ∀ m, m ≠ msg.CHANNEL_EXTENDED_DATA → m ≠ msg.CHANNEL_DATA →
        buf.head? ≠ some m := by
      intro m hext hdata heq
      rcases hhead with h | h
      · exact hext (Option.some.inj (heq.symm.trans h))
      · exact hdata (Option.some.inj (heq.symm.trans h))
    have hrun : serverReadAuthenticated handler buf s = serverReadData handler buf s := by
      unfold serverReadAuthenticated
      rw [if_neg (hother _ (by decide) (by decide)), if_neg (hother _ (by decide) (by decide)),
        if_neg (hother _ (by decide) (by decide)), if_pos hhead]
    rw [hrun]
    exact (serverReadData_hands hhead).final
  · obtain ⟨asked, hasked, hkind⟩ := (serverReadAuthenticated_asks handler).invariant
      (p := Server.Asks (InPacket buf) s) (fun _ _ hstep h => h.trans hstep) (.silent rfl)
    exact .of_asks ⟨asked, hasked, fun p hp => (hkind p hp).bare hhead⟩

/-- What a packet hands over is in it. -/
theorem reply_hands (handler : Handler) (hs : s.common.Sound) (buf : Bytes) :
    Hands buf s (final (reply handler buf s)) := by
  by_cases hin : s.common.InExchange buf
  · have hstands : ∀ t, Stands s t → Hands buf s t := fun t ht =>
      .of_asks (.silent ht.callbacks)
    exact ((reply_stands handler hs hin).mono (fun _ => hstands) hstands).final
  · rw [reply_state handler hin]
    rcases serverReadState_cases handler buf s with ⟨asked, hasked, hkind⟩ | ⟨u, hu, hrun⟩
    · exact .of_asks ⟨asked, hasked, fun p hp => (hkind p hp).bare⟩
    · rw [hrun]
      obtain ⟨asked, hasked, hgiven⟩ :
          Hands buf u (final (serverReadAuthenticated handler buf u)) := serverReadAuthenticated_hands
      exact ⟨asked, by rw [hasked, hu], hgiven⟩

end

/-- Every program of the server hands over only the data in the packets that it was given. -/
theorem driver_conveys (handler : Handler) :
    (driver handler).Follows (fun acts act => acts ++ [act])
      (fun acts s => s.common.Sound ∧ Conveys Callback.dataOn acts s.callbacks)
      fun acts s => Conveys Callback.dataOn acts s.callbacks :=
  (driver_behaves (P := fun _ => True) (fun _ _ => trivial) handler).conveys (fun _ _ => rfl)
    (fun _ => rfl) (fun _ buf hs => reply_hands handler hs buf)
    fun s m => silent_callbacks (message_silent m) s

/-- In every run the handler is given only the data of the packets, each once and in order. -/
theorem run_conveys {config : Config} {handler : Handler} {sshid : Bytes} {world : World}
    {l : Loop Session} (hl : runStream config handler sshid world = .ok l)
    (events : List (Event (UInt32 × ChannelMsg))) :
    Conveys Callback.dataOn (l.acts (driver handler) events)
      (l.run (driver handler) events).session.callbacks := by
  obtain ⟨s, output, hid, rfl⟩ := runStream_readSshId hl
  have hconveys : Conveys Callback.dataOn ([] : List (Act Session (UInt32 × ChannelMsg)))
      s.callbacks := by
    intro id
    rw [readSshId_callbacks hid]
    exact List.nil_sublist _
  exact (Loop.run_follows (driver_conveys handler)
    (Loop.start_follows (driver_conveys handler) ⟨(readSshId_initial hid).sound, hconveys⟩ output)
    events).ended

end

end Thrussh.Server
