import Thrussh.Dispatch
import Thrussh.Replies
import Thrussh.Server.Table

/-!
# The server's replies

The replies that the handler sends by `channel_success` and `channel_failure`
are at most as many as the requests that wanted one. The server's own replies
do not look at `want_reply`: where it is set, a global request is answered
once, and a request of an unknown type on a channel is answered without the
number of the channel.
-/

namespace Thrussh.Server

open Deps Lib

section
variable [Deps]

instance (s : Session) : Decidable s.Settled := inferInstanceAs (Decidable (_ ∨ _))

/-- Whether a packet is a request that an authenticated session serves, on an
open channel, and that wants a reply. -/
def Session.wanted (s : Session) (buf : Bytes) : Bool :=
  decide (s.Settled ∧ ¬ s.common.InExchange buf) && s.common.encrypted.any (·.wanted buf)

/-- How many requests wanted a reply so far. -/
def countWanted (n : Nat) : Act Session (UInt32 × ChannelMsg) → Nat
  | .reply s buf => n + if s.wanted buf then 1 else 0
  | .message _ _ => n

/-- How many replies on channels a session has queued. -/
def Session.channelReplies (s : Session) : Nat := s.emitted.countP isChannelReply

/-- A session that owes at most so many replies, those it has sent included. -/
def Owing (n : Nat) (s : Session) : Prop := ∀ enc ∈ s.common.encrypted, Owes n enc

section
variable {handler : Handler} {s t : Session} {buf : Bytes} {n : Nat}

theorem Owing.channelReplies (h : Owing n s) : s.channelReplies ≤ n := by
  unfold Session.channelReplies Session.emitted
  cases henc : s.common.encrypted with
  | none =>
    rw [emitted_none henc]
    exact Nat.zero_le n
  | some enc =>
    obtain ⟨awaiting, -, hcount⟩ := h enc henc
    rw [emitted_some henc]
    omega

theorem Owing.mono {m : Nat} (h : Owing n s) (hle : n ≤ m) : Owing m s :=
  fun enc henc => (h enc henc).mono hle

/-- What keeps the debt of `enc` keeps that of the session. -/
theorem Owing.of_rel {m : Nat} {R : Encrypted → Encrypted → Prop} (h : Owing n s)
    (hrel : Option.Rel R s.common.encrypted t.common.encrypted)
    (hstep : ∀ enc enc', s.common.encrypted = some enc → R enc enc' → Owes n enc → Owes m enc') :
    Owing m t := by
  intro enc' henc'
  rw [Option.mem_def] at henc'
  rw [henc'] at hrel
  cases henc : s.common.encrypted with
  | none =>
    rw [henc] at hrel
    cases hrel
  | some enc =>
    rw [henc] at hrel
    cases hrel with
    | some hrel => exact hstep enc enc' henc hrel (h enc henc)

theorem Owing.of_operations (h : Owing n s)
    (hrel : Option.Rel (Operations True) s.common.encrypted t.common.encrypted) : Owing n t :=
  h.of_rel hrel fun _ _ _ hoperations hn => hoperations.owes hn

theorem Owing.of_operated {α : Type} {x : M α} (h : Owing n s) (hx : Moves (Operated True) x) :
    Ends x s (fun _ t => Owing n t) (Owing n) :=
  .of_final (h.of_operations (operations_of_operated (hx s)))

/-- A packet makes a session owe one reply more only if it is a request that wants one. -/
theorem reply_owing (handler : Handler) (hsound : s.common.Sound) (h : Owing n s) :
    Ends (reply handler buf) s (fun _ t => Owing (n + if s.wanted buf then 1 else 0) t)
      (Owing (n + if s.wanted buf then 1 else 0)) := by
  have hle : n ≤ n + if s.wanted buf then 1 else 0 := Nat.le_add_right _ _
  by_cases hserved : s.Settled ∧ ¬ s.common.InExchange buf
  · have hserving : ∀ {t}, Serving buf s t → Owing (n + if s.wanted buf then 1 else 0) t := by
      intro t ht
      refine h.of_rel ht fun enc enc' henc hserves hn => ?_
      have hwanted : s.wanted buf = enc.wanted buf := by
        simp only [Session.wanted, hserved.1, hserved.2, henc, not_false_eq_true, and_self,
          decide_true, Bool.true_and, Option.any_some]
      rw [hwanted]
      exact hserves.owes hn
    exact (reply_serving handler hserved.1 hserved.2).mono (fun _ _ => hserving) fun _ => hserving
  · have hundispatched : ∀ {t}, Undispatched s t →
        Owing (n + if s.wanted buf then 1 else 0) t := by
      intro t ht
      refine Owing.mono ?_ hle
      cases ht with
      | operations hrel => exact h.of_operations hrel
      | started hs ht =>
        intro enc henc
        rw [CommonSession.standing, Option.mem_def.mp henc, Option.map_some,
          Option.some.injEq] at ht
        have hchannels : enc.channels = fun _ => none := congrArg (fun x => x.2.2.1) ht
        have hemitted : enc.emitted = [] := congrArg (fun x => x.2.1) ht
        refine ⟨[], fun id hid => ?_, ?_⟩
        · obtain ⟨ch, hch, -⟩ := hid
          rw [hchannels] at hch
          cases hch
        · rw [hemitted]
          exact Nat.zero_le n
    exact (reply_undispatched handler hsound hserved).mono (fun _ _ => hundispatched)
      fun _ => hundispatched

end

/-- Every program of the server keeps account of the replies it owes. -/
theorem driver_owes (handler : Handler) : (driver handler).Follows countWanted
    (fun n s => s.common.Sound ∧ Owing n s) fun n s => True ∧ s.channelReplies ≤ n := by
  have hsound := (driver_behaves (P := fun _ => True) (fun _ _ => trivial) handler).keeps_sound
  have hkept : ∀ {n : Nat} {t : Session}, Owing n t → t.channelReplies ≤ n :=
    fun ht => ht.channelReplies
  refine ⟨fun n s hs => ⟨trivial, hkept hs.2⟩, fun n s enc decompress henc hs => ?_,
    fun n s buf hs => ?_, fun n s m enc hs henc hrekey => ?_, fun n s hs => ?_, fun n s hs => hs⟩
  · refine ⟨hsound.inflate s enc decompress henc hs.1, fun enc' henc' => ?_⟩
    cases Option.some.inj henc'
    exact hs.2 enc henc
  · exact ((hsound.reply s buf hs.1).and (reply_owing handler hs.1 hs.2)).mono
      (fun _ _ ht => ht) fun _ ht => ⟨trivial, hkept ht.2⟩
  · exact ((hsound.message s m hs.1).and (hs.2.of_operated (message_operated m))).mono
      (fun _ _ ht => ht) fun _ ht => ⟨trivial, hkept ht.2⟩
  · exact ((hsound.flush s hs.1).and (hs.2.of_operated flush_operated)).mono
      (fun _ _ ht => ht) fun _ ht => ⟨trivial, hkept ht.2⟩

/-- In every run no more replies on channels are queued than there were requests
on open channels that wanted one. -/
theorem channelReplies_le {config : Config} {handler : Handler} {sshid : Bytes} {world : World}
    {l : Loop Session} (hl : runStream config handler sshid world = .ok l)
    (events : List (Event (UInt32 × ChannelMsg))) :
    (l.run (driver handler) events).session.channelReplies ≤
      Loop.history (driver handler) countWanted 0 l events := by
  obtain ⟨s, output, hs, rfl⟩ := runStream_start hl
  have hfollows := driver_owes handler
  have howing : Owing 0 s := by
    intro enc henc
    rw [hs.encrypted] at henc
    cases henc
  have hstart := Loop.start_follows hfollows ⟨hs.sound, howing⟩ output
  exact (Loop.run_follows hfollows hstart events).ended.2

/-! ### The server's own replies -/

omit [Deps] in
/-- The type and the want_reply byte of a GLOBAL_REQUEST, and the reader behind. -/
def readGlobalRequest (buf : Bytes) : Except Fault (Bytes × UInt8 × Position) := do
  let (reqType, r) ← (reader buf 1).readString
  let (wantsReply, r) ← r.readByte
  .ok (reqType, wantsReply, r)

/-- The question for a global request, if its type is known. -/
def globalRequestCallback (reqType : Bytes) (r : Position) : Except Fault (Option Callback) := do
  if reqType = ascii "tcpip-forward" then
    let (address, r) ← r.readString
    let address ← fromUtf8 address
    let (port, _) ← r.readU32
    .ok (some (.tcpipForward address port))
  else if reqType = ascii "cancel-tcpip-forward" then do
    let (address, r) ← r.readString
    let address ← fromUtf8 address
    let (port, _) ← r.readU32
    .ok (some (.cancelTcpipForward address port))
  else .ok none

/-- The replies that are queued between two sessions. -/
def QueuesReplies (s t : Session) (replies : List Bytes) : Prop :=
  ∃ packets, t.emitted = s.emitted ++ packets ∧ packets.filter isReply = replies

/-- Whether a request is answered with one well-formed reply if it wants one and
with none otherwise. If the handler is asked and its turn fails, the session
ends without a reply. -/
def AnsweredBy (handler : Handler) (s : Session) (buf : Bytes) (callback : Option Callback)
    (wantsReply : UInt8) (wellFormed : Bytes → Prop) : Prop :=
  (∃ t replies, reply handler buf s = .ok () t ∧ QueuesReplies s t replies ∧
    if wantsReply ≠ 0 then ∃ packet, replies = [packet] ∧ wellFormed packet else replies = []) ∨
  ∃ e t q answer, callback = some q ∧ reply handler buf s = .error e t ∧
    t.callbacks = s.callbacks ++ [(q, answer)] ∧ QueuesReplies s t []

/-- Whether a packet of an authenticated session gets the replies that it asks for. -/
structure AnswersRequests (handler : Handler) (s : Session) (buf : Bytes) : Prop where
  /-- A GLOBAL_REQUEST that can be read. -/
  global : s.Settled → ¬ s.common.InExchange buf → ∀ reqType wantsReply r callback,
    buf.head? = some msg.GLOBAL_REQUEST → readGlobalRequest buf = .ok (reqType, wantsReply, r) →
    globalRequestCallback reqType r = .ok callback →
    AnsweredBy handler s buf callback wantsReply fun packet =>
      packet = [msg.REQUEST_SUCCESS] ∨ packet = [msg.REQUEST_FAILURE]
  /-- A CHANNEL_REQUEST of an unknown type on an open channel. -/
  channel : s.Settled → ¬ s.common.InExchange buf → ∀ enc ch id reqType wantsReply r,
    s.common.encrypted = some enc → enc.channels id = some ch →
    buf.head? = some msg.CHANNEL_REQUEST →
    readChannelRequest buf = .ok (id, reqType, wantsReply, r) →
    channelRequestCallback id reqType r = .ok none →
    AnsweredBy handler s buf none wantsReply fun packet =>
      packet = msg.CHANNEL_FAILURE :: be32 ch.recipientChannel

/-- Whether a packet is no request that is answered in its own way: a global
request that wants no reply, or a request of an unknown type on an open channel. -/
structure Usual (s : Session) (buf : Bytes) : Prop where
  /-- Global requests want a reply. -/
  global : s.Settled → ¬ s.common.InExchange buf → ∀ reqType wantsReply r callback,
    buf.head? = some msg.GLOBAL_REQUEST → readGlobalRequest buf = .ok (reqType, wantsReply, r) →
    globalRequestCallback reqType r = .ok callback → wantsReply ≠ 0
  /-- Requests on open channels are of known types. -/
  channel : s.Settled → ¬ s.common.InExchange buf → ∀ id, UnknownRequest buf id →
    ¬ s.common.Knows id

/-- A handler that sends no replies itself. -/
def Handler.SendsNoReplies (handler : Handler) : Prop :=
  ∀ n callback s, ∀ call ∈ (handler n callback s).calls, call.replies = false

section
variable {handler : Handler} {s t u : Session} {buf : Bytes}

/-- What a handler makes of an encrypted session without replying. -/
theorem finished_unreplied (hsends : handler.SendsNoReplies) (callback : Callback) {enc : Encrypted}
    (henc : s.common.encrypted = some enc) :
    ∃ enc', (final (finished handler callback s)).common.encrypted = some enc' ∧
      Unreplied enc enc' := by
  have hmoves : Moves (Operated False) (finished handler callback) := by
    refine finished_operates fun n s call hcall hreplies => ?_
    rw [hsends n callback s call hcall] at hreplies
    cases hreplies
  have hrel := operations_of_operated (hmoves s)
  rw [henc] at hrel
  generalize (final (finished handler callback s)).common.encrypted = c at hrel ⊢
  cases hrel with
  | some hoperations => exact ⟨_, rfl, hoperations.unreplied⟩

theorem QueuesReplies.of_unreplied {enc enc' : Encrypted} (hs : s.common.encrypted = some enc)
    (ht : t.common.encrypted = some enc') (h : Unreplied enc enc') : QueuesReplies s t [] := by
  obtain ⟨packets, hemitted, hpackets⟩ := h
  refine ⟨packets, ?_, List.filter_eq_nil_iff.mpr fun packet hpacket => ?_⟩
  · change t.common.emitted = s.common.emitted ++ packets
    rw [emitted_some hs, emitted_some ht, hemitted]
  · rw [hpackets packet hpacket]
    exact Bool.false_ne_true

/-- A forwarding request is answered once, or the handler's turn fails. -/
theorem serverReplyForward_replies (hsends : handler.SendsNoReplies) (callback : Callback)
    {enc : Encrypted} (henc : s.common.encrypted = some enc) :
    (∃ t packet, serverReplyForward handler callback s = .ok () t ∧ QueuesReplies s t [packet] ∧
      (packet = [msg.REQUEST_SUCCESS] ∨ packet = [msg.REQUEST_FAILURE])) ∨
    ∃ e t answer, serverReplyForward handler callback s = .error e t ∧
      t.callbacks = s.callbacks ++ [(callback, answer)] ∧ QueuesReplies s t [] := by
  obtain ⟨enc', henc', hunreplied⟩ := finished_unreplied (s := s) hsends callback henc
  have hcallbacks := finished_callbacks handler callback s
  unfold serverReplyForward
  rw [run_bind]
  cases hrun : finished handler callback s with
  | error e t =>
    rw [hrun, final_error] at henc' hcallbacks
    exact .inr ⟨e, t, _, rfl, hcallbacks, .of_unreplied henc henc' hunreplied⟩
  | ok result t =>
    rw [hrun, final_ok] at henc'
    obtain ⟨packets, hemitted, hpackets⟩ := QueuesReplies.of_unreplied henc henc' hunreplied
    have hpush : ∀ body : Bytes, isReply body = true → QueuesReplies s
        { t with common := t.common.modifyEnc (·.push body) } [body] := by
      intro body hbody
      refine ⟨packets ++ [body], ?_, ?_⟩
      · rw [← List.append_assoc, ← hemitted]
        change (t.common.modifyEnc _).emitted = t.common.emitted ++ [body]
        have hpushed : (t.common.modifyEnc (·.push body)).encrypted = some (enc'.push body) := by
          simp only [CommonSession.modifyEnc, henc', Option.map_some]
        rw [emitted_some henc', emitted_some hpushed]
        rfl
      · simp [List.filter_append, hpackets, hbody]
    dsimp only
    cases result with
    | true => exact .inl ⟨_, _, rfl, hpush _ rfl, .inl rfl⟩
    | false => exact .inl ⟨_, _, rfl, hpush _ rfl, .inr rfl⟩

/-- A global request that can be read is answered once, or the handler's turn fails. -/
theorem serverReadGlobalRequest_replies (hsends : handler.SendsNoReplies) {reqType : Bytes}
    {wantsReply : UInt8} {r : Position} {callback : Option Callback}
    (hread : readGlobalRequest buf = .ok (reqType, wantsReply, r))
    (hcallback : globalRequestCallback reqType r = .ok callback) {enc : Encrypted}
    (henc : s.common.encrypted = some enc) :
    (∃ t packet, serverReadGlobalRequest handler buf s = .ok () t ∧ QueuesReplies s t [packet] ∧
      (packet = [msg.REQUEST_SUCCESS] ∨ packet = [msg.REQUEST_FAILURE])) ∨
    ∃ e t q answer, callback = some q ∧ serverReadGlobalRequest handler buf s = .error e t ∧
      t.callbacks = s.callbacks ++ [(q, answer)] ∧ QueuesReplies s t [] := by
  obtain ⟨⟨_, r₁⟩, hreq, hread⟩ := ok_of_bind hread
  obtain ⟨⟨_, r₂⟩, hwants, hread⟩ := ok_of_bind hread
  cases hread
  let v : Session := { s with common := { s.common with wantsReply := wantsReply ≠ 0 } }
  have hforward : ∀ q : Callback,
      (∃ t packet, serverReplyForward handler q v = .ok () t ∧ QueuesReplies s t [packet] ∧
        (packet = [msg.REQUEST_SUCCESS] ∨ packet = [msg.REQUEST_FAILURE])) ∨
      ∃ e t q' answer, some q = some q' ∧ serverReplyForward handler q v = .error e t ∧
        t.callbacks = s.callbacks ++ [(q', answer)] ∧ QueuesReplies s t [] := by
    intro q
    rcases serverReplyForward_replies (s := v) hsends q henc with h | ⟨e, t, answer, h⟩
    · exact .inl h
    · exact .inr ⟨e, t, q, answer, rfl, h⟩
  unfold serverReadGlobalRequest
  rw [run_bind, run_lift hreq]
  dsimp only
  rw [run_bind, run_lift hwants]
  dsimp only
  rw [run_bind, run_modify]
  dsimp only
  unfold globalRequestCallback at hcallback
  by_cases htcpip : reqType = ascii "tcpip-forward"
  · rw [if_pos htcpip] at hcallback ⊢
    obtain ⟨⟨_, r₃⟩, haddress, hcallback⟩ := ok_of_bind hcallback
    obtain ⟨_, hutf8, hcallback⟩ := ok_of_bind hcallback
    obtain ⟨⟨_, _⟩, hport, hcallback⟩ := ok_of_bind hcallback
    cases hcallback
    rw [run_bind, run_lift haddress]
    dsimp only
    rw [run_bind, run_lift hutf8]
    dsimp only
    rw [run_bind, run_lift hport]
    exact hforward _
  · rw [if_neg htcpip] at hcallback ⊢
    by_cases hcancel : reqType = ascii "cancel-tcpip-forward"
    · rw [if_pos hcancel] at hcallback ⊢
      obtain ⟨⟨_, r₃⟩, haddress, hcallback⟩ := ok_of_bind hcallback
      obtain ⟨_, hutf8, hcallback⟩ := ok_of_bind hcallback
      obtain ⟨⟨_, _⟩, hport, hcallback⟩ := ok_of_bind hcallback
      cases hcallback
      rw [run_bind, run_lift haddress]
      dsimp only
      rw [run_bind, run_lift hutf8]
      dsimp only
      rw [run_bind, run_lift hport]
      exact hforward _
    · rw [if_neg hcancel] at hcallback ⊢
      have hpushed : (v.common.modifyEnc (·.push [msg.REQUEST_FAILURE])).encrypted =
          some (enc.push [msg.REQUEST_FAILURE]) := by
        simp only [v, CommonSession.modifyEnc, henc, Option.map_some]
      refine .inl ⟨_, [msg.REQUEST_FAILURE], rfl, ⟨[[msg.REQUEST_FAILURE]], ?_, rfl⟩, .inr rfl⟩
      change (v.common.modifyEnc _).emitted = s.common.emitted ++ _
      rw [emitted_some hpushed, emitted_some henc]
      rfl

/-- A packet that is usual gets the replies that it asks for. -/
theorem answers_of_usual (hsends : handler.SendsNoReplies) (h : Usual s buf) :
    AnswersRequests handler s buf := by
  constructor
  · intro hsettled hout reqType wantsReply r callback hhead hread hcallback
    have hwants := h.global hsettled hout reqType wantsReply r callback hhead hread
      hcallback
    obtain ⟨v, hrun, hv, hvsettled⟩ := serverReadState_settled handler buf hsettled
    obtain ⟨enc, henc⟩ := encrypted_of_settled hvsettled
    have hreply : reply handler buf s = serverReadGlobalRequest handler buf v := by
      rw [reply_state handler hout, hrun]
      unfold serverReadAuthenticated
      simp only [hhead]
      rfl
    have hqueues : ∀ {t replies}, QueuesReplies v t replies → QueuesReplies s t replies := by
      intro t replies ht
      unfold QueuesReplies at ht ⊢
      rwa [hv.emitted] at ht
    unfold AnsweredBy
    rw [hreply]
    rcases serverReadGlobalRequest_replies hsends hread hcallback henc with
      ⟨t, packet, ht, hreplies, hpacket⟩ | ⟨e, t, q, answer, hq, ht, hcallbacks, hreplies⟩
    · refine .inl ⟨t, [packet], ht, hqueues hreplies, ?_⟩
      rw [if_pos hwants]
      exact ⟨packet, rfl, hpacket⟩
    · rw [hv.callbacks] at hcallbacks
      exact .inr ⟨e, t, q, answer, hq, ht, hcallbacks, hqueues hreplies⟩
  · intro hsettled hout enc ch id reqType wantsReply r henc hch hhead hread hcallback
    obtain ⟨⟨_, r₁⟩, hid, hread⟩ := ok_of_bind hread
    obtain ⟨⟨_, r₂⟩, hreq, hread⟩ := ok_of_bind hread
    obtain ⟨⟨_, r₃⟩, hwants, hread⟩ := ok_of_bind hread
    cases hread
    have hunknown : UnknownRequest buf id :=
      ⟨hhead, r₁, reqType, r₂, wantsReply, r, hid, hreq, hwants, hcallback⟩
    exact absurd ⟨enc, ch, henc, hch⟩ (h.channel hsettled hout id hunknown)

end

/-- In every run no more replies on channels are sent than requests on open
channels wanted. If the handler itself sends no replies and every packet is
usual, every global request and every request of an unknown type on an open
channel gets the reply that it asks for. -/
theorem requests_answered (config : Config) (handler : Handler) (sshid : Bytes) (world : World)
    (l : Loop Session) (hl : runStream config handler sshid world = .ok l)
    (events : List (Event (UInt32 × ChannelMsg))) :
    (handler.SendsNoReplies →
      Loop.Along (Loop.iterate (driver handler)) (fun l e =>
        ∀ p ∈ Loop.given (driver handler) l e, Usual p.1 p.2) l events →
      Loop.Along (Loop.iterate (driver handler)) (fun l e =>
        ∀ p ∈ Loop.given (driver handler) l e, AnswersRequests handler p.1 p.2) l events) ∧
    (l.run (driver handler) events).session.channelReplies ≤
      Loop.history (driver handler) countWanted 0 l events := by
  refine ⟨fun hsends halong => ?_, channelReplies_le hl events⟩
  exact halong.imp (I := fun _ => True) (fun _ _ _ _ => trivial)
    (fun l e _ husual p hp => answers_of_usual hsends (husual p hp)) trivial

end

/-- Whether a packet can be seen to be usual: a global request that wants a reply. -/
def sparesReplies [Deps] (p : Session × Bytes) : Bool :=
  decide (¬ p.1.Settled) || (p.2.head? = some msg.GLOBAL_REQUEST &&
    (readGlobalRequest p.2).toOption.all (·.2.1 ≠ 0))

theorem usual_of_spares [Deps] {p : Session × Bytes} (h : sparesReplies p = true) :
    Usual p.1 p.2 := by
  have hcases : p.1.Settled → p.2.head? = some msg.GLOBAL_REQUEST ∧
      (readGlobalRequest p.2).toOption.all (·.2.1 ≠ 0) = true := by
    intro hsettled
    simpa [sparesReplies, hsettled] using h
  constructor
  · intro hsettled _ reqType wantsReply r callback _ hread _
    have hwants := (hcases hsettled).2
    rw [hread] at hwants
    simpa [Except.toOption] using hwants
  · intro hsettled _ id hunknown
    have hhead := (hcases hsettled).1
    rw [hunknown.1] at hhead
    exact absurd hhead (by decide)

/-- A global request that wants a reply, after the authentication. -/
theorem requests_answered_global :
    letI := Concrete.deps
    let events := Concrete.authenticated ++
      [.arrive (Concrete.sealed (Concrete.globalRequest 1)), .read]
    Loop.Along (Loop.iterate (driver Concrete.handler)) (fun l e =>
        ∀ p ∈ Loop.given (driver Concrete.handler) l e,
          AnswersRequests Concrete.handler p.1 p.2) Concrete.server events ∧
      (Concrete.server.run (driver Concrete.handler) events).session.channelReplies ≤
        Loop.history (driver Concrete.handler) countWanted 0 Concrete.server events := by
  let _ := Concrete.deps
  have hanswered := requests_answered Concrete.serverConfig Concrete.handler
    Concrete.clientConfig.clientId Concrete.world Concrete.server (Concrete.runStream_eq _)
    (Concrete.authenticated ++ [.arrive (Concrete.sealed (Concrete.globalRequest 1)), .read])
  refine ⟨hanswered.1 (fun _ _ _ call hcall => by cases hcall) ?_, hanswered.2⟩
  refine Loop.Along.imp (P := fun l e =>
    (Loop.given (driver Concrete.handler) l e).all sparesReplies = true)
    (I := fun _ => True) (fun _ _ _ _ => trivial) (fun l e _ h p hp => ?_) trivial
    (by decide +kernel)
  exact usual_of_spares (by simpa [Option.mem_def.mp hp] using h)

/-- Requests that want no reply are answered, and one on a channel is answered
without the number of the channel. -/
theorem replies_unwanted :
    letI := Concrete.deps
    let l := Concrete.server.run (driver Concrete.handler)
      (Concrete.authenticated ++ [.arrive (Concrete.sealed Concrete.sessionOpen), .read])
    let repliesTo := fun buf : Bytes => ((l.run (driver Concrete.handler)
      [.arrive (Concrete.sealed buf), .read]).session.emitted.drop l.session.emitted.length)
    runStream Concrete.serverConfig Concrete.handler Concrete.clientConfig.clientId
      Concrete.world = .ok Concrete.server ∧
    l.session.common.encrypted.map (fun enc => (enc.channels 2).map (·.recipientChannel)) =
      some (some 5) ∧
    repliesTo (Concrete.globalRequest 0) = [[msg.REQUEST_FAILURE]] ∧
    repliesTo (Concrete.strangeRequest 0) = [[msg.CHANNEL_FAILURE]] ∧
    repliesTo (Concrete.strangeRequest 1) = [[msg.CHANNEL_FAILURE]] :=
  ⟨Concrete.runStream_eq _, by decide +kernel, by decide +kernel, by decide +kernel,
    by decide +kernel⟩

end Thrussh.Server
