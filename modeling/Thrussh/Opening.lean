import Thrussh.Client.Serving
import Thrussh.Concrete
import Thrussh.Server.Serving
import Thrussh.Server.Table

/-!
# Channels that the peer opens

With the default handler a server answers every opening with a confirmation
and an entry, or with a failure, as long as it has a free id. A client does
so for every type but `forwarded-tcpip`, which it leaves to its handler: the
default method answers nothing.
-/

namespace Thrussh

open Deps Lib

/-- What the fields of an opening behind its header say: the ends of the
connection that is forwarded, as text and port. -/
def readOpening (typ : Bytes) (r : Position) : Except Fault (List (Bytes × UInt32)) :=
  if typ = ascii "x11" then do
    let (address, r) ← r.readString
    let address ← fromUtf8 address
    let (port, _) ← r.readU32
    .ok [(address, port)]
  else if typ = ascii "direct-tcpip" ∨ typ = ascii "forwarded-tcpip" then do
    let (host, r) ← r.readString
    let host ← fromUtf8 host
    let (port, r) ← r.readU32
    let (address, r) ← r.readString
    let address ← fromUtf8 address
    let (originatorPort, _) ← r.readU32
    .ok [(host, port), (address, originatorPort)]
  else .ok []

/-- A well-formed CHANNEL_OPEN, with its type and what it says of the channel. -/
structure Opening (buf typ : Bytes) (asked : Asked) : Prop where
  /-- The message number. -/
  head : buf.head? = some msg.CHANNEL_OPEN
  /-- The fields can be read. -/
  fields : ∃ r r₁ r₂ r₃ ends, (reader buf 1).readString = .ok (typ, r) ∧
    r.readU32 = .ok (asked.channel, r₁) ∧ r₁.readU32 = .ok (asked.window, r₂) ∧
    r₂.readU32 = .ok (asked.maxPacket, r₃) ∧ readOpening typ r₃ = .ok ends

section
variable [Deps] {C : Type}

/-- Whether one CHANNEL_OPEN_CONFIRMATION or one CHANNEL_OPEN_FAILURE with the
opener's channel number is queued, and there is a new entry for that channel
if and only if it was confirmed. -/
def AnswersOpening (channel : UInt32) (before after : CommonSession C) : Prop :=
  ∃ enc enc' packet, before.encrypted = some enc ∧ after.encrypted = some enc' ∧
    enc'.emitted = enc.emitted ++ [packet] ∧
    ((∃ id window maxPacket, packet = confirmChannelOpenPacket channel id window maxPacket) ∨
      ∃ code description language,
        packet = channelOpenFailurePacket channel code description language) ∧
    ((∃ id ch, enc.channels id = none ∧ enc'.channels id = some ch ∧
      ch.recipientChannel = channel) ↔ packet.head? = some msg.CHANNEL_OPEN_CONFIRMATION)

section
variable {channel : UInt32} {before after : CommonSession C} {enc enc' : Encrypted}

/-- An opening that is accepted is answered. -/
theorem answersOpening_of_accepts {asked : Asked} {window maxPacket id : UInt32}
    (hbefore : before.encrypted = some enc) (hafter : after.encrypted = some enc')
    (h : Accepts asked window maxPacket enc id enc') :
    AnswersOpening asked.channel before after := by
  obtain ⟨hnone, hchannels, hemitted⟩ := h.spec
  refine ⟨enc, enc', _, hbefore, hafter, hemitted, .inl ⟨id, window, maxPacket, rfl⟩, ?_⟩
  refine iff_of_true ⟨id, asked.entry id window maxPacket, hnone, ?_, rfl⟩ rfl
  rw [hchannels, Function.update_self]

/-- An opening that is refused is answered. -/
theorem answersOpening_of_refused {code : UInt32} {description language : Bytes}
    (hbefore : before.encrypted = some enc) (hafter : after.encrypted = some enc')
    (hchannels : enc'.channels = enc.channels)
    (hemitted : enc'.emitted =
      enc.emitted ++ [channelOpenFailurePacket channel code description language]) :
    AnswersOpening channel before after := by
  refine ⟨enc, enc', _, hbefore, hafter, hemitted, .inr ⟨code, description, language, rfl⟩, ?_⟩
  refine iff_of_false ?_ ?_
  · rintro ⟨id, ch, hnone, hsome, -⟩
    rw [hchannels, hnone] at hsome
    cases hsome
  · simp only [channelOpenFailurePacket, List.cons_append, List.head?_cons]
    decide

/-- Nothing is answered by a session that queues nothing. -/
theorem not_answersOpening (hbefore : before.encrypted = some enc)
    (hafter : after.encrypted = some enc') (hemitted : enc'.emitted = enc.emitted) :
    ¬ AnswersOpening channel before after := by
  rintro ⟨enc₁, enc₂, packet, hbefore', hafter', hqueued, -⟩
  cases hbefore.symm.trans hbefore'
  cases hafter.symm.trans hafter'
  rw [hemitted, List.self_eq_append_right] at hqueued
  cases hqueued

end

namespace Server

/-- The answer of the default methods. -/
def Answer.default : Callback → Answer
  | .windowAdjusted channel _ => ⟨[.flushPending channel], false, .reject, false, 0⟩
  | .adjustWindow _ current => ⟨[], false, .reject, false, current⟩
  | _ => .finished

/-- A handler with the default methods. -/
def Handler.Default (handler : Handler) : Prop :=
  ∀ n callback s, handler n callback s = Answer.default callback

/-- Whether an authenticated server answers an opening. -/
def ServesOpening (handler : Handler) (s : Session) (buf : Bytes) (channel : UInt32) : Prop :=
  ∃ t, serverReadAuthenticated handler buf s = .ok () t ∧ AnswersOpening channel s.common t.common

section
variable {handler : Handler} {s : Session} {buf typ : Bytes} {asked : Asked} {enc : Encrypted}

/-- A method that only finishes leaves `enc`. -/
theorem finish_default {callback : Callback} (h : handler.Default)
    (hcallback : Answer.default callback = .finished) (s : Session) :
    ∃ t, finish handler callback s = .ok () t ∧ t.common.encrypted = s.common.encrypted := by
  have hanswer := (h s.common.tick callback s).trans hcallback
  unfold finish
  rw [run_bind]
  unfold finished
  rw [run_bind]
  unfold ask
  dsimp only
  rw [hanswer]
  exact ⟨_, rfl, rfl⟩

/-- The server answers an opening exactly when it has an id for the channel. -/
theorem servesOpening_iff (h : handler.Default) (henc : s.common.encrypted = some enc)
    (hopening : Opening buf typ asked) :
    ServesOpening handler s buf asked.channel ↔ ∃ id, enc.channels id = none := by
  obtain ⟨hhead, r, r₁, r₂, r₃, ends, htyp, hchannel, hwindow, hmax, hfields⟩ := hopening
  have hrun : serverReadAuthenticated handler buf s = serverHandleChannelOpen handler buf s := by
    unfold serverReadAuthenticated
    rw [if_pos hhead]
  unfold ServesOpening
  rw [hrun]
  unfold serverHandleChannelOpen
  rw [run_bind, run_lift htyp]
  dsimp only
  rw [run_bind, run_lift hchannel]
  dsimp only
  rw [run_bind, run_lift hwindow]
  dsimp only
  rw [run_bind, run_lift hmax]
  dsimp only
  rw [run_bind]
  cases hnew : enc.newChannelId with
  | error e =>
    have hfails : onCommon (withEnc Encrypted.newChannelId) s = .error e s := by
      simp only [onCommon, zoom, withEnc, run_bind, run_get, henc, hnew, run_lift_error]
    rw [hfails]
    refine iff_of_false ?_ ?_
    · rintro ⟨t, hends, -⟩
      cases hends
    · rintro ⟨id, hid⟩
      exact (newChannelId_error hnew).2 id hid
  | ok res =>
    obtain ⟨id, enc₁⟩ := res
    obtain ⟨hnone, henc₁⟩ := newChannelId_ok hnew
    rw [run_onCommon henc hnew]
    refine iff_of_true ?_ ⟨id, hnone⟩
    obtain ⟨u, hconfirm, enc₂, hu, haccepts⟩ :=
      confirmChannelOpen_accepts (t := s.withEnc enc₁) asked hnew rfl
    have hconfirmed : ∀ x : M Unit, (do confirmChannelOpen ⟨asked.channel, id, asked.window,
        (s.withEnc enc₁).common.config.windowSize, asked.maxPacket,
        (s.withEnc enc₁).common.config.maximumPacketSize, true, false, []⟩; x) (s.withEnc enc₁) =
          x u := by
      intro x
      have hentry := hconfirm
      unfold Asked.entry at hentry
      rw [run_bind, hentry]
    -- the handler's turn leaves what the confirmation has done
    have hfinishes : ∀ callback : Callback, Answer.default callback = .finished →
        ∃ t, finish handler callback u = .ok () t ∧
          AnswersOpening asked.channel s.common t.common := by
      intro callback hcallback
      obtain ⟨t, ht, hsame⟩ := finish_default h hcallback u
      exact ⟨t, ht, answersOpening_of_accepts henc (hsame.trans hu) haccepts⟩
    dsimp only
    rw [run_bind, run_get]
    dsimp only
    unfold readOpening at hfields
    by_cases hsession : typ = ascii "session"
    · rw [if_pos hsession, hconfirmed]
      exact hfinishes _ rfl
    rw [if_neg hsession]
    by_cases hx11 : typ = ascii "x11"
    · rw [if_pos hx11] at hfields ⊢
      obtain ⟨⟨_, r₄⟩, haddress, hfields⟩ := ok_of_bind hfields
      obtain ⟨_, hutf8, hfields⟩ := ok_of_bind hfields
      obtain ⟨⟨_, r₅⟩, hport, hfields⟩ := ok_of_bind hfields
      rw [hconfirmed, run_bind, run_lift haddress]
      dsimp only
      rw [run_bind, run_lift hutf8]
      dsimp only
      rw [run_bind, run_lift hport]
      exact hfinishes _ rfl
    rw [if_neg hx11] at hfields ⊢
    by_cases hdirect : typ = ascii "direct-tcpip"
    · rw [if_pos (.inl hdirect)] at hfields
      rw [if_pos hdirect]
      obtain ⟨⟨_, r₄⟩, hhost, hfields⟩ := ok_of_bind hfields
      obtain ⟨_, hutf8, hfields⟩ := ok_of_bind hfields
      obtain ⟨⟨_, r₅⟩, hport, hfields⟩ := ok_of_bind hfields
      obtain ⟨⟨_, r₆⟩, haddress, hfields⟩ := ok_of_bind hfields
      obtain ⟨_, hutf8', hfields⟩ := ok_of_bind hfields
      obtain ⟨⟨_, r₇⟩, hport', hfields⟩ := ok_of_bind hfields
      rw [hconfirmed, run_bind, run_lift hhost]
      dsimp only
      rw [run_bind, run_lift hutf8]
      dsimp only
      rw [run_bind, run_lift hport]
      dsimp only
      rw [run_bind, run_lift haddress]
      dsimp only
      rw [run_bind, run_lift hutf8']
      dsimp only
      rw [run_bind, run_lift hport']
      exact hfinishes _ rfl
    · rw [if_neg hdirect]
      have hrefused : (enc₁.push (channelOpenFailurePacket asked.channel 3
          (ascii "Unknown channel type") (ascii "en"))).emitted = enc.emitted ++
            [channelOpenFailurePacket asked.channel 3 (ascii "Unknown channel type")
              (ascii "en")] := by
        rw [henc₁]
        rfl
      refine ⟨_, rfl, answersOpening_of_refused henc rfl ?_ hrefused⟩
      rw [henc₁]
      rfl

end

end Server

namespace Client

/-- An application whose handler has the default methods, whatever it says of a host key. -/
def Application.Default (app : Application) : Prop :=
  ∀ n callback s, (∀ key, callback ≠ .checkServerKey key) →
    app.handler n callback s = Answer.default callback

/-- Whether an authenticated client answers an opening. -/
def ServesOpening (app : Application) (s : Session) (buf : Bytes) (channel : UInt32) : Prop :=
  ∃ t, clientReadAuthenticated app buf s = .ok () t ∧ AnswersOpening channel s.common t.common

section
variable {app : Application} {s : Session} {buf typ : Bytes} {asked : Asked} {enc : Encrypted}

/-- A method that only finishes leaves `enc`. -/
theorem finish_default {callback : Callback} (h : app.Default)
    (hkey : ∀ key, callback ≠ .checkServerKey key)
    (hcallback : (Answer.default callback).calls = []) {t : Session}
    (hends : finish app callback s = .ok () t) : t.common.encrypted = s.common.encrypted := by
  have hanswer := h s.common.tick callback s hkey
  unfold finish at hends
  rw [run_bind] at hends
  unfold ask at hends
  dsimp only at hends
  rw [hanswer, hcallback] at hends
  cases hfail : (Answer.default callback).fail with
  | true =>
    rw [hfail] at hends
    cases hends
  | false =>
    rw [hfail] at hends
    cases hends
    rfl

/-- The client answers an opening exactly when it is of a type it does not know. -/
theorem servesOpening_iff (h : app.Default) (henc : s.common.encrypted = some enc)
    (hopening : Thrussh.Opening buf typ asked) :
    ServesOpening app s buf asked.channel ↔ typ ≠ ascii "forwarded-tcpip" := by
  obtain ⟨hhead, r, r₁, r₂, r₃, ends, htyp, hchannel, hwindow, hmax, hfields⟩ := hopening
  have hne : ∀ {m : UInt8}, m ≠ msg.CHANNEL_OPEN → buf.head? ≠ some m := by
    intro m hm hsome
    rw [hhead] at hsome
    exact hm (Option.some.inj hsome).symm
  have hrun : clientReadAuthenticated app buf s = clientHandleChannelOpen app buf s := by
    unfold clientReadAuthenticated
    rw [if_neg (hne (by decide)), if_neg (hne (by decide)), if_neg (hne (by decide)),
      if_neg (hne (by decide)), if_neg (hne (by decide)), if_neg (hne (by decide)),
      if_neg (hne (by decide)), if_neg (hne (by decide)), if_neg (hne (by decide)),
      if_neg (hne (by decide)), if_pos hhead]
  unfold ServesOpening
  rw [hrun]
  unfold clientHandleChannelOpen
  rw [run_bind, run_lift htyp]
  dsimp only
  rw [run_bind, run_lift hchannel]
  dsimp only
  rw [run_bind, run_lift hwindow]
  dsimp only
  rw [run_bind, run_lift hmax]
  dsimp only
  by_cases hforwarded : typ = ascii "forwarded-tcpip"
  · -- the handler is told, and the default method only finishes
    rw [if_pos hforwarded]
    refine iff_of_false ?_ (fun hnot => hnot hforwarded)
    rintro ⟨t, hends, hanswers⟩
    have hsilent : t.common.encrypted = s.common.encrypted := by
      unfold clientHandleForwarded at hends
      unfold readOpening at hfields
      rw [if_neg (by rw [hforwarded]; decide), if_pos (.inr hforwarded)] at hfields
      obtain ⟨⟨_, r₄⟩, hhost, hfields⟩ := ok_of_bind hfields
      obtain ⟨_, hutf8, hfields⟩ := ok_of_bind hfields
      obtain ⟨⟨_, r₅⟩, hport, hfields⟩ := ok_of_bind hfields
      obtain ⟨⟨_, r₆⟩, haddress, hfields⟩ := ok_of_bind hfields
      obtain ⟨_, hutf8', hfields⟩ := ok_of_bind hfields
      obtain ⟨⟨_, r₇⟩, hport', hfields⟩ := ok_of_bind hfields
      rw [run_bind, run_lift hhost] at hends
      dsimp only at hends
      rw [run_bind, run_lift hport] at hends
      dsimp only at hends
      rw [run_bind, run_lift haddress] at hends
      dsimp only at hends
      rw [run_bind, run_lift hport'] at hends
      exact finish_default h (by simp) rfl hends
    exact not_answersOpening henc (hsilent.trans henc) rfl hanswers
  · rw [if_neg hforwarded]
    refine iff_of_true ?_ hforwarded
    have hrefused : (enc.push (channelOpenFailurePacket asked.channel 3
        (ascii "Unknown channel type") (ascii "en"))).emitted = enc.emitted ++
          [channelOpenFailurePacket asked.channel 3 (ascii "Unknown channel type")
            (ascii "en")] := rfl
    have hafter : (s.common.modifyEnc (·.push (channelOpenFailurePacket asked.channel 3
        (ascii "Unknown channel type") (ascii "en")))).encrypted =
          some (enc.push (channelOpenFailurePacket asked.channel 3
            (ascii "Unknown channel type") (ascii "en"))) := by
      simp only [CommonSession.modifyEnc, henc, Option.map_some]
    have hchannels : (enc.push (channelOpenFailurePacket asked.channel 3
        (ascii "Unknown channel type") (ascii "en"))).channels = enc.channels := rfl
    exact ⟨_, rfl, answersOpening_of_refused henc hafter hchannels hrefused⟩

end

end Client

/-- A server with the default handler answers every well-formed opening exactly
when it has a free id, and a client with the default handler exactly when the
type is not `forwarded-tcpip`. -/
theorem opening_answered_iff :
    (∀ (handler : Server.Handler) (s : Server.Session) (enc : Encrypted) (buf typ : Bytes)
      (asked : Asked), handler.Default → s.common.encrypted = some enc → Opening buf typ asked →
      (Server.ServesOpening handler s buf asked.channel ↔ ∃ id, enc.channels id = none)) ∧
    ∀ (app : Client.Application) (s : Client.Session) (enc : Encrypted) (buf typ : Bytes)
      (asked : Asked), app.Default → s.common.encrypted = some enc → Opening buf typ asked →
      (Client.ServesOpening app s buf asked.channel ↔ typ ≠ ascii "forwarded-tcpip") :=
  ⟨fun _ _ _ _ _ _ h henc hopening => Server.servesOpening_iff h henc hopening,
    fun _ _ _ _ _ _ h henc hopening => Client.servesOpening_iff h henc hopening⟩

end

/-- The opening of a session is one. -/
theorem opening_session : Opening Concrete.sessionOpen (ascii "session") ⟨5, 100, 100⟩ :=
  ⟨rfl, _, _, _, _, [], rfl, rfl, rfl, rfl, by decide⟩

/-- The default handlers on an authenticated session without channels, which both roles
answer. -/
theorem opening_answered_session :
    letI := Concrete.deps
    Server.ServesOpening (fun _ callback _ => Server.Answer.default callback)
        (Concrete.serverSession .authenticated) Concrete.sessionOpen 5 ∧
      Client.ServesOpening
        { Concrete.application with handler := fun _ callback _ => Client.Answer.default callback }
        (Concrete.clientSession .authenticated) Concrete.sessionOpen 5 := by
  let _ := Concrete.deps
  constructor
  · exact (opening_answered_iff.1 _ _ (Concrete.encrypted .authenticated) _ _ ⟨5, 100, 100⟩
      (fun _ _ _ => rfl) rfl opening_session).mpr ⟨0, rfl⟩
  · exact (opening_answered_iff.2 _ _ (Concrete.encrypted .authenticated) _ _ ⟨5, 100, 100⟩
      (fun _ _ _ _ => rfl) rfl opening_session).mpr (by decide)

/-- A server opens a channel for a connection that it forwards, and a client with the
default handler answers nothing. -/
theorem forwarded_unanswered :
    letI := Concrete.deps
    ∃ (app : Client.Application) (s : Client.Session) (enc : Encrypted) (buf : Bytes)
      (asked : Asked), app.Default ∧ s.common.encrypted = some enc ∧
        enc.state = .authenticated ∧ Opening buf (ascii "forwarded-tcpip") asked ∧
        ¬ Client.ServesOpening app s buf asked.channel := by
  let _ := Concrete.deps
  let app : Client.Application :=
    { Concrete.application with handler := fun _ callback _ => Client.Answer.default callback }
  have hdefault : app.Default := fun _ _ _ _ => rfl
  have hopening : Opening Concrete.forwardedOpen (ascii "forwarded-tcpip") ⟨5, 100, 100⟩ :=
    ⟨rfl, _, _, _, _, [(ascii "host", 22), (ascii "origin", 99)], rfl, rfl, rfl, rfl, by decide⟩
  have hiff := Client.servesOpening_iff (s := Concrete.clientSession .authenticated)
    hdefault rfl hopening
  exact ⟨_, _, _, _, _, hdefault, rfl, rfl, hopening, fun hserves => hiff.mp hserves rfl⟩

end Thrussh
