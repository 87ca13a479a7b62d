import Thrussh.Client.Sources
import Thrussh.Client.Wishes
import Thrussh.Reading
import Thrussh.Relay
import Thrussh.Server.Admission
import Thrussh.Server.Sources
import Thrussh.Signing

/-!
# What the two sides bring about on each other

Along every orderly run of a connection: a client that takes itself for
authenticated has been accepted by the server's handler; whatever the handler is
asked about is in a packet that the client has queued; a password that it is asked
about is one that the client's application has given; and the data that either side is
handed on a channel are among those that the other has queued for the channel, in
order and none of them twice.
-/

namespace Thrussh

open Deps Lib

/-- A packet with a number of the authentication or of the connection protocol is queued. -/
theorem ordinary_of_head {body : Bytes} {m : UInt8} (hhead : body.head? = some m)
    (hm : msg.USERAUTH_REQUEST ≤ m) : Ordinary body := by
  constructor
  · rintro ⟨m', hm', hexchange⟩
    cases hhead.symm.trans hm'
    rcases hexchange with rfl | rfl | rfl | rfl
    all_goals exact absurd hm (by decide)
  · intro hservice
    cases hhead.symm.trans hservice
    exact absurd hm (by decide)

section
variable [Deps]

/-- What asks the server's handler is queued. -/
theorem Server.Prompts.ordinary {buf : Bytes} {q : Server.Callback} (h : Server.Prompts buf q) :
    Ordinary buf := by
  rcases h with ⟨current, inquiry, d, hinquires, -, -⟩ | ⟨⟨m, hhead, hm⟩, -⟩
  · rcases hinquires with hhead | hhead
    · exact ordinary_of_head hhead (by decide)
    · exact ordinary_of_head hhead (by decide)
  · refine ordinary_of_head hhead ?_
    have hle : msg.USERAUTH_REQUEST ≤ msg.GLOBAL_REQUEST := by decide
    exact UInt8.le_trans hle hm

omit [Deps] in
/-- What carries data on a channel is queued. -/
theorem ordinary_of_readData {id : UInt32} {buf : Bytes} {p : Option UInt32 × Bytes}
    (h : readData id buf = some p) : Ordinary buf := by
  unfold readData at h
  cases hhead : buf.head? with
  | none =>
    rw [hhead] at h
    cases h
  | some m =>
    by_cases hdata : m = msg.CHANNEL_DATA
    · exact ordinary_of_head hhead (by rw [hdata]; decide)
    · by_cases hext : m = msg.CHANNEL_EXTENDED_DATA
      · exact ordinary_of_head hhead (by rw [hext]; decide)
      · rw [hhead] at h
        cases hid : (reader buf 1).readU32 with
        | error e =>
          rw [hid] at h
          cases h
        | ok a =>
          rw [hid] at h
          simp only [if_neg hdata, if_neg hext, ite_self] at h
          cases h

/-! ### Requests that the server reads -/

omit [Deps] in
/-- The user and the method of a request are read as they were written. -/
theorem readRequestHead_written {user method rest u m : Bytes} {r : Position}
    (huser : user.length < 2 ^ 32) (hmethod : method.length < 2 ^ 32)
    (h : Server.readRequestHead (msg.USERAUTH_REQUEST :: (sshString user ++
      (sshString (ascii "ssh-connection") ++ (sshString method ++ rest)))) = .ok (u, m, r)) :
    u = user ∧ m = method ∧ r.Before rest := by
  obtain ⟨r₁, hreadUser, hr₁⟩ :=
    (Position.before_reader msg.USERAUTH_REQUEST _).readString (x := user) huser
  obtain ⟨r₂, hreadService, hr₂⟩ := hr₁.readString (x := ascii "ssh-connection") (by decide)
  obtain ⟨r₃, hreadMethod, hr₃⟩ := hr₂.readString (x := method) hmethod
  obtain ⟨p, hp, h⟩ := ok_of_bind h
  cases hreadUser.symm.trans hp
  obtain ⟨u', hu', h⟩ := ok_of_bind h
  obtain ⟨p, hp, h⟩ := ok_of_bind h
  cases hreadService.symm.trans hp
  obtain ⟨p, hp, h⟩ := ok_of_bind h
  cases hreadMethod.symm.trans hp
  have hconnection : ascii "ssh-connection" = Server.sshConnection := rfl
  dsimp only at h
  rw [if_pos hconnection] at h
  cases h
  exact ⟨Position.fromUtf8_ok hu', rfl, hr₃⟩

/-- A request with a password is read as it was written. -/
theorem readRequest_password {user password u p : Bytes}
    (hshort : (Client.authRequestPacket user (.password password)).length < 2 ^ 32)
    (h : Server.readRequest (Client.authRequestPacket user (.password password)) =
      .ok (.password u p)) : u = user ∧ p = password := by
  have hpacket : Client.authRequestPacket user (.password password) =
      msg.USERAUTH_REQUEST :: (sshString user ++ (sshString (ascii "ssh-connection") ++
        (sshString (ascii "password") ++ (1 :: (sshString password ++ []))))) := by
    simp only [Client.authRequestPacket, List.append_assoc, List.cons_append, List.append_nil]
  have hlength := hshort
  simp only [hpacket, List.length_cons, List.length_append, length_sshString] at hlength
  rw [hpacket] at h
  obtain ⟨⟨u', m, r⟩, hhead, h⟩ := ok_of_bind h
  obtain ⟨rfl, rfl, hr⟩ := readRequestHead_written (by omega) (by decide) hhead
  dsimp only at h
  rw [if_pos rfl] at h
  obtain ⟨r₁, hreadByte, hr₁⟩ := hr.readByte
  obtain ⟨r₂, hreadPassword, -⟩ := hr₁.readString (x := password) (by omega)
  obtain ⟨q, hq, h⟩ := ok_of_bind h
  cases hreadByte.symm.trans hq
  obtain ⟨q, hq, h⟩ := ok_of_bind h
  cases hreadPassword.symm.trans hq
  obtain ⟨p', hp', h⟩ := ok_of_bind h
  cases h
  exact ⟨rfl, Position.fromUtf8_ok hp'⟩

/-- A request with a public key is not read as one with a password. -/
theorem readRequest_publickey {user name blob u p : Bytes} {isReal : UInt8} (tail : Bytes)
    (hshort : (Client.publickeyRequest user isReal name blob ++ tail).length < 2 ^ 32) :
    Server.readRequest (Client.publickeyRequest user isReal name blob ++ tail) ≠
      .ok (.password u p) := by
  intro h
  have hpacket : Client.publickeyRequest user isReal name blob ++ tail =
      msg.USERAUTH_REQUEST :: (sshString user ++ (sshString (ascii "ssh-connection") ++
        (sshString (ascii "publickey") ++ (isReal :: (sshString name ++ (blob ++ tail)))))) := by
    simp only [Client.publickeyRequest, List.append_assoc, List.cons_append]
  rw [List.length_append, length_publickeyRequest] at hshort
  rw [hpacket] at h
  obtain ⟨⟨u', m, r⟩, hhead, h⟩ := ok_of_bind h
  obtain ⟨rfl, rfl, hr⟩ := readRequestHead_written (by omega) (by decide) hhead
  dsimp only at h
  rw [if_neg (by decide), if_pos rfl] at h
  obtain ⟨⟨isReal', algo, key, r'⟩, -, h⟩ := ok_of_bind h
  dsimp only at h
  split at h
  · split at h
    · obtain ⟨sig, -, h⟩ := ok_of_bind h
      cases h
    · cases h
  · cases h
  · cases h

/-- A password that the handler is asked about is in a request. -/
theorem Server.Prompts.password {buf user password : Bytes}
    (h : Server.Prompts buf (.authPassword user password)) :
    buf.head? = some msg.USERAUTH_REQUEST ∧
      Server.readRequest buf = .ok (.password user password) := by
  rcases h with ⟨current, inquiry, d, -, hread, hquestion⟩ | ⟨-, hpacket⟩
  · have hinquiry : inquiry = .password user password := by
      cases inquiry with
      | password user' secret =>
        cases hquestion
        rfl
      | signed req =>
        simp only [Inquiry.question] at hquestion
        split at hquestion
        · cases hquestion
        · cases hquestion
      | _ => cases hquestion
    rw [hinquiry] at hread
    unfold readInquiry at hread
    by_cases hhead : buf.head? = some msg.USERAUTH_REQUEST
    · rw [if_pos hhead] at hread
      exact ⟨hhead, hread⟩
    · rw [if_neg hhead] at hread
      unfold readResponse at hread
      split at hread
      · obtain ⟨n, -, hread⟩ := ok_of_bind hread
        cases hread
      · cases hread
  · cases hpacket.authenticates

/-! ### Along a run -/

variable {clientConfig : Client.Config} {app : Client.Application}
  {serverConfig : Server.Config} {handler : Server.Handler} {l : Loop Client.Session}
  {l' : Loop Server.Session} {r r' : SshRead} {moves : List Step}

/-- Along every orderly run, a client that takes itself for authenticated has been accepted: the
server's handler was asked a question of the authentication and has accepted it. Whatever happens
to the client next, nothing but a USERAUTH_SUCCESS that it is given ends its dialogue; and the server
has queued none unless its handler has accepted. -/
theorem client_admitted [LawfulSodium]
    (hconnected : Connected clientConfig app serverConfig handler l l' r r')
    (hcompatible : Compatible clientConfig app serverConfig)
    (horderly : OrderlyRun clientConfig app serverConfig handler l l' moves) :
    let k := converse clientConfig app serverConfig handler l l' moves
    (k.left.session.Admitted →
      ∃ p ∈ k.right.session.callbacks, p.1.authenticates = true ∧ p.2.accepts) ∧
    (∀ events, (k.left.run (Client.driver app) events).session.Admitted →
      k.left.session.Admitted ∨
        Client.ToldSuccess (k.left.acts (Client.driver app) events)) ∧
    Server.Earned k.right.session := by
  intro k
  obtain ⟨world, s, -, hleft, -⟩ := hconnected.client
  obtain ⟨world', hright⟩ := hconnected.server
  have hclient := hconnected.client_relayed hcompatible horderly
  have hserver := hconnected.server_relayed hcompatible horderly
  have hearned : Server.Earned k.right.session := by
    have hearned := Server.run_earned hright
      (serverEvents clientConfig app serverConfig handler l l' moves)
    rwa [← hserver.run_eq] at hearned
  refine ⟨fun hadmitted => ?_, fun events hadmitted => ?_, hearned⟩
  · rw [show k.left = _ from hclient.run_eq] at hadmitted
    obtain ⟨buf, hheard, hhead⟩ := Client.told_of_admitted hleft _ hadmitted
    have hemitted := hconnected.client_heard hcompatible horderly hheard
      (ordinary_of_head hhead (by decide))
    exact hearned ⟨buf, hemitted, hhead⟩
  · rw [show k.left = _ from hclient.run_eq] at hadmitted ⊢
    exact Client.told_since hleft _ events hadmitted

/-- What the server's handler was asked about the client has queued. -/
theorem Connected.asked [LawfulSodium]
    (h : Connected clientConfig app serverConfig handler l l' r r')
    (hcompatible : Compatible clientConfig app serverConfig)
    (horderly : OrderlyRun clientConfig app serverConfig handler l l' moves)
    {p : Server.Callback × Server.Answer}
    (hp : p ∈ (converse clientConfig app serverConfig handler l l' moves).right.session.callbacks) :
    ∃ buf ∈ (converse clientConfig app serverConfig handler l l' moves).left.session.common.emitted,
      Server.Prompts buf p.1 := by
  obtain ⟨world', hright⟩ := h.server
  have hserver := h.server_relayed hcompatible horderly
  have hsourced := Server.run_sourced hright
    (serverEvents clientConfig app serverConfig handler l l' moves)
  rw [← hserver.run_eq] at hsourced
  obtain ⟨asked, hasked, hprompted⟩ := hsourced
  rw [List.nil_append] at hasked
  obtain ⟨buf, hheard, hprompts⟩ := hprompted p (hasked ▸ hp)
  exact ⟨buf, h.server_heard hcompatible horderly hheard hprompts.ordinary, hprompts⟩

/-- Local messages, flushes and packets of an exchange ask the handler nothing. -/
def Server.AsksNothing (handler : Server.Handler) : Prop :=
  (∀ m (s : Server.Session), (final (Server.message m s)).callbacks = s.callbacks) ∧
    (∀ s : Server.Session, (final (Server.onCommon flush s)).callbacks = s.callbacks) ∧
    ∀ buf (s : Server.Session), s.common.Sound → s.common.InExchange buf →
      (final (Server.reply handler buf s)).callbacks = s.callbacks

theorem Server.asksNothing (handler : Server.Handler) : Server.AsksNothing handler := by
  refine ⟨fun m s => silent_callbacks (message_silent m) s, fun s => ?_, fun buf s hs hin => ?_⟩
  · exact ((flush_stands s).mono (fun _ _ ht => ht.1) fun _ ht => ht.1).final
  · exact ((reply_stands handler hs hin).mono (fun _ _ ht => ht.callbacks)
      fun _ ht => ht.callbacks).final

/-- Along every orderly run, whatever the server's handler was asked about is in a packet that the
client has queued. Whatever happens to the server next, it asks only about what is in packets that it
is given then; and no local message, no flush and no exchange asks anything. -/
theorem questions_queued [LawfulSodium]
    (hconnected : Connected clientConfig app serverConfig handler l l' r r')
    (hcompatible : Compatible clientConfig app serverConfig)
    (horderly : OrderlyRun clientConfig app serverConfig handler l l' moves) :
    let k := converse clientConfig app serverConfig handler l l' moves
    (∀ p ∈ k.right.session.callbacks,
      ∃ buf ∈ k.left.session.common.emitted, Server.Prompts buf p.1) ∧
    (∀ events, ∃ asked, (k.right.run (Server.driver handler) events).session.callbacks =
        k.right.session.callbacks ++ asked ∧
      ∀ p ∈ asked, ∃ buf ∈ heard (k.right.acts (Server.driver handler) events),
        Server.Prompts buf p.1) ∧
    Server.AsksNothing handler := by
  intro k
  obtain ⟨world', hright⟩ := hconnected.server
  have hserver := hconnected.server_relayed hcompatible horderly
  refine ⟨fun p hp => hconnected.asked hcompatible horderly hp, fun events => ?_,
    Server.asksNothing handler⟩
  rw [show k.right = _ from hserver.run_eq]
  exact Server.sourced_since hright _ events

/-- What the application asks for it is sent as a local message. -/
theorem wishes_mem {user : Bytes} {method : Method}
    (h : (user, method) ∈ Client.wishes (l.acts (Client.driver app)
      (clientEvents clientConfig app serverConfig handler l l' moves))) :
    ∃ taken, .left (.message (some (.authenticate user method)) taken) ∈ moves := by
  obtain ⟨act, hact, hwish⟩ := List.mem_filterMap.mp h
  cases act with
  | reply s buf => cases hwish
  | message s m =>
    cases m with
    | none => cases hwish
    | some m =>
      cases m with
      | authenticate user' method' =>
        cases hwish
        obtain ⟨taken, hevent⟩ := Loop.message_of_acts hact
        exact ⟨taken, message_mem hevent⟩
      | _ => cases hwish

/-- What the application signs are requests with a public key. -/
def SignsRequests (app : Client.Application) : Prop :=
  ∀ tick s data, .signed data ∈ app.awaited tick s →
    ∃ user name blob tail, data.drop 36 = Client.publickeyRequest user 1 name blob ++ tail

/-- Along every orderly run of a client whose application signs only requests, a password that the
server's handler is asked about is one that the application has given, for the same user. -/
theorem passwords_given [LawfulSodium]
    (hconnected : Connected clientConfig app serverConfig handler l l' r r')
    (hcompatible : Compatible clientConfig app serverConfig) (hsigns : SignsRequests app)
    (horderly : OrderlyRun clientConfig app serverConfig handler l l' moves) :
    let k := converse clientConfig app serverConfig handler l l' moves
    ∀ user password answer, (.authPassword user password, answer) ∈ k.right.session.callbacks →
      ∃ taken, .left (.message (some (.authenticate user (.password password))) taken) ∈ moves := by
  intro k user password answer hp
  obtain ⟨buf, hbuf, hprompts⟩ := hconnected.asked hcompatible horderly hp
  obtain ⟨hhead, hread⟩ := hprompts.password
  have hshort : buf.length < 2 ^ 32 := by
    have hlength := horderly.ample.1.1 buf hbuf
    omega
  obtain ⟨world, s, -, hleft, -⟩ := hconnected.client
  have hclient := hconnected.client_relayed hcompatible horderly
  have hvoiced := Client.run_voiced hleft
    (clientEvents clientConfig app serverConfig handler l l' moves)
  rw [← hclient.run_eq] at hvoiced
  have hrequest : buf ∈ (Client.asking k.left.session.common).requests :=
    List.mem_filter.mpr ⟨hbuf, by simpa using hhead⟩
  cases hvoiced.requests buf hrequest with
  | @asked user' method hwish hbody =>
    rw [hbody] at hread hshort
    cases method with
    | password password' =>
      obtain ⟨rfl, rfl⟩ := readRequest_password hshort hread
      exact wishes_mem hwish
    | _ =>
      rw [← List.append_nil (Client.authRequestPacket _ _)] at hread hshort
      exact absurd hread (readRequest_publickey [] hshort)
  | @signed user' key id hwish hbody =>
    rw [Client.signaturePacket_eq] at hbody
    split at hbody
    · cases hbody
      exact absurd hread (readRequest_publickey _ hshort)
    · cases hbody
  | returned hsigned hbody =>
    obtain ⟨user', name, blob, tail, hdata⟩ := hsigns _ _ _ hsigned
    rw [hbody, hdata] at hread hshort
    exact absurd hread (readRequest_publickey tail hshort)

/-- Along every orderly run, the data that the server's handler was handed on a channel, plain or
extended, are among those that the client has queued for the channel, in the same order
and none of them twice. -/
theorem data_handed_over [LawfulSodium]
    (hconnected : Connected clientConfig app serverConfig handler l l' r r')
    (hcompatible : Compatible clientConfig app serverConfig)
    (horderly : OrderlyRun clientConfig app serverConfig handler l l' moves) (id : UInt32) :
    let k := converse clientConfig app serverConfig handler l l' moves
    (Server.handedOn id k.right.session.callbacks).Sublist
      (k.left.session.common.emitted.filterMap (readData id)) := by
  intro k
  obtain ⟨world', hright⟩ := hconnected.server
  have hserver := hconnected.server_relayed hcompatible horderly
  have hconveys := Server.run_conveys hright
    (serverEvents clientConfig app serverConfig handler l l' moves) id
  rw [← hserver.run_eq] at hconveys
  exact hconveys.trans (hserver.filterMap fun _ _ h => ordinary_of_readData h)

/-- And the data that the client's application was handed on a channel are among those that the
server has queued for the channel, in the same order and none of them twice. -/
theorem data_handed_back [LawfulSodium]
    (hconnected : Connected clientConfig app serverConfig handler l l' r r')
    (hcompatible : Compatible clientConfig app serverConfig)
    (horderly : OrderlyRun clientConfig app serverConfig handler l l' moves) (id : UInt32) :
    let k := converse clientConfig app serverConfig handler l l' moves
    (Client.handedOn id k.left.session.callbacks).Sublist
      (k.right.session.emitted.filterMap (readData id)) := by
  intro k
  obtain ⟨world, s, -, hleft, -⟩ := hconnected.client
  have hclient := hconnected.client_relayed hcompatible horderly
  have hconveys := Client.run_conveys hleft
    (clientEvents clientConfig app serverConfig handler l l' moves) id
  rw [← hclient.run_eq] at hconveys
  exact hconveys.trans (hclient.filterMap fun _ _ h => ordinary_of_readData h)

end

/-- Where the conversation leaves both sides. -/
theorem Concrete.conversation_admits :
    letI := Concrete.deps
    let k := converse Concrete.clientConfig Concrete.application Concrete.serverConfig
      Concrete.handler Concrete.client Concrete.server Concrete.conversation
    k.left.session.Admitted ∧ k.right.session.callbacks.length = 3 ∧
      (k.right.session.callbacks.map Prod.fst).head? =
        some (.authPassword (ascii "root") (ascii "secret")) ∧
      Server.handedOn 2 k.right.session.callbacks = [(none, [1, 2, 3])] := by
  decide +kernel

/-- A client that authenticates, opens a channel and sends data. -/
theorem client_admitted_conversation :
    letI := Concrete.deps
    let k := converse Concrete.clientConfig Concrete.application Concrete.serverConfig
      Concrete.handler Concrete.client Concrete.server Concrete.conversation
    (∃ p ∈ k.right.session.callbacks, p.1.authenticates = true ∧ p.2.accepts) ∧
      Server.Earned k.right.session := by
  let _ := Concrete.deps
  have hclient := @client_admitted Concrete.deps _ _ _ _ _ _ _ _ _ Concrete.lawful
    Concrete.connected (Concrete.compatible _ rfl) Concrete.conversation_runs.1
  exact ⟨hclient.1 Concrete.conversation_admits.1, hclient.2.2⟩

/-- The three questions of the conversation. -/
theorem questions_queued_conversation :
    letI := Concrete.deps
    let k := converse Concrete.clientConfig Concrete.application Concrete.serverConfig
      Concrete.handler Concrete.client Concrete.server Concrete.conversation
    k.right.session.callbacks.length = 3 ∧ ∀ p ∈ k.right.session.callbacks,
      ∃ buf ∈ k.left.session.common.emitted, Server.Prompts buf p.1 := by
  let _ := Concrete.deps
  have hasked := @questions_queued Concrete.deps _ _ _ _ _ _ _ _ _ Concrete.lawful
    Concrete.connected (Concrete.compatible _ rfl) Concrete.conversation_runs.1
  exact ⟨Concrete.conversation_admits.2.1, hasked.1⟩

/-- The password of the conversation. -/
theorem passwords_given_conversation :
    letI := Concrete.deps
    ∃ taken, (.left (.message (some (.authenticate (ascii "root") (.password (ascii "secret"))))
      taken) : Step) ∈ Concrete.conversation := by
  let _ := Concrete.deps
  obtain ⟨⟨q, answer⟩, hmem, hq⟩ :=
    List.mem_map.mp (List.mem_of_mem_head? Concrete.conversation_admits.2.2.1)
  have hsigns : @SignsRequests Concrete.deps Concrete.application := fun tick s data hdata => by
    cases hdata
  have hgiven := @passwords_given Concrete.deps _ _ _ _ _ _ _ _ _ Concrete.lawful Concrete.connected
    (Concrete.compatible _ rfl) hsigns Concrete.conversation_runs.1
  cases hq
  exact hgiven _ _ answer hmem

/-- The data of the conversation. -/
theorem data_handed_over_conversation :
    letI := Concrete.deps
    let k := converse Concrete.clientConfig Concrete.application Concrete.serverConfig
      Concrete.handler Concrete.client Concrete.server Concrete.conversation
    Server.handedOn 2 k.right.session.callbacks = [(none, [1, 2, 3])] ∧
      (Server.handedOn 2 k.right.session.callbacks).Sublist
        (k.left.session.common.emitted.filterMap (readData 2)) := by
  let _ := Concrete.deps
  exact ⟨Concrete.conversation_admits.2.2.2, @data_handed_over Concrete.deps _ _ _ _ _ _ _ _ _
    Concrete.lawful Concrete.connected (Concrete.compatible _ rfl) Concrete.conversation_runs.1 2⟩

/-- The conversation, and an answer of the server on the channel. -/
def Concrete.answered : List Step :=
  conversation ++ [.right (.message (some (2, .data [4, 5])) 0), toClient, clientReads]

/-- The answer is orderly, and the client hands it over. -/
theorem Concrete.answered_runs :
    letI := Concrete.deps
    let k := converse Concrete.clientConfig Concrete.application Concrete.serverConfig
      Concrete.handler Concrete.client Concrete.server Concrete.answered
    OrderlyRun Concrete.clientConfig Concrete.application Concrete.serverConfig Concrete.handler
        Concrete.client Concrete.server Concrete.answered ∧
      Client.handedOn 2 k.left.session.callbacks = [(none, [4, 5])] := by
  decide +kernel

/-- The data of the answer. -/
theorem data_handed_back_answered :
    letI := Concrete.deps
    let k := converse Concrete.clientConfig Concrete.application Concrete.serverConfig
      Concrete.handler Concrete.client Concrete.server Concrete.answered
    Client.handedOn 2 k.left.session.callbacks = [(none, [4, 5])] ∧
      (Client.handedOn 2 k.left.session.callbacks).Sublist
        (k.right.session.emitted.filterMap (readData 2)) := by
  let _ := Concrete.deps
  exact ⟨Concrete.answered_runs.2, @data_handed_back Concrete.deps _ _ _ _ _ _ _ _ _ Concrete.lawful
    Concrete.connected (Concrete.compatible _ rfl) Concrete.answered_runs.1 2⟩

end Thrussh
