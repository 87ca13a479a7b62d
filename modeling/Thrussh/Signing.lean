import Thrussh.Client.Signature
import Thrussh.Framing
import Thrussh.Server.Verdicts
import Thrussh.Utf8

/-!
# A key that the client proves to the server

The probe of a key, its approval, the signed request and the success, between
a client and a server of one session id. The client cuts the session id off
what it has signed, the server puts it before what it has read: both are the
same bytes, and the request succeeds, if and only if its length is a `u32`.
-/

namespace Thrussh

open Deps Lib Position

section
variable [Deps]

/-- The blob that `push_to` writes for a key, without its length. -/
def KeyPair.blob : KeyPair → Bytes
  | .ed25519 _ pub => sshString ed25519Name ++ sshString pub.toList
  | .rsa e n _ _ => sshString sshRsaName ++ sshMpint e ++ sshMpint n

/-- What `thrussh_keys` does for a key that signs some bytes: `mpint_len` counts
what `extend_ssh_mpint` appends, the blob is parsed, and one string is appended
that holds an algorithm and a signature, which is accepted. -/
structure Usable (key : KeyPair) (pubkey : PublicKey) (data algo sig : Bytes) : Prop where
  /-- The parts of an RSA key have the lengths that are written before them. -/
  mpint : ∀ e n secret hash, key = .rsa e n secret hash →
    mpintLen e = (sshMpint e).length ∧ mpintLen n = (sshMpint n).length
  /-- The blob is parsed. -/
  parsed : publicKeyParse key.name key.blob = .ok pubkey
  /-- The bytes are signed. -/
  signed : addSelfSignature key data = .ok (sshString (sshString algo ++ sshString sig))
  /-- What is appended is one string. -/
  short : (sshString algo ++ sshString sig).length < 2 ^ 32
  /-- The signature is accepted. -/
  accepted : verifyClientAuth pubkey data sig = true

omit [Deps] in
/-- A string is written behind its length. -/
theorem sshString_of_length {x : Bytes} {n : Nat} (h : x.length = n) :
    sshString x = be32 (UInt32.ofNat n) ++ x := by
  rw [← h, sshString]

/-- A pushed key is its blob as a string. -/
theorem Usable.pushTo_eq {key : KeyPair} {pubkey : PublicKey} {data algo sig : Bytes}
    (h : Usable key pubkey data algo sig) : key.pushTo = sshString key.blob := by
  cases key with
  | ed25519 secret pub =>
    have hlength : (sshString ed25519Name ++ sshString pub.toList).length =
        ed25519Name.length + pub.toList.length + 8 := by
      simp only [List.length_append, length_sshString]
      omega
    simp only [KeyPair.pushTo, KeyPair.blob]
    rw [sshString_of_length hlength, List.append_assoc]
  | rsa e n secret hash =>
    obtain ⟨he, hn⟩ := h.mpint e n secret hash rfl
    have hlength : (sshString sshRsaName ++ sshMpint e ++ sshMpint n).length =
        4 + sshRsaName.length + mpintLen n + mpintLen e := by
      simp only [List.length_append, length_sshString, he, hn]
      omega
    simp only [KeyPair.pushTo, KeyPair.blob]
    rw [sshString_of_length hlength]
    simp only [List.append_assoc]

end

/-! ### The request and its reader -/

section
variable {r r' : Position}

/-- A read stays in its slice. -/
theorem readByte_slice {b : UInt8} (h : r.readByte = .ok (b, r')) : r'.s = r.s := by
  unfold Position.readByte at h
  split at h
  · cases h
    rfl
  · cases h

theorem readU32_slice {n : UInt32} (h : r.readU32 = .ok (n, r')) : r'.s = r.s := by
  unfold Position.readU32 at h
  split at h
  · cases h
    rfl
  · cases h

theorem readString_slice {x : Bytes} (h : r.readString = .ok (x, r')) : r'.s = r.s := by
  unfold Position.readString at h
  obtain ⟨⟨n, r1⟩, hn, hrest⟩ := ok_of_bind h
  have hslice := readU32_slice hn
  dsimp only at hrest
  split at hrest
  · cases hrest
    exact hslice
  · cases hrest

end

section
variable [Deps] {user name blob tail : Bytes} {isReal : UInt8}

omit [Deps] in
theorem length_publickeyRequest (user : Bytes) (isReal : UInt8) (name blob : Bytes) :
    (Client.publickeyRequest user isReal name blob).length =
      41 + user.length + name.length + blob.length := by
  have hconnection : (ascii "ssh-connection").length = 14 := by decide
  have hpublickey : (ascii "publickey").length = 9 := by decide
  simp only [Client.publickeyRequest, List.length_append, List.length_cons, length_sshString,
    hconnection, hpublickey]
  omega

omit [Deps] in
/-- A request that is short enough is read back, and its reader then stands behind it. -/
theorem readPublickey_publickeyRequest (tail : Bytes) (huser : utf8Valid user)
    (hlt : (Client.publickeyRequest user isReal name (sshString blob)).length < 2 ^ 32) :
    ∃ r₁ r₂, Server.readRequestHead
        (Client.publickeyRequest user isReal name (sshString blob) ++ tail) =
          .ok (user, ascii "publickey", r₁) ∧
      Server.readPublickey r₁ = .ok (isReal, name, blob, r₂) ∧
      r₂ = ⟨Client.publickeyRequest user isReal name (sshString blob) ++ tail,
        (Client.publickeyRequest user isReal name (sshString blob)).length⟩ := by
  have hlength := hlt
  rw [length_publickeyRequest, length_sshString] at hlength
  have hbuf : Client.publickeyRequest user isReal name (sshString blob) ++ tail =
      msg.USERAUTH_REQUEST :: (sshString user ++ (sshString (ascii "ssh-connection") ++
        (sshString (ascii "publickey") ++ (isReal :: (sshString name ++
          (sshString blob ++ tail)))))) := by
    simp only [Client.publickeyRequest, List.append_assoc, List.cons_append]
  obtain ⟨r₁, huser', hr₁⟩ :=
    (before_reader msg.USERAUTH_REQUEST _).readString (x := user) (by omega)
  obtain ⟨r₂, hservice, hr₂⟩ := hr₁.readString (x := ascii "ssh-connection") (by decide)
  obtain ⟨r₃, hmethod, hr₃⟩ := hr₂.readString (x := ascii "publickey") (by decide)
  obtain ⟨r₄, hreal, hr₄⟩ := hr₃.readByte
  obtain ⟨r₅, hname, hr₅⟩ := hr₄.readString (x := name) (by omega)
  obtain ⟨r₆, hblob, pre, hr₆⟩ := hr₅.readString (x := blob) (by omega)
  rw [← hbuf] at huser'
  have hslice : r₆.s = Client.publickeyRequest user isReal name (sshString blob) ++ tail := by
    rw [readString_slice hblob, readString_slice hname, readByte_slice hreal,
      readString_slice hmethod, readString_slice hservice, readString_slice huser']
    rfl
  have hpre : pre = Client.publickeyRequest user isReal name (sshString blob) := by
    rw [hr₆] at hslice
    exact List.append_cancel_right hslice
  refine ⟨r₃, r₆, ?_, ?_, ?_⟩
  · have hvalid : fromUtf8 user = .ok user := if_pos huser
    have hconnection : ascii "ssh-connection" = Server.sshConnection := rfl
    simp only [Server.readRequestHead, bind, Except.bind, huser', hvalid, hservice, hmethod,
      if_pos hconnection]
  · simp only [Server.readPublickey, bind, Except.bind, hreal, hname, hblob]
  · rw [hr₆, hpre]

/-- A probe is read back. -/
theorem readInquiry_probe (current : Option CurrentRequest) {pubkey : PublicKey}
    (huser : utf8Valid user)
    (hlt : (Client.publickeyRequest user 0 name (sshString blob)).length < 2 ^ 32)
    (hparsed : publicKeyParse name blob = .ok pubkey) :
    Server.readInquiry current (Client.publickeyRequest user 0 name (sshString blob)) =
      .ok (.probe user name blob pubkey) := by
  obtain ⟨r₁, r₂, hhead, hpk, -⟩ := readPublickey_publickeyRequest [] huser hlt
  rw [List.append_nil] at hhead
  have hrequest : (Client.publickeyRequest user 0 name (sshString blob)).head? =
      some msg.USERAUTH_REQUEST := rfl
  unfold Server.readInquiry Server.readRequest Server.readPublickeyInquiry
  rw [if_pos hrequest]
  have hmethod : ascii "publickey" ≠ ascii "password" := by decide
  simp only [hhead, hpk, bind, Except.bind, if_neg hmethod, if_true, hparsed]
  rfl

/-- A signed request is read back: what its signature is checked against is the
session id and the request without the signature. -/
theorem readSignedRequest_signed {pubkey : PublicKey} (algo sig : Bytes) (huser : utf8Valid user)
    (hlt : (Client.publickeyRequest user 1 name (sshString blob)).length < 2 ^ 32)
    (hparsed : publicKeyParse name blob = .ok pubkey)
    (hshort : (sshString algo ++ sshString sig).length < 2 ^ 32) :
    Server.readSignedRequest (Client.publickeyRequest user 1 name (sshString blob) ++
        sshString (sshString algo ++ sshString sig)) =
      .ok ⟨user, pubkey, Client.publickeyRequest user 1 name (sshString blob), sig⟩ := by
  obtain ⟨r₁, r₂, hhead, hpk, hr₂⟩ := readPublickey_publickeyRequest
    (sshString (sshString algo ++ sshString sig)) huser hlt
  have hlength := hshort
  simp only [List.length_append, length_sshString] at hlength
  have hbefore : r₂.Before (sshString (sshString algo ++ sshString sig)) := ⟨_, hr₂⟩
  obtain ⟨r₃, hsignature⟩ := hbefore.readString_last hshort
  have hstart : (reader (sshString algo ++ sshString sig) 0).Before
      (sshString algo ++ sshString sig) := ⟨[], rfl⟩
  obtain ⟨r₄, halgo, hr₄⟩ := hstart.readString (x := algo) (by omega)
  obtain ⟨r₅, hsig⟩ := hr₄.readString_last (by omega)
  have hread : Server.readSignature r₂ = .ok sig := by
    simp only [Server.readSignature, bind, Except.bind, hsignature, halgo, hsig]
  have hinit : (Client.publickeyRequest user 1 name (sshString blob) ++
      sshString (sshString algo ++ sshString sig)).take r₂.position =
        Client.publickeyRequest user 1 name (sshString blob) := by
    rw [hr₂]
    exact List.take_left
  simp only [Server.readSignedRequest, hhead, hpk, hread, hparsed, bind, Except.bind, hinit]
  rfl

omit [Deps] in
/-- The reader of a request stays in the packet. -/
theorem readRequestHead_slice {packet user method : Bytes} {r : Position}
    (h : Server.readRequestHead packet = .ok (user, method, r)) : r.s = packet := by
  obtain ⟨⟨name, r₁⟩, hname, h⟩ := ok_of_bind h
  obtain ⟨user', -, h⟩ := ok_of_bind h
  obtain ⟨⟨service, r₂⟩, hservice, h⟩ := ok_of_bind h
  obtain ⟨⟨method', r₃⟩, hmethod, h⟩ := ok_of_bind h
  dsimp only at h
  split at h
  · cases h
    rw [readString_slice hmethod, readString_slice hservice, readString_slice hname]
    rfl
  · cases h

omit [Deps] in
theorem readPublickey_slice {r r' : Position} {isReal : UInt8} {algo key : Bytes}
    (h : Server.readPublickey r = .ok (isReal, algo, key, r')) : r'.s = r.s := by
  obtain ⟨⟨isReal', r₁⟩, hreal, h⟩ := ok_of_bind h
  obtain ⟨⟨algo', r₂⟩, halgo, h⟩ := ok_of_bind h
  obtain ⟨⟨key', r₃⟩, hkey, h⟩ := ok_of_bind h
  cases h
  rw [readString_slice hkey, readString_slice halgo, readByte_slice hreal]

/-- The signature of a request stands behind the part that it is checked against. -/
theorem readSignedRequest_init {packet : Bytes} {req : Server.SignedRequest}
    (h : Server.readSignedRequest packet = .ok req) :
    ∃ r : Position, r.s = packet ∧ req.init = packet.take r.position ∧
      Server.readSignature r = .ok req.sig := by
  obtain ⟨⟨user, method, r₁⟩, hhead, h⟩ := ok_of_bind h
  obtain ⟨⟨isReal, algo, key, r₂⟩, hpk, h⟩ := ok_of_bind h
  obtain ⟨sig, hsignature, h⟩ := ok_of_bind h
  have hslice : r₂.s = packet := by rw [readPublickey_slice hpk, readRequestHead_slice hhead]
  split at h
  · split at h
    · cases h
      exact ⟨r₂, hslice, rfl, hsignature⟩
    · cases h
  · cases h

/-- A part of a signed request that is read with all of what has been signed
is the whole of it. -/
theorem signed_whole {packet signed inner : Bytes} {req : Server.SignedRequest}
    (hinner : inner.length < 2 ^ 32) (hcut : packet <+: signed ++ sshString inner)
    (hreq : Server.readSignedRequest packet = .ok req) (hinit : req.init = signed) :
    (signed ++ sshString inner).length ≤ packet.length := by
  obtain ⟨r, hslice, htake, hsignature⟩ := readSignedRequest_init hreq
  obtain ⟨⟨signature, r'⟩, hstring, -⟩ := ok_of_bind hsignature
  have hleft := readString_left hstring
  have hroom : r.left = packet.length - r.position := by rw [left, hslice]
  have hposition : signed.length = r.position := by
    rw [← hinit, htake, List.length_take]
    omega
  obtain ⟨cut, hpacket, hrest⟩ := cut_append hcut (by omega)
  have hwithin : r.Within (sshString inner ++ []) := by
    refine ⟨by rw [hslice]; omega, ?_⟩
    rw [hslice, hpacket, ← hposition, List.drop_left, List.append_nil]
    exact hrest
  have hmod : (UInt32.ofNat inner.length).toNat = inner.length := by
    rw [UInt32.toNat_ofNat']
    omega
  obtain ⟨hread, -⟩ := hwithin.readString hstring
  rw [hmod, List.take_length] at hread
  rw [hread] at hleft
  rw [List.length_append, length_sshString]
  omega

end

/-! ### The dialogue -/

section
variable [Deps]

/-- A session between key exchanges, or one that waits for the peer's KEXINIT:
the packets of the authentication are served. -/
structure Settled {C : Type} [SessionConfig C] (s : CommonSession C) : Prop where
  /-- The session is sound. -/
  sound : s.Sound
  /-- No exchange is in its last steps. -/
  phase : s.phase ≠ .dh ∧ s.phase ≠ .newKeys

theorem Settled.served {C : Type} [SessionConfig C] {s : CommonSession C} (h : Settled s)
    {buf : Bytes} (henc : s.encrypted.isSome) (hhead : buf.head? ≠ some msg.KEXINIT) :
    ¬ s.InExchange buf := by
  rintro (hnone | hkexinit | hdh | hnewKeys)
  · rw [hnone] at henc
    cases henc
  · exact hhead hkexinit
  · exact h.phase.1 hdh
  · exact h.phase.2 hnewKeys

/-- A server that awaits a request, under a session id. -/
structure Server.Awaits (s : Server.Session) (id : Bytes32) : Prop where
  /-- No key exchange claims the packet. -/
  settled : Settled s.common
  /-- The session is encrypted. -/
  encrypted : ∃ enc auth, s.common.encrypted = some enc ∧ enc.sessionId = id ∧
    enc.state = .waitingAuthRequest auth

/-- A client that has sent a probe of its key and awaits the answer, under a session id. -/
structure Client.Awaits (c : Client.Session) (id : Bytes32) (user : Bytes) (key : KeyPair) :
    Prop where
  /-- No key exchange claims the packet. -/
  settled : Settled c.common
  /-- The session is encrypted. -/
  encrypted : ∃ enc auth, c.common.encrypted = some enc ∧ enc.sessionId = id ∧
    enc.state = .waitingAuthRequest auth
  /-- The user is the one of the request. -/
  user : c.common.authUser = user
  /-- The key has been asked for. -/
  method : c.common.authMethod = some (.publicKey key)

/-- A client sends a probe of its key. -/
inductive Client.Probes (app : Client.Application) (user : Bytes) (key : KeyPair)
    (c c' : Client.Session) : Prop where
  /-- The application asks for it, while a request is awaited. -/
  | asked {enc : Encrypted} {auth : AuthRequest} (henc : c.common.encrypted = some enc)
    (hstate : enc.state = .waitingAuthRequest auth)
    (hrun : Client.serveMessage (.authenticate user (.publicKey key)) c = .ok () c')
  /-- The service is accepted, and the key has been asked for before. -/
  | accepted {enc : Encrypted} {sent accepted : Bool} {buf : Bytes} {r : Position}
    (henc : c.common.encrypted = some enc)
    (hstate : enc.state = .waitingServiceRequest sent accepted) (huser : c.common.authUser = user)
    (hmethod : c.common.authMethod = some (.publicKey key))
    (hhead : buf.head? = some msg.SERVICE_ACCEPT)
    (hservice : (reader buf 1).readString = .ok (ascii "ssh-userauth", r))
    (hrun : Client.reply app buf c = .ok () c')

/-- A session with the same exchange is settled too. -/
theorem Settled.of_records {C : Type} [SessionConfig C] {s t : CommonSession C} (h : Settled s)
    (hkex : t.kex = s.kex) (henc : Option.Rel
      (fun e e' => e'.rekey = e.rekey ∧ e'.exchange = e.exchange) s.encrypted t.encrypted) :
    Settled t :=
  ⟨h.sound.of_records hkex henc, by rw [phase_of_records hkex henc]; exact h.phase⟩

/-- The probe is queued, and its answer is awaited. -/
theorem Client.Probes.awaits {app : Client.Application} {user : Bytes} {key : KeyPair}
    {c c' : Client.Session} {id : Bytes32} (h : Client.Probes app user key c c')
    (hsettled : Settled c.common)
    (hid : ∀ enc, c.common.encrypted = some enc → enc.sessionId = id) :
    Client.Awaits c' id user key ∧ c'.common.emitted = c.common.emitted ++
      [Client.authRequestPacket user (.publicKey key)] := by
  cases h with
  | @asked enc auth henc hstate hrun =>
    have hasked : Client.serveMessage (.authenticate user (.publicKey key)) c = .ok ()
        { c with common := { c.common with
          encrypted := some (enc.push (Client.authRequestPacket user (.publicKey key)))
          authUser := user, authMethod := some (.publicKey key) } } := by
      have hwaiting : Client.EncryptedState.isWaiting (.waitingAuthRequest auth) = true := rfl
      unfold Client.serveMessage Client.writeAuthRequestIfNeeded Client.requestService
      simp only [run_bind, run_get, henc, hstate, run_pure]
      rw [if_pos hwaiting]
      simp only [Client.push, Client.modifyEnc, run_bind, run_modify, CommonSession.modifyEnc,
        henc, Option.map_some]
    rw [hasked] at hrun
    cases hrun
    refine ⟨⟨hsettled.of_records rfl ?_, ⟨_, _, rfl, hid enc henc, hstate⟩, rfl, rfl⟩, ?_⟩
    · rw [henc]
      exact .some ⟨rfl, rfl⟩
    · rw [emitted_some henc]
      rfl
  | @accepted enc sent accepted buf r henc hstate huser hmethod hhead hservice hrun =>
    have hin := hsettled.served (by rw [henc]; rfl) (by rw [hhead]; decide)
    have haccepted : Client.clientReadState app buf c = .ok () { c with common := { c.common with
        encrypted := some { enc.push (Client.authRequestPacket user (.publicKey key)) with
          state := .waitingAuthRequest ⟨.all, false, none, 0⟩ } } } := by
      unfold Client.clientReadState Client.clientReadServiceAccept
      simp only [run_bind, run_get, henc, hstate, if_pos hhead, hservice, run_lift_ok, if_true,
        Client.modifyEnc, run_modify, CommonSession.modifyEnc, Option.map_some, hmethod,
        Client.push, huser]
      rfl
    rw [Client.reply_state app hsettled.sound hin, haccepted] at hrun
    cases hrun
    refine ⟨⟨hsettled.of_records rfl ?_, ⟨_, _, rfl, hid enc henc, rfl⟩, huser, hmethod⟩, ?_⟩
    · rw [henc]
      exact .some ⟨rfl, rfl⟩
    · rw [emitted_some henc]
      rfl

/-- A handler that accepts a key of a user, whenever it is asked. -/
def Server.Handler.AcceptsKey (handler : Server.Handler) (user : Bytes) (pubkey : PublicKey) :
    Prop :=
  ∀ tick s, Server.Answer.accepts (handler tick (.authPublickey user pubkey) s)

/-- A request leaves the session id. -/
theorem Server.Requested.sessionId {v w : Server.View} {auth : AuthRequest} {buf : Bytes}
    (h : Server.Requested v auth buf w) : w.opened.sessionId = v.sessionId := by
  have hopened : w.opened.sessionId = w.sessionId := by
    unfold Server.View.opened
    split <;> rfl
  rw [hopened]
  cases h with
  | rejected htold hstate => exact htold.sessionId
  | prompted htold hstate => exact htold.sessionId
  | probed hkey haccepts hw => rw [hw]
  | other hother hcallback haccepts hasked htold hstate => exact htold.sessionId
  | vouched hreq hsent huser hverified hw => rw [hw]
  | asked hreq haccepts hverified hw => rw [hw]

namespace Server.Awaits

variable {handler : Server.Handler} {s t : Server.Session} {id : Bytes32} {packet : Bytes}

theorem isSome (h : Server.Awaits s id) : s.common.encrypted.isSome := by
  obtain ⟨enc, auth, henc, -⟩ := h.encrypted
  rw [henc]
  rfl

/-- Requests are served. -/
theorem outside (h : Server.Awaits s id) (hhead : packet.head? = some msg.USERAUTH_REQUEST) :
    ¬ s.common.InExchange packet :=
  h.settled.served h.isSome (by rw [hhead]; decide)

/-- What a session remembers that awaits a request. -/
theorem dialogue (h : Server.Awaits s id) :
    ∃ auth, s.dialogue = some ⟨s.common.authUser, auth⟩ := by
  obtain ⟨enc, auth, henc, -, hauth⟩ := h.encrypted
  refine ⟨auth, ?_⟩
  simp only [Server.Session.dialogue, Server.Session.state, henc, Option.map_some, hauth]

/-- A packet that leaves a dialogue in place is served in a session that awaits again. -/
theorem again (h : Server.Awaits s id) (hhead : packet.head? = some msg.USERAUTH_REQUEST)
    (hreply : Server.reply handler packet s = .ok () t) {auth : AuthRequest}
    (hstate : t.state = some (.waitingAuthRequest auth)) : Server.Awaits t id := by
  obtain ⟨enc, auth', henc, hid, hauth⟩ := h.encrypted
  rw [Server.reply_state handler (h.outside hhead)] at hreply
  obtain ⟨v, hv, hvstate, hvid⟩ := Server.view_some henc
  obtain ⟨enc', henc', hauth'⟩ := Option.map_eq_some_iff.mp hstate
  have hsettled : ∀ u, Relation.ReflTransGen (Turn fun _ => True) s.common u → Settled u := by
    intro u hsteps
    induction hsteps with
    | refl => exact h.settled
    | tail _ hstep ih => exact ⟨hstep.sound ih.sound, hstep.phase_ne ih.phase⟩
  have hmoves := Server.serverReadState_moves (P := fun _ => True)
    (q := Turn fun _ => True) (fun _ _ => trivial) handler packet s
  rw [hreply] at hmoves
  have hends := Server.serverReadState_requested handler hv (hvstate.trans hauth) hhead
  unfold Ends at hends
  rw [hreply] at hends
  obtain ⟨u, ht, hrequested⟩ := hends
  have hid' : enc'.sessionId = v.sessionId := by
    rw [← hrequested.sessionId]
    simp only [Server.Session.view, henc', Option.map_some, Option.some.injEq] at ht
    rw [← ht]
  exact ⟨hsettled _ (Server.Over.lift hmoves), enc', auth, henc', by rw [hid', hvid, hid], hauth'⟩

/-- A probe of a key that the handler accepts is approved, and noted. -/
theorem probed (h : Server.Awaits s id) {user algo key : Bytes} {pubkey : PublicKey}
    (haccepts : handler.AcceptsKey user pubkey)
    (hhead : packet.head? = some msg.USERAUTH_REQUEST)
    (hread : ∀ current, Server.readInquiry current packet = .ok (.probe user algo key pubkey)) :
    ∃ t auth, Server.reply handler packet s = .ok () t ∧ Server.Awaits t id ∧
      t.emitted = s.emitted ++ [msg.USERAUTH_PK_OK :: sshString algo ++ sshString key] ∧
      t.dialogue = some ⟨user, auth⟩ ∧ Server.sentPkOk auth.current = true := by
  obtain ⟨auth, hdialogue⟩ := h.dialogue
  have haddressed : Server.Addressed s packet ⟨s.common.authUser, auth⟩
      (.probe user algo key pubkey) :=
    ⟨hdialogue, h.outside hhead, .inl hhead, hread _⟩
  obtain ⟨id', -, htreated⟩ := haddressed.treated handler
  generalize hresult : Server.reply handler packet s = result at htreated
  have hanswer := haccepts s.common.tick
    (s.noting ((Server.Inquiry.probe user algo key pubkey).noted ⟨s.common.authUser, auth⟩))
  cases htreated with
  | untold hq ho ht => cases hq
  | failed hq hfail ht =>
    cases hq
    rw [Server.Handler.answer, hanswer.1] at hfail
    cases hfail
  | stuck hq hfail ho ht => cases (Server.outcome_eq_none_iff.mp ho).1
  | @told _ q o t hq hfail ho ht =>
    cases hq
    have hverdict : some (handler.answer s ((Server.Inquiry.probe user algo key pubkey).noted
        ⟨s.common.authUser, auth⟩) (.authPublickey user pubkey)).auth = some .accept :=
      congrArg some hanswer.2
    dsimp only [Server.Inquiry.outcome] at ho
    rw [if_pos hverdict, Option.some.injEq] at ho
    have hstate := ht.state
    have huser := ht.authUser
    have hemitted := ht.emitted
    rw [← ho] at hstate huser hemitted
    refine ⟨t, { auth with current := some (.publicKey key algo true) }, rfl,
      h.again hhead hresult hstate, hemitted, ?_, rfl⟩
    simp only [Server.Session.dialogue, hstate, huser, Server.Outcome.state,
      Server.Outcome.authUser]

/-- A signed request whose user is on record with an approved probe succeeds. -/
theorem succeeds (h : Server.Awaits s id) {user : Bytes} {auth : AuthRequest}
    {req : Server.SignedRequest} (hdialogue : s.dialogue = some ⟨user, auth⟩)
    (hsent : Server.sentPkOk auth.current = true) (huser : req.user = user)
    (hpublickey : Server.isPublickeyRequest packet = true)
    (hread : Server.readSignedRequest packet = .ok req) (hverified : req.verified id = true) :
    ∃ t, Server.reply handler packet s = .ok () t ∧
      t.emitted = s.emitted ++ [[msg.USERAUTH_SUCCESS]] ∧ t.state = some .initCompression := by
  have hhead := Server.head_of_publickey hpublickey
  have haddressed : Server.Addressed s packet ⟨user, auth⟩ (.signed req) :=
    ⟨hdialogue, h.outside hhead, .inl hhead, Server.readInquiry_signed _ hpublickey hread⟩
  obtain ⟨id', hid', htreated⟩ := haddressed.treated handler
  obtain ⟨enc, -, henc, hid, -⟩ := h.encrypted
  have hsame : id' = id := by
    rw [← hid' enc henc, hid]
  subst hsame
  have hvouches : Server.Dialogue.vouches ⟨user, auth⟩ req := ⟨hsent, huser⟩
  have hquestion : (Server.Inquiry.signed req).question ⟨user, auth⟩ = none :=
    if_neg fun hnot => hnot.1 hvouches
  generalize Server.reply handler packet s = result at htreated
  cases htreated with
  | @untold _ o t hq ho ht =>
    simp only [Server.Inquiry.outcome, Server.Dialogue.judge, hvouches, hverified, true_or,
      decide_true, and_self, if_true, Option.some.injEq] at ho
    rw [← ho] at ht
    exact ⟨t, rfl, ht.emitted, ht.state⟩
  | failed hq hfail ht =>
    rw [hquestion] at hq
    cases hq
  | stuck hq hfail ho ht =>
    rw [hquestion] at hq
    cases hq
  | told hq hfail ho ht =>
    rw [hquestion] at hq
    cases hq

end Server.Awaits

/-- The client answers the approval of its key with what it has signed, without
the session id, and the signature. -/
theorem Client.Awaits.signs {c : Client.Session} {id : Bytes32} {user : Bytes} {key : KeyPair}
    {signature : Bytes} (h : Client.Awaits c id user key) (app : Client.Application) (packet : Bytes)
    (hhead : packet.head? = some msg.USERAUTH_PK_OK)
    (hsigned : addSelfSignature key (Client.toSign id user key.name key.pushTo) = .ok signature) :
    ∃ d, Client.reply app packet c = .ok () d ∧ d.common.emitted = c.common.emitted ++
      [Client.publickeyRequest user 1 key.name key.pushTo ++ signature] := by
  obtain ⟨enc, auth, henc, hid, hstate⟩ := h.encrypted
  have happroved : Client.Approved c packet enc (.publicKey key) :=
    ⟨henc, ⟨auth, hstate⟩, h.settled.served (by rw [henc]; rfl) (by rw [hhead]; decide), hhead,
      h.method⟩
  have hsigns : Client.Signs app c packet enc.sessionId (.publicKey key) :=
    happroved.signs h.settled.sound fun password h => by cases h
  rw [hid] at hsigns
  cases hsigns with
  | signed hsignature hreply hemitted =>
    rw [h.user, hsigned] at hsignature
    cases hsignature
    rw [h.user] at hemitted
    exact ⟨_, hreply, hemitted⟩
  | unsigned hsignature hreply =>
    rw [h.user, hsigned] at hsignature
    cases hsignature

/-- The request that a client sends for its key, with the signature. -/
def signedRequest (user : Bytes) (key : KeyPair) (algo sig : Bytes) : Bytes :=
  Client.publickeyRequest user 1 key.name key.pushTo ++ sshString (sshString algo ++ sshString sig)

/-- How a client proves a key to a server that awaits a request. -/
structure Proven (handler : Server.Handler) (app : Client.Application) (id : Bytes32)
    (user : Bytes) (key : KeyPair) (c c' : Client.Session) (s s' s'' : Server.Session)
    (packet : Bytes) (req : Server.SignedRequest) : Prop where
  /-- The server serves the probe. -/
  probe : Server.reply handler (framed (Client.authRequestPacket user (.publicKey key))) s = .ok () s'
  /-- It answers with USERAUTH_PK_OK. -/
  approved : s'.emitted =
    s.emitted ++ [msg.USERAUTH_PK_OK :: sshString key.name ++ sshString key.blob]
  /-- The client serves the answer. -/
  answer : Client.reply app
    (framed (msg.USERAUTH_PK_OK :: sshString key.name ++ sshString key.blob)) c = .ok () c'
  /-- It sends one packet. -/
  sent : c'.common.emitted = c.common.emitted ++ [packet]
  /-- The server reads a signed request in it. -/
  read : Server.readSignedRequest (framed packet) = .ok req
  /-- The bytes that the server verifies are those that the client has signed. -/
  verified : sshString id.toList ++ req.init = Client.toSign id user key.name key.pushTo
  /-- The server serves the request. -/
  request : Server.reply handler (framed packet) s' = .ok () s''
  /-- It answers with USERAUTH_SUCCESS. -/
  succeeded : s''.emitted = s'.emitted ++ [[msg.USERAUTH_SUCCESS]]
  /-- The authentication is over. -/
  finished : s''.state = some .initCompression

/-- Whether a client proves a key to a server. -/
def Proves (handler : Server.Handler) (app : Client.Application) (id : Bytes32) (user : Bytes)
    (key : KeyPair) (c : Client.Session) (s : Server.Session) : Prop :=
  ∃ c' s' s'' packet req, Proven handler app id user key c c' s s' s'' packet req

section
variable {handler : Server.Handler} {app : Client.Application} {id : Bytes32} {user : Bytes}
  {key : KeyPair} {pubkey : PublicKey} {algo sig : Bytes} {c : Client.Session} {s : Server.Session}

/-- A signed request whose length is a `u32` succeeds. -/
theorem proves_of_short (huser : utf8Valid user)
    (husable : Usable key pubkey (Client.toSign id user key.name key.pushTo) algo sig)
    (hclient : Client.Awaits c id user key) (hserver : Server.Awaits s id)
    (haccepts : handler.AcceptsKey user pubkey)
    (hlt : (signedRequest user key algo sig).length < 2 ^ 32) :
    Proves handler app id user key c s := by
  have hpush := husable.pushTo_eq
  have hlength := hlt
  rw [signedRequest, List.length_append, length_publickeyRequest] at hlength
  have hprobe : (Client.publickeyRequest user 0 key.name (sshString key.blob)).length < 2 ^ 32 := by
    rw [length_publickeyRequest, ← hpush]
    omega
  have hsigned : (Client.publickeyRequest user 1 key.name (sshString key.blob)).length <
      2 ^ 32 := by
    rw [length_publickeyRequest, ← hpush]
    omega
  have happrovedlt : (msg.USERAUTH_PK_OK :: sshString key.name ++ sshString key.blob).length <
      2 ^ 32 := by
    rw [length_publickeyRequest, length_sshString] at hsigned
    simp only [List.length_append, List.length_cons, length_sshString]
    omega
  have hread := fun current => readInquiry_probe current huser hprobe husable.parsed
  obtain ⟨s', auth, hreply, hagain, hemitted, hdialogue, hsent⟩ :=
    hserver.probed haccepts rfl hread
  obtain ⟨c', hanswer, hpacket⟩ := hclient.signs app
    (msg.USERAUTH_PK_OK :: sshString key.name ++ sshString key.blob) rfl husable.signed
  have hreq := readSignedRequest_signed algo sig huser hsigned husable.parsed
    husable.short
  have hpublickey : Server.isPublickeyRequest (Client.publickeyRequest user 1 key.name
      (sshString key.blob) ++ sshString (sshString algo ++ sshString sig)) = true := by
    obtain ⟨r₁, r₂, hhead, -, -⟩ := readPublickey_publickeyRequest
      (sshString (sshString algo ++ sshString sig)) huser hsigned
    simp only [Server.isPublickeyRequest, hhead]
    rfl
  have hsame : sshString id.toList ++ Client.publickeyRequest user 1 key.name (sshString key.blob) =
      Client.toSign id user key.name key.pushTo := by
    rw [Client.toSign_eq, hpush]
  obtain ⟨s'', hrequest, hsuccess, hover⟩ := hagain.succeeds hdialogue hsent rfl hpublickey hreq
    (by rw [Server.SignedRequest.verified, hsame]; exact husable.accepted)
  have hwhole : framed (signedRequest user key algo sig) =
      Client.publickeyRequest user 1 key.name (sshString key.blob) ++
        sshString (sshString algo ++ sshString sig) := by
    rw [framed_of_lt hlt, signedRequest, hpush]
  let req : Server.SignedRequest :=
    ⟨user, pubkey, Client.publickeyRequest user 1 key.name (sshString key.blob), sig⟩
  refine ⟨c', s', s'', signedRequest user key algo sig, req, ?_, hemitted, ?_, hpacket, ?_, hsame,
    ?_, hsuccess, hover⟩
  · simp only [Client.authRequestPacket]
    rw [hpush, framed_of_lt hprobe]
    exact hreply
  · rw [framed_of_lt happrovedlt]
    exact hanswer
  · rw [hwhole]
    exact hreq
  · rw [hwhole]
    exact hrequest

/-- A signed request that succeeds has a length that is a `u32`. -/
theorem short_of_proves
    (husable : Usable key pubkey (Client.toSign id user key.name key.pushTo) algo sig)
    (hclient : Client.Awaits c id user key) (h : Proves handler app id user key c s) :
    (signedRequest user key algo sig).length < 2 ^ 32 := by
  obtain ⟨c', s', s'', packet, req, hproven⟩ := h
  have hpush := husable.pushTo_eq
  have hframed : ∀ body : Bytes, (framed body).length < 2 ^ 32 := by
    intro body
    rw [framed, List.length_take, UInt32.toNat_ofNat']
    omega
  have hinit : req.init = Client.publickeyRequest user 1 key.name key.pushTo := by
    have hverified := hproven.verified
    rw [Client.toSign_eq] at hverified
    exact List.append_cancel_left hverified
  obtain ⟨r, hslice, htake, -⟩ := readSignedRequest_init hproven.read
  have hinitlt : (Client.publickeyRequest user 1 key.name key.pushTo).length < 2 ^ 32 := by
    have hlength := hframed packet
    rw [← hinit, htake, List.length_take]
    omega
  -- the answer is short, so the client takes it for what it is
  have happrovedlt : (msg.USERAUTH_PK_OK :: sshString key.name ++ sshString key.blob).length <
      2 ^ 32 := by
    rw [hpush, length_publickeyRequest, length_sshString] at hinitlt
    simp only [List.length_append, List.length_cons, length_sshString]
    omega
  obtain ⟨d, hanswer, hsent⟩ := hclient.signs app
    (msg.USERAUTH_PK_OK :: sshString key.name ++ sshString key.blob) rfl husable.signed
  have hanswer' := hproven.answer
  rw [framed_of_lt happrovedlt, hanswer] at hanswer'
  cases hanswer'
  have hpacket : packet = signedRequest user key algo sig := by
    have hboth := hproven.sent
    rw [hsent] at hboth
    have hsingle := List.append_cancel_left hboth
    exact (List.cons.inj hsingle).1.symm
  have hcut : framed packet <+: signedRequest user key algo sig := by
    rw [← hpacket]
    exact List.take_prefix _ _
  have hwhole := signed_whole husable.short hcut hproven.read hinit
  have hlength := hframed packet
  unfold signedRequest
  omega

/-- The client proves its key, by a signature over the bytes that the server
verifies, if and only if the length of the signed request is a `u32`. -/
theorem proves_iff (huser : utf8Valid user)
    (husable : Usable key pubkey (Client.toSign id user key.name key.pushTo) algo sig)
    (hclient : Client.Awaits c id user key) (hserver : Server.Awaits s id)
    (haccepts : handler.AcceptsKey user pubkey) :
    Proves handler app id user key c s ↔ (signedRequest user key algo sig).length < 2 ^ 32 :=
  ⟨short_of_proves husable hclient, proves_of_short huser husable hclient hserver haccepts⟩

end

end

/-! ### A key of a fresh session -/

/-- The key of a client. -/
def Concrete.keyPair : KeyPair := .ed25519 (Vector.replicate 32 0) (Vector.replicate 32 0)

/-- A client that has sent a probe of its key for a user. -/
def Concrete.probing (user : Bytes) : @Client.Session Concrete.deps :=
  letI := Concrete.deps
  let s := Concrete.clientSession (.waitingAuthRequest ⟨.all, false, none, 0⟩)
  { s with common := { s.common with
      authUser := user, authMethod := some (.publicKey Concrete.keyPair) } }

/-- A server that has accepted the service. -/
def Concrete.serving : @Server.Session Concrete.deps :=
  Concrete.serverSession (.waitingAuthRequest ⟨.all, false, none, 0⟩)

theorem Concrete.usable (data : Bytes) :
    letI := Concrete.deps
    Usable Concrete.keyPair (.ed25519 (Concrete.digest Concrete.keyPair.blob)) data
      ed25519Name [] := by
  let _ := Concrete.deps
  refine ⟨?_, rfl, rfl, by decide, rfl⟩
  intro e n secret hash h
  cases h

theorem Concrete.probing_awaits (user : Bytes) :
    letI := Concrete.deps
    Client.Awaits (Concrete.probing user) (Vector.replicate 32 0) user Concrete.keyPair := by
  let _ := Concrete.deps
  refine ⟨⟨⟨?_, ?_, fun _ => rfl⟩, ?_⟩, ⟨_, _, rfl, rfl, rfl⟩, rfl, rfl⟩
  · intro k hk
    cases hk
  · intro enc henc hrekey
    cases henc
    cases hrekey
  · have hphase : (Concrete.probing user).common.phase = .idle := rfl
    rw [hphase]
    decide

theorem Concrete.serving_awaits :
    letI := Concrete.deps
    Server.Awaits Concrete.serving (Vector.replicate 32 0) := by
  let _ := Concrete.deps
  refine ⟨⟨⟨?_, ?_, fun _ => rfl⟩, ?_⟩, ⟨_, _, rfl, rfl, rfl⟩⟩
  · intro k hk
    cases hk
  · intro enc henc hrekey
    cases henc
    cases hrekey
  · exact ⟨by decide, by decide⟩

/-- The key of `root` is proven. -/
theorem proves_root :
    letI := Concrete.deps
    Proves Concrete.handler Concrete.application (Vector.replicate 32 0) (ascii "root")
      Concrete.keyPair (Concrete.probing (ascii "root")) Concrete.serving := by
  let _ := Concrete.deps
  exact (proves_iff (by decide) (Concrete.usable _) (Concrete.probing_awaits _)
    Concrete.serving_awaits fun _ _ => ⟨rfl, rfl⟩).mpr (by decide +kernel)

/-- A user whose name has `2 ^ 32` bytes has a key that works and is accepted,
and does not prove it. -/
theorem unproven_name :
    letI := Concrete.deps
    ∃ user : Bytes, user = List.replicate (2 ^ 32) 97 ∧ utf8Valid user ∧
      Usable Concrete.keyPair (.ed25519 (Concrete.digest Concrete.keyPair.blob))
        (Client.toSign (Vector.replicate 32 0) user Concrete.keyPair.name Concrete.keyPair.pushTo)
        ed25519Name [] ∧
      Client.Awaits (Concrete.probing user) (Vector.replicate 32 0) user Concrete.keyPair ∧
      Server.Awaits Concrete.serving (Vector.replicate 32 0) ∧
      Server.Handler.AcceptsKey Concrete.handler user
        (.ed25519 (Concrete.digest Concrete.keyPair.blob)) ∧
      ¬ Proves Concrete.handler Concrete.application (Vector.replicate 32 0) user
        Concrete.keyPair (Concrete.probing user) Concrete.serving := by
  let _ := Concrete.deps
  obtain ⟨user, huser⟩ : ∃ user : Bytes, user = List.replicate (2 ^ 32) 97 := ⟨_, rfl⟩
  have hlength : user.length = 2 ^ 32 := by rw [huser, List.length_replicate]
  have hvalid : utf8Valid user := by
    rw [huser]
    exact utf8Valid_replicate (by decide) _
  refine ⟨user, huser, hvalid, Concrete.usable _, Concrete.probing_awaits user,
    Concrete.serving_awaits, fun _ _ => ⟨rfl, rfl⟩, fun hproves => ?_⟩
  have hlt := short_of_proves (Concrete.usable _) (Concrete.probing_awaits user) hproves
  rw [signedRequest, List.length_append, length_publickeyRequest] at hlt
  omega

end Thrussh
