import Thrussh.Exchanging
import Thrussh.Roles
import Thrussh.Server.Keys

/-!
# Malformed packets in the server's key exchange

The client's ECDH_INIT is the packet at which the server's exchange can go
wrong: `KexDh::parse` asserts that it is one, and `server_dh` copies the
ephemeral key it carries into 32 bytes. Every other packet of an exchange is
served, or refused with an error.
-/

namespace Thrussh.Server

open Deps Lib

section
variable [Deps]

/-- The packet that the exchange expects after the KEXINITs is an ECDH_INIT
and, as far as its ephemeral key can be read, one of 32 bytes. A guess that
is ignored may be anything. -/
def WellFormed (s : CommonSession Config) (buf : Bytes) : Prop :=
  ∀ k, s.exchanging = some (.kexDh k) →
    (s.encrypted.isSome = true → buf.head? ≠ some msg.KEXINIT) → k.names.ignoreGuessed = false →
    buf.head? = some msg.KEX_ECDH_INIT ∧
      ∀ ephemeral r, (reader buf 1).readString = .ok (ephemeral, r) → ephemeral.length = 32

/-- The host keys and their signatures leave room for a KEX_ECDH_REPLY in a packet. -/
def Config.RepliesFit (config : Config) : Prop :=
  ∀ key ∈ config.keys, ∀ hash signature, addSignature key hash = .ok signature →
    key.pushTo.length + signature.length < 2 ^ 31

/-- What the server makes sure of before it waits for an ECDH_INIT. -/
def Prepared (config : Config) : Kex → Prop
  | .kexDh k => (∃ key, config.keys[k.key]? = some key) ∧ k.names.cipher ∈ config.preferred.cipher
  | _ => True

variable {s t : CommonSession Config} {config : Config} {buf : Bytes} {handler : Handler}

/-- The server's own packets of an exchange make sure of it. -/
theorem Exchanged.tracks (h : Exchanged s buf t) (hs : s.Tracks config (Prepared config)) :
    t.Tracks config (Prepared config) := by
  have hset : ∀ (u : CommonSession Config) (k : Kex), u.config = s.config → Prepared config k →
      (u.setExchanging k).Tracks config (Prepared config) := by
    intro u k hconfig hk
    constructor
    · have hkept : (u.setExchanging k).config = u.config := by
        cases henc : u.encrypted with
        | none => rw [setExchanging_none henc]
        | some enc => rw [setExchanging_some henc]
      exact hkept.trans (hconfig.trans hs.config_eq)
    · intro k' hk'
      rw [exchanging_setExchanging] at hk'
      cases hk'
      exact hk
  have hnone : t.config = s.config → t.exchanging = none → t.Tracks config (Prepared config) := by
    intro hconfig hnothing
    refine ⟨hconfig.trans hs.config_eq, fun k hk => ?_⟩
    rw [hnothing] at hk
    cases hk
  have hprepared : ∀ {names : Names} {key : Nat}, readKex .server buf s.config.preferred = .ok names →
      findKey s.config.keys names.key = some key →
      (∃ found, config.keys[key]? = some found) ∧ names.cipher ∈ config.preferred.cipher := by
    intro names key hread hkey
    have hcipher := readKex_cipher hread
    obtain ⟨found, hfound, -⟩ := findKey_some hkey
    rw [hs.config_eq] at hfound hcipher
    exact ⟨⟨found, hfound⟩, hcipher⟩
  cases h with
  | skip h => exact hs
  | answer hk hhead hread hkey => exact hset _ _ rfl (hprepared hread hkey)
  | serve henc hrekey hex hhead hread hkey =>
    refine ⟨hs.config_eq, fun k hk => ?_⟩
    cases hk
    exact hprepared hread hkey
  | @guess k hk hhead hguess =>
    have hprepared : Prepared config (.kexDh k) := hs.record _ hk
    exact hset _ _ rfl hprepared
  | finish hk hreplies => exact hset _ _ rfl trivial
  | first henc hk hhead => exact hnone rfl rfl
  | install henc hrekey hhead => exact hnone rfl rfl
  | drop henc hrekey hphase hhead => exact hnone rfl rfl

/-- Along every run of the server it is made sure of, and the queue of a session
that is given a packet is blank. -/
theorem given_prepared {sshid : Bytes} {world : World} {l : Loop Session}
    (hl : runStream config handler sshid world = .ok l) (events : List (Event (UInt32 × ChannelMsg)))
    {e : Event (UInt32 × ChannelMsg)} {p : Session × Bytes}
    (hp : p ∈ Loop.given (driver handler) (l.run (driver handler) events) e) :
    p.1.common.Sound ∧ p.1.common.Tracks config (Prepared config) ∧ p.1.common.Blank := by
  have hbehaves := driver_behaves (P := fun _ => True) (fun _ _ => trivial) handler
  obtain ⟨s₀, output, hid, rfl⟩ := runStream_readSshId hl
  have hs₀ := readSshId_initial hid
  have htracks : s₀.common.Tracks config (Prepared config) := by
    simp only [readSshId, ownWrite_ok] at hid
    cases hid
    refine ⟨rfl, fun k hk => ?_⟩
    cases hk
    trivial
  have hkeeps := @Driver.Behaves.keeps_tracks _ _ _ _ _ _ _ config (Prepared config) hbehaves
    (fun _ _ => trivial) fun s buf hs htracks hin => by
      rcases reply_replied handler hs hin with ⟨t, hexchanged, hreply⟩ | ⟨e, t, packets, hreply, -⟩
      · exact .inl ⟨{ s with common := t }, hexchanged.tracks htracks, hreply⟩
      · exact .inr ⟨e, _, hreply⟩
  have hkept := Loop.run_kept hkeeps (Loop.start_kept hkeeps ⟨hs₀.sound, htracks⟩ output) events
  have hgiven := Loop.given_kept hkeeps hkept hp
  have hblank := Loop.run_holds hbehaves (blank_invariant _)
    (Loop.start_holds hbehaves (blank_invariant _) (s := s₀) trivial hs₀.sound output) events
    (Loop.Along.of_forall (fun _ _ _ _ _ => trivial) _ _)
  exact ⟨hgiven.1, hgiven.2, Loop.given_holds hbehaves (blank_invariant _) hblank hp⟩

/-! ### Packets that are expected -/

omit [Deps] in
/-- The ephemeral key of a packet, as `server_dh` finds it. -/
theorem readString_first {x : Bytes} {r : Position} (h : (reader buf 1).readString = .ok (x, r)) :
    ∃ n, headBe32 (buf.drop 1) = some n ∧ 5 + n.toNat ≤ buf.length ∧
      (buf.drop 5).take n.toNat = x := by
  unfold Position.readString at h
  obtain ⟨⟨n, r'⟩, hn, h⟩ := ok_of_bind h
  unfold Position.readU32 reader at hn
  dsimp only at hn
  cases hhead : headBe32 (buf.drop 1) with
  | none =>
    rw [hhead] at hn
    cases hn
  | some n' =>
    rw [hhead] at hn
    cases hn
    dsimp only at h
    by_cases hle : 1 + 4 + n.toNat ≤ buf.length
    · rw [if_pos hle] at h
      cases h
      exact ⟨n, rfl, by omega, rfl⟩
    · rw [if_neg hle] at h
      cases h

/-- `server_dh` of an ECDH_INIT panics unless the ephemeral key has 32 bytes. -/
theorem serverDh_eq (ex : Exchange) (secret : Bytes32)
    (hhead : buf.head? = some msg.KEX_ECDH_INIT) {x : Bytes} {r : Position}
    (hx : (reader buf 1).readString = .ok (x, r)) :
    Algorithm.serverDh ex buf secret = (toBytes32 x).map fun clientPubkey =>
      (⟨none, some (scalarmult secret clientPubkey)⟩,
        { ex with serverEphemeral := (scalarmultBase secret).toList }) := by
  obtain ⟨n, hn, hle, htake⟩ := readString_first hx
  unfold Algorithm.serverDh
  rw [if_pos hhead, hn]
  dsimp only
  rw [if_pos hle, htake]
  cases toBytes32 x <;> rfl

omit [Deps] in
/-- A host key is found, or the exchange is refused. -/
theorem findKey_robust (k : KexInit) (config : Config) (algo : Names) (b : SSHBuffer) :
    Fails Fault.Returned (match findKey config.keys algo.key with
      | some key => pure (.kexDh ⟨k.exchange, algo, key, k.sessionId⟩)
      | none => throw (.error .unknownKey) : EStateM Fault SSHBuffer Kex) b := by
  cases findKey config.keys algo.key with
  | some key => exact .pure _
  | none => exact .throw (Fault.returned_error _)

theorem serverParse_robust (k : KexInit) (config : Config) (cipher : CipherPair) (buf : Bytes)
    (cookie : Vector UInt8 16) (b : SSHBuffer) :
    Fails Fault.Returned (k.serverParse config cipher buf cookie) b := by
  unfold KexInit.serverParse
  split
  · refine .lift_bind (readKex_errors _ _ _) fun algo _ => ?_
    dsimp only
    split
    · exact findKey_robust _ config algo b
    · refine Fails.bind (fun e t h => ?_) fun k b _ => findKey_robust k config algo b
      rw [ownWrite_ok] at h
      cases h
  · exact .pure _

/-- An expected packet is answered. -/
theorem kexDhParse_robust {k : KexDh} (hsupported : config.preferred.Supported)
    (hreplies : config.RepliesFit) (hprepared : Prepared config (.kexDh k)) (cipher : CipherPair)
    (secret : Bytes32) (b : SSHBuffer)
    (h : k.names.ignoreGuessed = false → buf.head? = some msg.KEX_ECDH_INIT ∧
      ∀ ephemeral r, (reader buf 1).readString = .ok (ephemeral, r) → ephemeral.length = 32) :
    Fails Fault.Returned (k.parse config cipher buf secret) b := by
  obtain ⟨⟨key, hkey⟩, hcipher⟩ := hprepared
  unfold KexDh.parse
  by_cases hguess : k.names.ignoreGuessed = true
  · rw [if_pos hguess]
    exact .pure _
  rw [if_neg hguess]
  obtain ⟨hhead, hlength⟩ := h (by simpa using hguess)
  rw [if_pos hhead]
  refine .lift_bind (readString_errors _) fun ⟨ephemeral, r⟩ hephemeral => ?_
  have hbytes : ∃ v, toBytes32 ephemeral = .ok v := by
    unfold toBytes32
    rw [dif_pos (hlength ephemeral r hephemeral)]
    exact ⟨_, rfl⟩
  obtain ⟨v, hbytes⟩ := hbytes
  refine .lift_bind ?_ fun ⟨kex, exchange⟩ hdh => ?_
  · rw [serverDh_eq _ secret hhead hephemeral, hbytes]
    exact .ok _
  have hexchange : exchange.serverEphemeral = (scalarmultBase secret).toList := by
    rw [serverDh_eq _ secret hhead hephemeral, hbytes] at hdh
    cases hdh
    rfl
  dsimp only
  rw [hkey]
  dsimp only
  have hmem : key ∈ config.keys := List.mem_of_getElem? hkey
  refine .lift_bind ?_ fun reply hreply => ?_
  · unfold ecdhReply
    split
    · exact .ok _
    · exact .error (Fault.returned_error _)
  have hlt : reply.length < 2 ^ 32 - 17 := by
    unfold ecdhReply at hreply
    split at hreply
    · next signature hsignature =>
      cases hreply
      have hfit := hreplies key hmem _ signature hsignature
      simp only [List.cons_append, List.length_cons, List.length_append, length_sshString,
        hexchange, Vector.length_toList]
      omega
    · cases hreply
  refine Fails.bind (fun e t ht => ?_) fun _ b' _ => ?_
  · rw [write_ok cipher .ecdhReply b hlt] at ht
    cases ht
  refine Fails.bind (fun e t ht => ?_) fun _ b' _ => ?_
  · rw [write_ok cipher .newkeys b' (by decide)] at ht
    cases ht
  exact .lift_bind (computeKeys_errors (hsupported _ hcipher) _ true) fun _ _ => .pure _

/-- Any other packet makes the assertion fail, or the copy of the ephemeral key. -/
theorem kexDhParse_panics {k : KexDh} (config : Config) (cipher : CipherPair) (secret : Bytes32)
    (b : SSHBuffer) (hguess : k.names.ignoreGuessed = false)
    (h : ¬ (buf.head? = some msg.KEX_ECDH_INIT ∧
      ∀ ephemeral r, (reader buf 1).readString = .ok (ephemeral, r) → ephemeral.length = 32)) :
    k.parse config cipher buf secret b = .error .panic b := by
  have hnot : ¬ k.names.ignoreGuessed = true := by simp [hguess]
  unfold KexDh.parse
  rw [if_neg hnot]
  by_cases hhead : buf.head? = some msg.KEX_ECDH_INIT
  · have hlength : ∃ ephemeral r, (reader buf 1).readString = .ok (ephemeral, r) ∧
        ephemeral.length ≠ 32 := by
      by_contra hnone
      refine h ⟨hhead, fun ephemeral r hread => ?_⟩
      by_contra hne
      exact hnone ⟨ephemeral, r, hread, hne⟩
    obtain ⟨ephemeral, r, hephemeral, hne⟩ := hlength
    have hbytes : toBytes32 ephemeral = .error .panic := by
      unfold toBytes32
      rw [dif_neg hne]
    rw [if_pos hhead, run_bind, run_lift hephemeral]
    dsimp only
    rw [run_bind, serverDh_eq _ secret hhead hephemeral, hbytes]
    rfl
  · rw [if_neg hhead]
    rfl

/-! ### Sessions that are given a packet -/

variable {u : Session}

theorem runServerParse_robust (k : KexInit) (buf : Bytes) (u : Session) :
    Fails Fault.Returned (runServerParse k buf) u := by
  refine .get_bind ?_
  refine Fails.bind (fun _ _ h => by cases h) fun r v _ => ?_
  exact .zoom (.zoom (serverParse_robust k _ _ buf _ _))

/-- An expected packet is answered by the session. -/
theorem runKexDhParse_robust {k : KexDh} (hconfig : u.common.config = config)
    (hsupported : config.preferred.Supported) (hreplies : config.RepliesFit)
    (hprepared : Prepared config (.kexDh k))
    (h : k.names.ignoreGuessed = false → buf.head? = some msg.KEX_ECDH_INIT ∧
      ∀ ephemeral r, (reader buf 1).readString = .ok (ephemeral, r) → ephemeral.length = 32) :
    Fails Fault.Returned (runKexDhParse k buf) u := by
  refine .get_bind ?_
  refine Fails.bind (fun _ _ h => by cases h) fun r v _ => ?_
  rw [hconfig]
  exact .zoom (.zoom (kexDhParse_robust hsupported hreplies hprepared _ _ _ h))

/-- Making the parser ready leaves the encrypted part. -/
theorem runServerParse_encrypted {k : KexInit} {kex : Kex} {v : Session}
    (h : runServerParse k buf u = .ok kex v) : v.common.encrypted = u.common.encrypted := by
  rw [runServerParse_run] at h
  split at h
  · cases h
    rfl
  · cases h

/-- A flush of a session on which nothing is queued returns. -/
theorem flush_robust (h : u.common.Drained) : Fails Fault.Returned (onCommon flush) u := by
  obtain ⟨t, ht⟩ := flush_drained h
  refine .zoom fun e v hflush => ?_
  rw [ht] at hflush
  cases hflush

theorem replyKex_robust (htracks : u.common.Tracks config (Prepared config))
    (hsupported : config.preferred.Supported) (hreplies : config.RepliesFit)
    (hnone : u.common.encrypted = none) (h : WellFormed u.common buf) :
    Fails Fault.Returned (replyKex buf) u := by
  have hexchanging := exchanging_none hnone
  unfold replyKex
  refine .get_bind ?_
  cases hkex : u.common.kex with
  | none => exact .pure _
  | some kex =>
    rw [hkex] at hexchanging
    cases kex with
    | kexInit k =>
      dsimp only
      split
      · refine .modify_bind ?_
        exact (runServerParse_robust k buf _).bind fun _ _ _ => .modify _
      · exact .pure _
    | kexDh k =>
      have hexpected := h k hexchanging (by simp [hnone])
      refine .modify_bind ?_
      refine Fails.bind (runKexDhParse_robust ?_ hsupported hreplies
        (htracks.record _ hexchanging) hexpected) fun _ _ _ => .modify _
      exact htracks.config_eq
    | kexDhDone k => exact .pure _
    | newKeys k =>
      refine .modify_bind ?_
      dsimp only
      split
      · exact Fails.bind (fun _ _ h => by cases h) fun _ _ _ => .modify _
      · exact .throw (Fault.returned_error _)

/-- A re-exchange that the peer begins. -/
theorem receivedRekey_robust (enc : Encrypted) (buf : Bytes) (u : Session) :
    Fails Fault.Returned (match enc.exchange with
      | some exchange => do
        modifyEnc fun enc => { enc with exchange := none }
        let algo ← lift (readKex .server buf (← get).common.config.preferred)
        let kex ← runServerParse (KexInit.receivedRekey exchange algo enc.sessionId) buf
        setRekey kex
      | none => pure () : M Unit) u := by
  cases enc.exchange with
  | some exchange =>
    refine .modify_bind ?_
    refine .get_bind ?_
    refine .lift_bind (readKex_errors _ _ _) fun algo _ => ?_
    exact (runServerParse_robust _ buf _).bind fun _ _ _ => .modify _
  | none => exact .pure _

theorem serverReadKexInit_robust {enc : Encrypted} (henc : u.common.encrypted = some enc)
    (hdrained : u.common.Drained) (buf : Bytes) :
    Fails Fault.Returned (serverReadKexInit buf) u := by
  unfold serverReadKexInit
  refine Fails.bind (fun e t h => ?_) fun enc' v hv => ?_
  · simp only [getEnc, run_bind, run_get, henc, run_pure] at h
    cases h
  simp only [getEnc, run_bind, run_get, henc, run_pure] at hv
  cases hv
  refine .modify_bind ?_
  cases hrekey : enc.rekey with
  | none => exact receivedRekey_robust enc buf _
  | some kex =>
    cases kex with
    | kexInit k =>
      refine (runServerParse_robust k buf _).bind fun kex v hv => ?_
      refine .modify_bind ?_
      refine flush_robust fun enc' henc' => ?_
      have hleft := runServerParse_encrypted hv
      simp only [CommonSession.modifyEnc, hleft, henc, Option.map_some, Option.some.injEq] at henc'
      rw [← henc']
      exact hdrained enc henc
    | kexDh k => exact receivedRekey_robust enc buf _
    | kexDhDone k => exact receivedRekey_robust enc buf _
    | newKeys k => exact receivedRekey_robust enc buf _

/-- An expected packet of an exchange is served, or refused with an error. -/
theorem reply_robust (hs : u.common.Sound) (htracks : u.common.Tracks config (Prepared config))
    (hdrained : u.common.Drained) (hsupported : config.preferred.Supported)
    (hreplies : config.RepliesFit) (hin : u.common.InExchange buf)
    (h : WellFormed u.common buf) : Fails Fault.Returned (reply handler buf) u := by
  unfold reply
  refine .get_bind ?_
  cases henc : u.common.encrypted with
  | none => exact replyKex_robust htracks hsupported hreplies henc h
  | some enc =>
    have hexchanging := exchanging_some henc
    rw [Option.isNone_some, if_neg (by decide)]
    unfold serverReadEncrypted
    refine Fails.bind (fun e t h => ?_) fun enc' v hv => ?_
    · simp only [getEnc, run_bind, run_get, henc, run_pure] at h
      cases h
    simp only [getEnc, run_bind, run_get, henc, run_pure] at hv
    cases hv
    by_cases hhead : buf.head? = some msg.KEXINIT
    · rw [if_pos hhead]
      exact serverReadKexInit_robust henc hdrained buf
    rw [if_neg hhead]
    cases hrekey : enc.rekey with
    | none =>
      have hlate : u.common.phase = .dh ∨ u.common.phase = .newKeys := by
        simpa only [CommonSession.InExchange, henc, reduceCtorEq, hhead, false_or] using hin
      simp only [CommonSession.phase, henc, Encrypted.phase, hrekey] at hlate
      split at hlate <;> simp at hlate
    | some kex =>
      rw [hrekey] at hexchanging
      cases kex with
      | kexInit k =>
        have hlate : u.common.phase = .dh ∨ u.common.phase = .newKeys := by
          simpa only [CommonSession.InExchange, henc, reduceCtorEq, hhead, false_or] using hin
        rw [phase_of_exchanging hexchanging] at hlate
        simp [Kex.phase] at hlate
      | kexDh k =>
        have hexpected := h k hexchanging fun _ => hhead
        refine .modify_bind ?_
        refine Fails.bind (runKexDhParse_robust ?_ hsupported hreplies
          (htracks.record _ hexchanging) hexpected) fun _ _ _ => .modify _
        exact htracks.config_eq
      | kexDhDone k => exact (hs.fits _ hexchanging).elim
      | newKeys k =>
        refine .modify_bind ?_
        split
        · exact .modify _
        · exact .throw (Fault.returned_error _)

/-- Any other packet is a panic. -/
theorem reply_panics (h : ¬ WellFormed u.common buf) :
    ∃ v, reply handler buf u = .error .panic v := by
  unfold WellFormed at h
  simp only [not_forall] at h
  obtain ⟨k, hexchanging, hhead, hguess, hnot⟩ := h
  unfold reply
  rw [run_bind, run_get]
  dsimp only
  cases henc : u.common.encrypted with
  | none =>
    have hkex : u.common.kex = some (.kexDh k) := (exchanging_none henc).symm.trans hexchanging
    rw [Option.isNone_none, if_pos rfl]
    simp only [replyKex, run_bind, run_get, hkex, takeKex, run_modify, runKexDhParse_run,
      kexDhParse_panics _ _ _ _ hguess hnot]
    exact ⟨_, rfl⟩
  | some enc =>
    have hrekey : enc.rekey = some (.kexDh k) := (exchanging_some henc).symm.trans hexchanging
    have hother : ¬ buf.head? = some msg.KEXINIT := hhead (by rw [henc]; rfl)
    rw [Option.isNone_some, if_neg (by decide)]
    simp only [serverReadEncrypted, run_bind, getEnc, run_get, henc, run_pure, if_neg hother,
      hrekey, takeRekey, modifyEnc, run_modify, runKexDhParse_run,
      kexDhParse_panics _ _ _ _ hguess hnot]
    exact ⟨_, rfl⟩

end

end Thrussh.Server
