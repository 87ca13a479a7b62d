import Thrussh.Exchanging
import Thrussh.Roles

/-!
# Malformed packets in the client's key exchange

The server's ECDH_REPLY is the packet at which the client's exchange can go
wrong: once the host key is accepted and the signature is there,
`compute_shared_secret` copies the ephemeral key into 32 bytes. Every other
packet of an exchange is served, or refused with an error.
-/

namespace Thrussh.Client

open Deps Lib

section
variable [Deps]

/-- Whether the host key of a reply is accepted: in a re-exchange it is not looked at. -/
def AcceptsKey (app : Application) (s : Session) (key : PublicKey) : Prop :=
  s.common.encrypted = none →
    (app.handler s.common.tick (.checkServerKey key)
      { s with common := { s.common with kex := none } }).fail = false ∧
    (app.handler s.common.tick (.checkServerKey key)
      { s with common := { s.common with kex := none } }).check = true

/-- An ECDH_REPLY that the exchange expects has, as far as it can be read and
its host key is accepted, an ephemeral key of 32 bytes. -/
def WellFormed (app : Application) (s : Session) (buf : Bytes) : Prop :=
  ∀ k, s.common.exchanging = some (.kexDhDone k) →
    (s.common.encrypted.isSome = true → buf.head? ≠ some msg.KEXINIT) →
    k.names.ignoreGuessed = false → buf.head? = some msg.KEX_ECDH_REPLY →
    ∀ blob r key ephemeral r₁ signature r₂, (reader buf 1).readString = .ok (blob, r) →
      readPublicKey blob = .ok key → AcceptsKey app s key →
      r.readString = .ok (ephemeral, r₁) → r₁.readString = .ok (signature, r₂) →
      ephemeral.length = 32

/-- What the client makes sure of before it waits for an ECDH_REPLY. -/
def Prepared (config : Config) : Kex → Prop
  | .kexInit k => k.exchange.serverEphemeral = []
  | .kexDhDone k => (∃ secret, k.kex.localSecret = some secret) ∧
    k.exchange.serverEphemeral = [] ∧ k.names.cipher ∈ config.preferred.cipher
  | _ => True

section
variable {s t : CommonSession Config} {config : Config} {buf : Bytes}

/-- The client's own packets of an exchange make sure of it. -/
theorem Exchanged.tracks (h : Exchanged s buf t) (hs : s.Tracks config (Prepared config)) :
    t.Tracks config (Prepared config) := by
  have hset : ∀ (u : CommonSession Config) (k : Kex), u.config = s.config → Prepared config k →
      (u.setExchanging k).Tracks config (Prepared config) := by
    intro u k hconfig hk
    constructor
    · have hkept : (u.setExchanging k).config = u.config := by
        cases henc : u.encrypted with
        | none => rw [setExchanging_none henc]
        | some enc => rw [setExchanging_some henc]
      exact hkept.trans (hconfig.trans hs.config_eq)
    · intro k' hk'
      rw [exchanging_setExchanging] at hk'
      cases hk'
      exact hk
  have hnone : t.config = s.config → t.exchanging = none → t.Tracks config (Prepared config) := by
    intro hconfig hnothing
    refine ⟨hconfig.trans hs.config_eq, fun k hk => ?_⟩
    rw [hnothing] at hk
    cases hk
  cases h with
  | skip h => exact hs
  | @answer k names hk hhead hread =>
    have hnil : k.exchange.serverEphemeral = [] := hs.record _ hk
    have hcipher := readKex_cipher hread
    rw [hs.config_eq] at hcipher
    exact hset _ _ rfl ⟨⟨_, rfl⟩, hnil, hcipher⟩
  | @guess k hk hhead hguess =>
    have hprepared : Prepared config (.kexDhDone k) := hs.record _ hk
    exact hset _ _ rfl hprepared
  | finish hk hguess hhead hchecks => exact hset _ _ rfl trivial
  | first henc hk hhead => exact hnone rfl rfl
  | install henc hrekey hhead => exact hnone rfl rfl
  | drop henc hrekey hphase hhead => exact hnone rfl rfl

end

variable {app : Application} {config : Config} {buf : Bytes} {u : Session}

/-- Along every run of the client it is made sure of, and the queue of a session
that is given a packet is blank. -/
theorem given_prepared {sshid : Bytes} {world : World} {l : Loop Session}
    (hl : connectStream config app sshid world = .ok l) (events : List (Event Msg))
    {e : Event Msg} {p : Session × Bytes}
    (hp : p ∈ Loop.given (driver app) (l.run (driver app) events) e) :
    p.1.common.Sound ∧ p.1.common.Tracks config (Prepared config) ∧ p.1.common.Blank := by
  have hbehaves := driver_behaves (P := fun _ => True) (fun _ _ => trivial) app
    fun _ _ _ _ => trivial
  have hfresh : ∀ k : KexInit, k.exchange.serverEphemeral = [] → Prepared config (.kexInit k) :=
    fun _ h => h
  obtain ⟨s₀, s, output, hid, hquiet, rfl⟩ := connectStream_readSshId hl
  have hs₀ : s₀.common.Tracks config (Prepared config) := by
    simp only [readSshId, ownWrite_ok] at hid
    cases hid
    refine ⟨rfl, fun k hk => ?_⟩
    cases hk
    rfl
  have hs : s.common.Initial ∧ s.common.Tracks config (Prepared config) := by
    clear hl hp
    induction hquiet with
    | refl => exact ⟨readSshId_initial hid, hs₀⟩
    | tail _ hstep ih =>
      have hquiet : Quiet (fun _ => True) _ _ := hstep
      exact ⟨ih.1.quiet hquiet, ih.2.pursue hfresh hquiet.pursues⟩
  have hkeeps := @Driver.Behaves.keeps_tracks _ _ _ _ _ _ _ config (Prepared config) hbehaves hfresh
    fun s buf hs htracks hin => by
      rcases reply_replied app hs hin with ⟨t, hexchanged, hreply⟩ | ⟨e, t, packets, hreply, -⟩
      · exact .inl ⟨t, hexchanged.tracks htracks, hreply⟩
      · exact .inr ⟨e, t, hreply⟩
  have hkept := Loop.run_kept hkeeps (Loop.start_kept hkeeps ⟨hs.1.sound, hs.2⟩ output) events
  have hgiven := Loop.given_kept hkeeps hkept hp
  have hblank := Loop.run_holds hbehaves (blank_invariant _)
    (Loop.start_holds hbehaves (blank_invariant _) (s := s) trivial hs.1.sound output) events
    (Loop.Along.of_forall (fun _ _ _ _ _ => trivial) _ _)
  exact ⟨hgiven.1, hgiven.2, Loop.given_holds hbehaves (blank_invariant _) hblank hp⟩

/-! ### Packets that are expected -/

/-- A KEXINIT is answered, or refused with an error. -/
theorem runClientParse_robust {k : KexInit} (h : k.algo.isSome = true ∨ k.algo = none ∧ k.sent = true)
    (buf : Bytes) (u : Session) : Fails Fault.Returned (runClientParse k buf) u := by
  intro e v hrun
  rw [runClientParse_run] at hrun
  rcases h with halgo | ⟨halgo, hsent⟩
  · rw [clientParse_known halgo] at hrun
    cases hrun
    exact Fault.returned_error _
  · rw [clientParse_sent halgo hsent] at hrun
    cases hread : readKex .client buf u.common.config.preferred with
    | error e' =>
      rw [hread] at hrun
      cases hrun
      exact readKex_errors _ _ _ e hread
    | ok names =>
      rw [hread] at hrun
      cases hrun

theorem runClientParse_encrypted {k : KexInit} {done : Thrussh.KexDhDone} {v : Session}
    (h : runClientParse k buf u = .ok done v) : v.common.encrypted = u.common.encrypted := by
  rw [runClientParse_run] at h
  split at h
  · cases h
    rfl
  · cases h

theorem readPublicKey_errors (blob : Bytes) : Errors Fault.Returned (readPublicKey blob) := by
  unfold readPublicKey
  split
  · exact .ok _
  · exact .error (Fault.returned_error _)

/-- A reply whose ephemeral key has 32 bytes is checked. -/
theorem verify_errors {k : Thrussh.KexDhDone} (hsupported : config.preferred.Supported)
    (hprepared : Prepared config (.kexDhDone k)) (key : PublicKey) (r : Position)
    (h : ∀ ephemeral r₁ signature r₂, r.readString = .ok (ephemeral, r₁) →
      r₁.readString = .ok (signature, r₂) → ephemeral.length = 32) :
    Errors Fault.Returned (KexDhDone.verify k key r) := by
  obtain ⟨⟨secret, hsecret⟩, hnil, hcipher⟩ := hprepared
  unfold KexDhDone.verify
  refine (readString_errors _).bind fun ⟨ephemeral, r₁⟩ hephemeral => ?_
  refine (readString_errors _).bind fun ⟨signature, r₂⟩ hsignature => ?_
  have hlength := h ephemeral r₁ signature r₂ hephemeral hsignature
  have hshared : ∃ kex, k.kex.computeSharedSecret (k.exchange.serverEphemeral ++ ephemeral) =
      .ok kex := by
    unfold Algorithm.computeSharedSecret
    rw [hsecret, hnil, List.nil_append]
    unfold toBytes32
    rw [dif_pos hlength]
    exact ⟨_, rfl⟩
  obtain ⟨kex, hshared⟩ := hshared
  dsimp only
  rw [hshared]
  refine (readString_errors _).bind fun ⟨_, s⟩ _ => ?_
  refine (readString_errors _).bind fun ⟨sig, _⟩ _ => ?_
  dsimp only
  split
  · exact (computeKeys_errors (k := { k with
      exchange := { k.exchange with serverEphemeral := k.exchange.serverEphemeral ++ ephemeral }
      kex := kex }) (hsupported _ hcipher) _ false).bind fun _ _ => .ok _
  · exact .error (Fault.returned_error _)

/-- An ephemeral key of any other length is a panic. -/
theorem verify_panics {k : Thrussh.KexDhDone} (hprepared : Prepared config (.kexDhDone k))
    (key : PublicKey) {r r₁ r₂ : Position} {ephemeral signature : Bytes}
    (hephemeral : r.readString = .ok (ephemeral, r₁))
    (hsignature : r₁.readString = .ok (signature, r₂)) (hlength : ephemeral.length ≠ 32) :
    KexDhDone.verify k key r = .error .panic := by
  obtain ⟨⟨secret, hsecret⟩, hnil, -⟩ := hprepared
  have hbytes : toBytes32 ephemeral = .error .panic := by
    unfold toBytes32
    rw [dif_neg hlength]
  have hshared : k.kex.computeSharedSecret (k.exchange.serverEphemeral ++ ephemeral) =
      .error .panic := by
    unfold Algorithm.computeSharedSecret
    rw [hsecret, hnil, List.nil_append, hbytes]
    rfl
  unfold KexDhDone.verify
  simp only [hephemeral, hsignature, hshared, bind, Except.bind]

/-! ### The check of a reply -/

/-- A question for the host key that returns has its answer. -/
theorem checkServerKey_ok {key : PublicKey} {check : Bool} {v : Session}
    (h : checkServerKey app key u = .ok check v) :
    (app.handler u.common.tick (.checkServerKey key) u).fail = false ∧
      (app.handler u.common.tick (.checkServerKey key) u).check = check := by
  unfold checkServerKey at h
  rw [run_bind] at h
  unfold ask at h
  dsimp only at h
  cases hfail : (app.handler u.common.tick (.checkServerKey key) u).fail with
  | true =>
    rw [hfail] at h
    cases h
  | false =>
    rw [hfail] at h
    cases h
    exact ⟨rfl, rfl⟩

theorem checkServerKey_accepts {key : PublicKey}
    (hfail : (app.handler u.common.tick (.checkServerKey key) u).fail = false)
    (hcheck : (app.handler u.common.tick (.checkServerKey key) u).check = true) :
    ∃ v, checkServerKey app key u = .ok true v := by
  unfold checkServerKey
  rw [run_bind]
  unfold ask
  dsimp only
  rw [hfail, hcheck]
  exact ⟨_, rfl⟩

theorem checkServerKey_robust (key : PublicKey) :
    Fails Fault.Returned (checkServerKey app key) u := by
  refine Fails.bind (fun _ _ h => by cases h) fun answer v _ => ?_
  split
  · exact .throw (Fault.returned_error _)
  · exact .pure _

/-- Whether the check gets to the ephemeral key: the handler is asked in the first exchange. -/
def Passes (app : Application) (rekey : Bool) (u : Session) (key : PublicKey) : Prop :=
  rekey = false → (app.handler u.common.tick (.checkServerKey key) u).fail = false ∧
    (app.handler u.common.tick (.checkServerKey key) u).check = true

theorem serverKeyCheck_robust {k : Thrussh.KexDhDone} {rekey : Bool}
    (hsupported : config.preferred.Supported) (hprepared : Prepared config (.kexDhDone k))
    (h : ∀ blob r key ephemeral r₁ signature r₂, (reader buf 1).readString = .ok (blob, r) →
      readPublicKey blob = .ok key → Passes app rekey u key →
      r.readString = .ok (ephemeral, r₁) → r₁.readString = .ok (signature, r₂) →
      ephemeral.length = 32) :
    Fails Fault.Returned (serverKeyCheck app k rekey buf) u := by
  refine .lift_bind (readString_errors _) fun ⟨blob, r⟩ hblob => ?_
  refine .lift_bind (readPublicKey_errors _) fun key hkey => ?_
  have hverify : Passes app rekey u key → ∀ v,
      Fails Fault.Returned (lift (KexDhDone.verify k key r) : M Kex) v :=
    fun hpasses v => .lift (verify_errors hsupported hprepared key r fun ephemeral r₁ signature r₂ =>
      h blob r key ephemeral r₁ signature r₂ hblob hkey hpasses)
  cases rekey with
  | true => exact hverify (fun hnot => by cases hnot) u
  | false =>
    rw [if_neg (by decide)]
    refine (checkServerKey_robust key).bind fun check v hv => ?_
    obtain ⟨hfail, hcheck⟩ := checkServerKey_ok hv
    cases check with
    | true => exact hverify (fun _ => ⟨hfail, hcheck⟩) v
    | false => exact .throw (Fault.returned_error _)

theorem serverKeyCheck_panics {k : Thrussh.KexDhDone} {rekey : Bool}
    (hprepared : Prepared config (.kexDhDone k)) {blob ephemeral signature : Bytes} {key : PublicKey}
    {r r₁ r₂ : Position} (hblob : (reader buf 1).readString = .ok (blob, r))
    (hkey : readPublicKey blob = .ok key) (hpasses : Passes app rekey u key)
    (hephemeral : r.readString = .ok (ephemeral, r₁))
    (hsignature : r₁.readString = .ok (signature, r₂)) (hlength : ephemeral.length ≠ 32) :
    ∃ v, serverKeyCheck app k rekey buf u = .error .panic v := by
  have hverify := verify_panics hprepared key hephemeral hsignature hlength
  unfold serverKeyCheck
  rw [run_bind, run_lift hblob]
  dsimp only
  rw [run_bind, run_lift hkey]
  dsimp only
  cases rekey with
  | true =>
    rw [if_pos rfl, hverify]
    exact ⟨_, rfl⟩
  | false =>
    obtain ⟨hfail, hcheck⟩ := hpasses rfl
    obtain ⟨v, hv⟩ := checkServerKey_accepts hfail hcheck
    rw [if_neg (by decide), run_bind, hv]
    dsimp only
    rw [if_pos rfl, hverify]
    exact ⟨_, rfl⟩

/-- The check leaves the encrypted part. -/
theorem serverKeyCheck_encrypted {k : Thrussh.KexDhDone} {rekey : Bool} {kex : Kex} {v : Session}
    (h : serverKeyCheck app k rekey buf u = .ok kex v) :
    v.common.encrypted = u.common.encrypted := by
  obtain ⟨t, tick, ht, ⟨newkeys, -, hrun⟩ | ⟨e, hrun⟩⟩ := serverKeyCheck_cases app k rekey buf u
  · rw [h] at hrun
    cases hrun
    rw [ht]
  · rw [h] at hrun
    cases hrun

/-! ### Sessions that are given a packet -/

/-- A flush of a session on which nothing is queued returns. -/
theorem flush_robust (h : u.common.Drained) : Fails Fault.Returned (onCommon flush) u := by
  obtain ⟨t, ht⟩ := flush_drained h
  refine .zoom fun e v hflush => ?_
  rw [ht] at hflush
  cases hflush

/-- The own NEWKEYS is sealed, and nothing else. -/
theorem sealNewkeys_robust (h : u.common.Drained) :
    Fails Fault.Returned (do
      sealPacket .newkeys [msg.NEWKEYS]
      onCommon flush) u := by
  have hseal := sealPacket_ok .newkeys (p := [msg.NEWKEYS]) (by decide) u
  refine Fails.bind (fun e v hv => ?_) fun _ v hv => ?_
  · rw [hseal] at hv
    cases hv
  · rw [hseal] at hv
    cases hv
    exact flush_robust h

/-- An exchange on a session in the clear drains with it. -/
theorem drained_of_none {v : Session} (h : v.common.encrypted = none) : v.common.Drained := by
  intro enc henc
  rw [h] at henc
  cases henc

/-- The first exchange serves an expected packet, or refuses it with an error. -/
theorem reply_first_robust (hs : u.common.Sound) (htracks : u.common.Tracks config (Prepared config))
    (hsupported : config.preferred.Supported) (hnone : u.common.encrypted = none) {kex : Kex}
    (hkex : u.common.kex = some kex) (h : WellFormed app u buf) :
    Fails Fault.Returned (reply app buf) u := by
  have hexchanging := (exchanging_none hnone).trans hkex
  have hfits := hs.fits kex hexchanging
  unfold reply
  refine .get_bind ?_
  rw [hkex]
  cases kex with
  | kexInit k =>
    refine .modify_bind ?_
    rw [hnone, Option.isNone_none, if_pos (.inr (.inr rfl))]
    refine (runClientParse_robust (.inr ⟨hfits.2, hfits.1⟩) buf _).bind fun done v hv => ?_
    refine .modify_bind ?_
    exact flush_robust (drained_of_none ((runClientParse_encrypted hv).trans hnone))
  | kexDh k => exact .pure _
  | kexDhDone k =>
    refine .modify_bind ?_
    by_cases hguess : k.names.ignoreGuessed = true
    · rw [if_pos hguess]
      exact .modify _
    rw [if_neg hguess]
    split
    · next hhead =>
      have hexpected := h k hexchanging (by simp [hnone]) (by simpa using hguess) hhead
      refine Fails.bind (serverKeyCheck_robust hsupported (htracks.record _ hexchanging) ?_)
        fun kex v hv => ?_
      · intro blob r key ephemeral r₁ signature r₂ hblob hkey hpasses
        exact hexpected blob r key ephemeral r₁ signature r₂ hblob hkey fun _ => hpasses rfl
      · refine .modify_bind ?_
        exact sealNewkeys_robust (drained_of_none ((serverKeyCheck_encrypted hv).trans hnone))
    · exact .throw (Fault.returned_error _)
  | newKeys k =>
    refine .modify_bind ?_
    split
    · refine .get_bind ?_
      refine Fails.bind (fun _ _ h => by cases h) fun _ v _ => ?_
      refine .modify_bind ?_
      split
      · intro e w hw
        rw [sealPacket_ok .service (p := serviceRequest) (by decide)] at hw
        cases hw
      · exact .pure _
    · exact .throw (Fault.returned_error _)

/-- A re-exchange that the peer begins. -/
theorem receivedRekey_robust (enc : Encrypted) (buf : Bytes) (u : Session) :
    Fails Fault.Returned (match enc.exchange with
      | some exchange => do
        modifyEnc fun enc => { enc with exchange := none }
        let algo ← lift (readKex .client buf (← get).common.config.preferred)
        let kexdhdone ← runClientParse (KexInit.receivedRekey exchange algo enc.sessionId) buf
        setRekey (.kexDhDone kexdhdone)
      | none => pure () : M Unit) u := by
  cases enc.exchange with
  | some exchange =>
    refine .modify_bind ?_
    refine .get_bind ?_
    refine .lift_bind (readKex_errors _ _ _) fun algo _ => ?_
    exact (runClientParse_robust (.inl rfl) buf _).bind fun _ _ _ => .modify _
  | none => exact .pure _

theorem clientReadKexInit_robust (hs : u.common.Sound) {enc : Encrypted}
    (henc : u.common.encrypted = some enc) (hdrained : u.common.Drained) (buf : Bytes) :
    Fails Fault.Returned (clientReadKexInit buf) u := by
  unfold clientReadKexInit
  refine Fails.bind (fun e t h => ?_) fun enc' v hv => ?_
  · simp only [getEnc, run_bind, run_get, henc, run_pure] at h
    cases h
  simp only [getEnc, run_bind, run_get, henc, run_pure] at hv
  cases hv
  refine .modify_bind ?_
  cases hrekey : enc.rekey with
  | none => exact receivedRekey_robust enc buf _
  | some kex =>
    cases kex with
    | kexInit k =>
      have hfits := hs.fits (.kexInit k) ((exchanging_some henc).trans hrekey)
      refine (runClientParse_robust (.inr ⟨hfits.2, hfits.1⟩) buf _).bind fun done v hv => ?_
      refine .modify_bind ?_
      refine flush_robust fun enc' henc' => ?_
      have hleft := runClientParse_encrypted hv
      simp only [CommonSession.modifyEnc, hleft, henc, Option.map_some, Option.some.injEq] at henc'
      rw [← henc']
      exact hdrained enc henc
    | kexDh k => exact receivedRekey_robust enc buf _
    | kexDhDone k => exact receivedRekey_robust enc buf _
    | newKeys k => exact receivedRekey_robust enc buf _

theorem clientReadRekey_robust (htracks : u.common.Tracks config (Prepared config))
    (hsupported : config.preferred.Supported) {enc : Encrypted}
    (henc : u.common.encrypted = some enc) (hdrained : u.common.Drained)
    (hhead : buf.head? ≠ some msg.KEXINIT) {k : Thrussh.KexDhDone}
    (hrekey : enc.rekey = some (.kexDhDone k)) (h : WellFormed app u buf) :
    Fails Fault.Returned (clientReadRekey app k buf) u := by
  have hexchanging := (exchanging_some henc).trans hrekey
  refine .modify_bind ?_
  by_cases hguess : k.names.ignoreGuessed = true
  · rw [if_pos hguess]
    exact .modify _
  rw [if_neg hguess]
  split
  · next hreply =>
    have hexpected := h k hexchanging (fun _ => hhead) (by simpa using hguess) hreply
    refine Fails.bind (serverKeyCheck_robust hsupported (htracks.record _ hexchanging) ?_)
      fun kex v hv => ?_
    · intro blob r key ephemeral r₁ signature r₂ hblob hkey _
      refine hexpected blob r key ephemeral r₁ signature r₂ hblob hkey fun hnone => ?_
      rw [henc] at hnone
      cases hnone
    · refine .modify_bind ?_
      refine sealNewkeys_robust fun enc' henc' => ?_
      have hleft := serverKeyCheck_encrypted hv
      simp only [CommonSession.modifyEnc, hleft, henc, Option.map_some, Option.some.injEq] at henc'
      rw [← henc']
      exact hdrained enc henc
  · exact .throw (Fault.returned_error _)

/-- An expected packet of an exchange in progress is served, or refused with an error. -/
theorem reply_robust (hs : u.common.Sound) (htracks : u.common.Tracks config (Prepared config))
    (hdrained : u.common.Drained) (hsupported : config.preferred.Supported) {kex : Kex}
    (hexchanging : u.common.exchanging = some kex) (hin : u.common.InExchange buf)
    (h : WellFormed app u buf) : Fails Fault.Returned (reply app buf) u := by
  cases henc : u.common.encrypted with
  | none =>
    have hkex := (exchanging_none henc).symm.trans hexchanging
    exact reply_first_robust hs htracks hsupported henc hkex h
  | some enc =>
    have hrekey := (exchanging_some henc).symm.trans hexchanging
    have hfits := hs.fits kex hexchanging
    unfold reply
    refine .get_bind ?_
    rw [hs.first (by rw [henc]; rfl)]
    unfold clientReadEncrypted
    by_cases hhead : buf.head? = some msg.KEXINIT
    · rw [if_pos hhead]
      exact clientReadKexInit_robust hs henc hdrained buf
    rw [if_neg hhead]
    refine .get_bind ?_
    rw [henc]
    dsimp only
    rw [hrekey]
    cases kex with
    | kexInit k =>
      have hlate : u.common.phase = .dh ∨ u.common.phase = .newKeys := by
        simpa only [CommonSession.InExchange, henc, reduceCtorEq, hhead, false_or] using hin
      rw [phase_of_exchanging hexchanging] at hlate
      simp [Kex.phase] at hlate
    | kexDh k => exact hfits.elim
    | kexDhDone k =>
      exact clientReadRekey_robust htracks hsupported henc hdrained hhead hrekey h
    | newKeys k =>
      refine .modify_bind ?_
      split
      · refine .modify_bind ?_
        refine Fails.bind (fun _ _ h => by cases h) fun _ v _ => ?_
        exact .modify_bind (.modify _)
      · exact .throw (Fault.returned_error _)

/-- An ephemeral key of another length is a panic. -/
theorem reply_panics (hs : u.common.Sound) (htracks : u.common.Tracks config (Prepared config))
    (h : ¬ WellFormed app u buf) : ∃ v, reply app buf u = .error .panic v := by
  unfold WellFormed at h
  simp only [not_forall] at h
  obtain ⟨k, hexchanging, hhead, hguess, hreply, blob, r, key, ephemeral, r₁, signature, r₂, hblob,
    hkey, haccepts, hephemeral, hsignature, hlength⟩ := h
  have hprepared := htracks.record _ hexchanging
  have hnot : ¬ k.names.ignoreGuessed = true := by simp [hguess]
  cases henc : u.common.encrypted with
  | none =>
    have hkex := (exchanging_none henc).symm.trans hexchanging
    have hpasses : Passes app false { u with common := { u.common with kex := none } } key :=
      fun _ => haccepts henc
    obtain ⟨v, hv⟩ := serverKeyCheck_panics hprepared hblob hkey hpasses hephemeral hsignature
      hlength
    simp only [reply, run_bind, run_get, hkex, takeKex, run_modify, if_neg hnot, if_pos hreply, hv]
    exact ⟨v, rfl⟩
  | some enc =>
    have hrekey := (exchanging_some henc).symm.trans hexchanging
    have hother : ¬ buf.head? = some msg.KEXINIT := hhead (by rw [henc]; rfl)
    have hpasses : Passes app true
        { u with common := u.common.modifyEnc fun enc => { enc with rekey := none } } key :=
      fun hfalse => by cases hfalse
    obtain ⟨v, hv⟩ := serverKeyCheck_panics hprepared hblob hkey hpasses hephemeral hsignature
      hlength
    simp only [reply, run_bind, run_get, hs.first (by rw [henc]; rfl), clientReadEncrypted,
      if_neg hother, henc, hrekey, clientReadRekey, takeRekey, modifyEnc, run_modify, if_neg hnot,
      if_pos hreply, hv]
    exact ⟨v, rfl⟩

end

end Thrussh.Client
