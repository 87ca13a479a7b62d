import Thrussh.Hearing
import Thrussh.Rearmed

/-!
# The client's side of an exchange

What the client has sent and heard when it answers the server's KEXINIT, and
when it has computed the keys. Its steps of an exchange with packets that are
expected move it from place to place.
-/

namespace Thrussh.Client

open Deps Lib

variable [Deps]

/-- The client's record between both KEXINITs and its NEWKEYS. -/
def gathered (config : Config) (serverId : Bytes) (id : Option Bytes32)
    (clientKexInit serverKexInit : Bytes) (secret : Bytes32) (names : Names) :
    Thrussh.KexDhDone where
  exchange := { Exchange.new with
    clientId := config.clientId, serverId, clientKexInit, serverKexInit
    clientEphemeral := (scalarmultBase secret).toList }
  kex := ⟨some secret, none⟩
  key := 0
  sessionId := id
  names := names

/-- An exchange with the server. -/
def script (config : Config) (serverId : Bytes) (peerPref : Preferred) : Script Config where
  config := config
  clientId := config.clientId
  serverId := serverId
  peerPref := peerPref
  dh id own peer k := ∃ clientKexInit serverKexInit secret names,
    own = [clientKexInit, ecdhInit secret] ∧ peer = [serverKexInit] ∧
    Settles .client config.preferred serverKexInit names ∧
    k = .kexDhDone (gathered config serverId id clientKexInit serverKexInit secret names)
  deals id round := ∃ secret names, round.own.2 = ecdhInit secret ∧
    Settles .client config.preferred round.peer.1 names ∧
    KexDhDone.Checks (gathered config serverId id round.own.1 round.peer.1 secret names)
      round.peer.2 round.keys

/-- How the client computes the keys. -/
structure KexDhDone.Computes (k : Thrussh.KexDhDone) (buf : Bytes) (newkeys : NewKeys)
    (blob ephemeral : Bytes) (pubkey : PublicKey) (kex : Algorithm) : Prop where
  /-- The host key and the server's ephemeral key are read from the packet. -/
  reads : ∃ r r', (reader buf 1).readString = .ok (blob, r) ∧ r.readString = .ok (ephemeral, r')
  /-- The host key is parsed. -/
  parses : parsePublicKey blob = .ok pubkey
  /-- The shared secret. -/
  shares : k.kex.computeSharedSecret (k.exchange.serverEphemeral ++ ephemeral) = .ok kex
  /-- The names are those of the negotiation. -/
  names : newkeys.names = k.names
  /-- The keys follow from the hash. -/
  derives : Derives ⟨kex, { k.exchange with
    serverEphemeral := k.exchange.serverEphemeral ++ ephemeral }, pubkey.pushTo⟩ k.sessionId false
    newkeys

/-- A reply that passes the checks gives such keys. -/
theorem KexDhDone.Checks.computes {k : Thrussh.KexDhDone} {buf : Bytes} {newkeys : NewKeys}
    (h : KexDhDone.Checks k buf newkeys) : ∃ blob ephemeral pubkey kex,
      KexDhDone.Computes k buf newkeys blob ephemeral pubkey kex := by
  obtain ⟨blob, r, pubkey, hblob, hkey, hverify⟩ : ∃ blob r pubkey,
      (reader buf 1).readString = .ok (blob, r) ∧ readPublicKey blob = .ok pubkey ∧
      KexDhDone.verify k pubkey r = .ok (.newKeys newkeys) := by
    cases h with
    | mk hblob hkey hverify => exact ⟨_, _, _, hblob, hkey, hverify⟩
  have hparses : parsePublicKey blob = .ok pubkey := by
    unfold readPublicKey at hkey
    split at hkey
    · next hparse =>
      cases hkey
      exact hparse
    · cases hkey
  unfold KexDhDone.verify at hverify
  obtain ⟨⟨ephemeral, r₂⟩, hephemeral, hverify⟩ := ok_of_bind hverify
  obtain ⟨⟨signature, r₃⟩, -, hverify⟩ := ok_of_bind hverify
  obtain ⟨kex, hshared, hverify⟩ := ok_of_bind hverify
  obtain ⟨⟨algorithm, r₄⟩, -, hverify⟩ := ok_of_bind hverify
  obtain ⟨⟨sig, r₅⟩, -, hverify⟩ := ok_of_bind hverify
  dsimp only at hverify hshared
  split at hverify
  · obtain ⟨newkeys', hnewkeys, hverify⟩ := ok_of_bind hverify
    cases hverify
    unfold KexDhDone.computeKeys at hnewkeys
    obtain ⟨c, hc, hnewkeys⟩ := ok_of_bind hnewkeys
    cases hnewkeys
    exact ⟨blob, ephemeral, pubkey, kex, ⟨r, r₂, hblob, hephemeral⟩, hparses, hshared, rfl,
      rfl, rfl, hc⟩
  · cases hverify

section
variable {config : Config} {serverId : Bytes} {peerPref : Preferred} {v : Progress}
  {before buf : Bytes} {s t : CommonSession Config}

/-- The server's KEXINIT is answered. -/
theorem answer_standing (h : Standing (script config serverId peerPref) v before s)
    (hchoice : Uncompressing .client config.preferred peerPref)
    (hexpects : (script config serverId peerPref).Expects v buf) {k : KexInit} {names : Names}
    (hk : s.exchanging = some (.kexInit k))
    (hhead : s.encrypted.isSome → buf.head? = some msg.KEXINIT)
    (hread : readKex .client buf s.config.preferred = .ok names) (secret : Bytes32) :
    Standing (script config serverId peerPref) ⟨v.past, v.own ++ [ecdhInit secret], v.peer ++ [buf]⟩
      before ({ s with
        writeBuffer := s.writeBuffer.sealEach s.cipher [(.ecdhInit, ecdhInit secret)]
        tick := s.tick + 1 }.setExchanging
          (.kexDhDone ⟨k.exchange.withServer buf secret, ⟨some secret, none⟩, 0, k.sessionId,
            names⟩)) := by
  obtain ⟨payload, hrecord, hid, hown, hpeer⟩ := h.place.of_kexInit hk
  have hexchange := hexpects.awaited h.clear hhead
  obtain ⟨cookie, hbuf⟩ := hexpects.kexInit hpeer hexchange
  have hconfig : s.config = config := h.config_eq
  rw [hconfig] at hread
  have hsettles : Settles .client config.preferred buf names := by
    rw [hbuf] at hread ⊢
    exact readKex_settles hchoice hread
  have hseals := seals_setExchanging s (.kexDhDone ⟨k.exchange.withServer buf secret,
    ⟨some secret, none⟩, 0, k.sessionId, names⟩) (s.tick + 1) [(.ecdhInit, ecdhInit secret)]
    (by simp [Origin.isKex]) (by simp)
  have hfew : v.own.length < roundLength := by simp [hown, roundLength]
  have htranscript := (h.transcript.hear (v.peer ++ [buf])).recite hfew .ecdhInit
    (ecdhInit secret) ⟨msg.KEX_ECDH_INIT, rfl, .inr (.inr (.inl rfl))⟩ (by
      dsimp only
      rw [hown]
      exact rfl)
  refine h.seals _ hseals ?_ ?_
  · rw [h.cipher_eq]
    exact htranscript
  · refine .dh (exchanging_setExchanging _ _) rfl ?_ ?_ ?_
    · refine ⟨payload, buf, secret, names, by rw [hown]; rfl, by rw [hpeer]; rfl, hsettles, ?_⟩
      rw [hrecord, hid]
      rfl
    · simp [hown, roundLength]
    · rw [hpeer]
      rfl

/-- The server's ECDH_REPLY is answered. -/
theorem finish_standing (h : Standing (script config serverId peerPref) v before s)
    (hdrained : s.Drained) {k : Thrussh.KexDhDone} {newkeys : NewKeys} {tick : Nat}
    (hk : s.exchanging = some (.kexDhDone k)) (hchecks : KexDhDone.Checks k buf newkeys) :
    Standing (script config serverId peerPref)
      ⟨v.past, v.own ++ [[msg.NEWKEYS]], v.peer ++ [buf]⟩ before ({ s with
        writeBuffer := s.writeBuffer.sealEach s.cipher [(.newkeys, [msg.NEWKEYS])]
        tick := tick }.setExchanging (.newKeys newkeys)) := by
  obtain ⟨clientKexInit, serverKexInit, secret, names, hown, hpeer, hsettles, hrecord⟩ :=
    h.place.of_dh hk rfl
  cases hrecord
  obtain ⟨blob, ephemeral, pubkey, kex, hcomputes⟩ := hchecks.computes
  have hseals := seals_setExchanging s (.newKeys newkeys) tick [(.newkeys, [msg.NEWKEYS])]
    (by simp [Origin.isKex]) (by simp)
  have hfew : v.own.length < roundLength := by simp [hown, roundLength]
  have htranscript := (h.transcript.hear (v.peer ++ [buf])).recite hfew .newkeys
    [msg.NEWKEYS] ⟨msg.NEWKEYS, rfl, .inr (.inl rfl)⟩ (by
      dsimp only
      rw [hown]
      exact rfl)
  refine h.seals _ hseals ?_ ?_
  · rw [h.cipher_eq]
    exact htranscript
  · have hdeals : (script config serverId peerPref).deals v.id
        ⟨(clientKexInit, ecdhInit secret), (serverKexInit, buf), newkeys⟩ :=
      ⟨secret, names, rfl, hsettles, hchecks⟩
    refine .newKeys (exchanging_setExchanging _ _) hdeals ?_
      (by rw [hown]; rfl) (by rw [hpeer]; rfl) (hseals.drained hdrained)
    dsimp only
    rw [hcomputes.derives.exchange]
    exact ⟨rfl, rfl⟩

/-- The server's NEWKEYS ends the first exchange, and the service request goes out. -/
theorem first_standing (h : Standing (script config serverId peerPref) v before s)
    (henc : s.encrypted = none) {round : Round} (hk : s.kex = some (.newKeys round.keys))
    (hdeals : (script config serverId peerPref).deals v.id round)
    (hids : round.keys.exchange.clientId = config.clientId ∧
      round.keys.exchange.serverId = serverId) (hown : v.own = round.said) :
    Standing (script config serverId peerPref) ⟨v.past ++ [round], [], []⟩ before
      { { s with kex := none, tick := s.tick + 1 }.toEncrypted (.waitingServiceRequest true false)
          round.keys (s.world.clock s.tick) with
        writeBuffer := s.writeBuffer.sealEach { round.keys.cipher with epoch := s.cipher.epoch + 1 }
          [(.service, serviceRequest)] } := by
  obtain ⟨secret, names, hinit, hsettles, hchecks⟩ := hdeals
  obtain ⟨blob, ephemeral, pubkey, kex, hcomputes⟩ := hchecks.computes
  have hnames : round.keys.names = names := hcomputes.names
  set u := { s with kex := none, tick := s.tick + 1 }.toEncrypted
    (.waitingServiceRequest true false) round.keys (s.world.clock s.tick) with hu
  have hinstalls : Installs s u s.writeBuffer.bytes [] := by
    refine ⟨rfl, rfl, ⟨_, (exchanging_none henc).trans hk, rfl⟩, ?_, by simp, by simp⟩
    rw [henc]
    exact ⟨_, rfl, rfl, rfl, rfl, fun _ => rfl, rfl⟩
  have hcomplete : Standing (script config serverId peerPref) ⟨v.past ++ [round], [], []⟩ before u := by
    refine h.complete ⟨secret, names, hinit, hsettles, hchecks⟩ hids hown _ hinstalls rfl rfl rfl rfl
      (fun _ => rfl) ⟨?_, ?_, rfl, rfl⟩
    · exact (congrArg Names.serverCompression hnames).trans hsettles.uncompressed.2
    · exact (congrArg Names.clientCompression hnames).trans hsettles.uncompressed.1
  have hphase : u.phase ≠ .newKeys := fun hnewKeys => by cases hnewKeys
  exact hcomplete.sealed rfl hphase rfl

/-- The client moves on with every packet that is expected. -/
theorem Exchanged.hears (hchoice : Uncompressing .client config.preferred peerPref)
    (h : Exchanged s buf t) (hs : s.Sound)
    (hstanding : Standing (script config serverId peerPref) v before s) (hdrained : s.Drained)
    (hexpects : (script config serverId peerPref).Expects v buf) :
    ∃ v', Standing (script config serverId peerPref) v' before t ∧
      v'.heard = v.heard ++ exchanges [buf] ∧ v.past <+: v'.past := by
  cases h with
  | skip hlost => exact absurd hlost hstanding.place.hears.1
  | answer hk hhead hread =>
    refine ⟨_, answer_standing hstanding hchoice hexpects hk hhead hread _, ?_⟩
    exact ⟨heard_snoc (hexpects.awaited hstanding.clear hhead), List.prefix_refl _⟩
  | guess hk hhead hguess =>
    obtain ⟨clientKexInit, serverKexInit, secret, names, -, -, hsettles, hrecord⟩ :=
      hstanding.place.of_dh hk rfl
    cases hrecord
    cases hsettles.guessed.symm.trans hguess
  | finish hk hguess hhead hchecks =>
    refine ⟨_, finish_standing hstanding hdrained hk hchecks, ?_⟩
    exact ⟨heard_snoc ⟨msg.KEX_ECDH_REPLY, hhead, .inr (.inr (.inr rfl))⟩, List.prefix_refl _⟩
  | first henc hk hhead =>
    obtain ⟨round, rfl, hdeals, hids, hown, hpeer⟩ :=
      hstanding.place.of_newKeys ((exchanging_none henc).trans hk)
    refine ⟨_, first_standing hstanding henc hk hdeals hids hown, ?_⟩
    exact ⟨by rw [heard_complete hpeer, hexpects.newKeys hpeer hhead], List.prefix_append _ _⟩
  | @install enc newkeys henc hrekey hhead =>
    obtain ⟨round, rfl, hdeals, hids, hown, hpeer⟩ :=
      hstanding.place.of_newKeys ((exchanging_some henc).trans hrekey)
    have huncompressed := (hstanding.encrypted enc henc).2
    refine ⟨_, hstanding.complete hdeals hids hown 0 ?_ rfl rfl rfl rfl ?_ ?_, ?_⟩
    · refine ⟨?_, rfl, ⟨_, (exchanging_some henc).trans hrekey, rfl⟩, ?_, by simp, by simp⟩
      · rw [← hs.first (by rw [henc]; rfl)]
        rfl
      · rw [henc]
        exact ⟨_, rfl, rfl⟩
    · intro hnone
      cases henc.symm.trans hnone
    · exact ⟨huncompressed.server, huncompressed.client, huncompressed.compress,
        huncompressed.decompress⟩
    · exact ⟨by rw [heard_complete hpeer, hexpects.newKeys hpeer hhead], List.prefix_append _ _⟩
  | drop henc hrekey hphase hhead =>
    have hlate := hexpects.not_late hstanding.place hhead
    rw [phase_of_exchanging ((exchanging_some henc).trans hrekey)] at hlate
    rcases Kex.phase_cases _ with hwaiting | hdh | hnewKeys
    · exact absurd hwaiting hphase
    · exact absurd hdh hlate.1
    · exact absurd hnewKeys hlate.2

end

instance : Requesting Unrelated (Speaks Unrelated : CommonSession Config → CommonSession Config → Prop)
    where
  request _ := .service rfl rfl

/-- The client performs its side of every exchange with a server that does not compress. -/
theorem driver_performs (app : Application)
    (hsigned : ∀ tick s data, .signed data ∈ app.awaited tick s → Unrelated (data.drop 36))
    {config : Config} (serverId : Bytes) {peerPref : Preferred}
    (hchoice : Uncompressing .client config.preferred peerPref) :
    (driver app).Performs (script config serverId peerPref) Exchanged where
  behaves := driver_behaves (fun _ h => h.1) app hsigned
  courses := driver_courses app
  hears _ _ _ _ _ h hs hstanding hdrained hexpects :=
    h.hears hchoice hs hstanding hdrained hexpects
  speaks s m := (message_moves (q := Speaks Unrelated) (fun _ h => h.1) m s).lift Session.common
    fun _ _ h => h

end Thrussh.Client
