import Thrussh.Hearing
import Thrussh.Rearmed

/-!
# The server's side of an exchange

What the server has sent and heard when it has both KEXINITs, and when it has
computed the keys and sent its reply. Its steps of an exchange with packets
that are expected move it from place to place.
-/

namespace Thrussh.Server

open Deps Lib

variable [Deps]

/-- The server's record between both KEXINITs and its reply. -/
def gathered (config : Config) (clientId : Bytes) (id : Option Bytes32)
    (clientKexInit serverKexInit : Bytes) (names : Names) (key : Nat) : Thrussh.KexDh where
  exchange := { Exchange.new with
    clientId, serverId := config.serverId, clientKexInit, serverKexInit }
  names := names
  key := key
  sessionId := id

/-- An exchange with the client. -/
def script (config : Config) (clientId : Bytes) (peerPref : Preferred) : Script Config where
  config := config
  clientId := clientId
  serverId := config.serverId
  peerPref := peerPref
  dh id own peer k := ∃ serverKexInit clientKexInit names key,
    own = [serverKexInit] ∧ peer = [clientKexInit] ∧
    Settles .server config.preferred clientKexInit names ∧
    k = .kexDh (gathered config clientId id clientKexInit serverKexInit names key)
  deals id round := ∃ names key secret, Settles .server config.preferred round.peer.1 names ∧
    (gathered config clientId id round.peer.1 round.own.1 names key).Replies config round.peer.2
      secret round.own.2 round.keys

/-- How the server computes the keys. -/
structure KexDh.Computes (k : Thrussh.KexDh) (config : Config) (buf reply : Bytes)
    (secret : Bytes32) (newkeys : NewKeys) (ephemeral signature : Bytes) (key : KeyPair)
    (kex : Algorithm) : Prop where
  /-- The client's ephemeral key is read from the packet. -/
  reads : ∃ r, (reader buf 1).readString = .ok (ephemeral, r)
  /-- The shared secret. -/
  shares : Algorithm.serverDh { k.exchange with
    clientEphemeral := k.exchange.clientEphemeral ++ ephemeral } buf secret = .ok (kex,
      { k.exchange with
        clientEphemeral := k.exchange.clientEphemeral ++ ephemeral
        serverEphemeral := (scalarmultBase secret).toList })
  /-- The host key is one of the configuration. -/
  host : key ∈ config.keys
  /-- The reply. -/
  reply_eq : reply = msg.KEX_ECDH_REPLY :: key.pushTo ++
    sshString (scalarmultBase secret).toList ++ signature
  /-- The names are those of the negotiation. -/
  names : newkeys.names = k.names
  /-- The keys follow from the hash. -/
  derives : Derives ⟨kex, { k.exchange with
    clientEphemeral := k.exchange.clientEphemeral ++ ephemeral
    serverEphemeral := (scalarmultBase secret).toList }, key.pushTo⟩ k.sessionId true newkeys

/-- A reply comes with such keys. -/
theorem replies_computes {k : Thrussh.KexDh} {config : Config} {buf reply : Bytes}
    {secret : Bytes32} {newkeys : NewKeys} (h : k.Replies config buf secret reply newkeys) :
    ∃ ephemeral signature key kex,
      KexDh.Computes k config buf reply secret newkeys ephemeral signature key kex := by
  cases h with
  | @mk ephemeral _ r kex exchange key _ hguess hhead hephemeral hdh hkey hreply hkeys =>
    have hexchange := serverDh_exchange hdh
    subst hexchange
    unfold ecdhReply at hreply
    split at hreply
    · next signature hsignature =>
      cases hreply
      unfold KexDhDone.computeKeys at hkeys
      obtain ⟨c, hc, hkeys⟩ := ok_of_bind hkeys
      cases hkeys
      exact ⟨ephemeral, signature, key, kex, ⟨r, hephemeral⟩, hdh, List.mem_of_getElem? hkey, rfl,
        rfl, rfl, rfl, hc⟩
    · cases hreply

section
variable {config : Config} {clientId : Bytes} {peerPref : Preferred} {v : Progress}
  {before buf : Bytes} {s t : CommonSession Config}

/-- What the server chooses from a KEXINIT that is expected. -/
theorem settles_expected (hchoice : Uncompressing .server config.preferred peerPref)
    (hexpects : (script config clientId peerPref).Expects v buf)
    (hhead : buf.head? = some msg.KEXINIT) {names : Names}
    (hread : readKex .server buf config.preferred = .ok names) :
    Settles .server config.preferred buf names := by
  obtain ⟨cookie, hbuf⟩ := hexpects.kexInit (hexpects.peer_eq hhead) ⟨msg.KEXINIT, hhead, .inl rfl⟩
  change buf = writeKex peerPref cookie at hbuf
  rw [hbuf] at hread ⊢
  exact readKex_settles hchoice hread

/-- The client's KEXINIT is heard, after the own one. -/
theorem answer_standing (h : Standing (script config clientId peerPref) v before s)
    {k : KexInit} {names : Names} {key : Nat} (hk : s.exchanging = some (.kexInit k))
    (hsettles : Settles .server config.preferred buf names) :
    Standing (script config clientId peerPref) ⟨v.past, v.own, v.peer ++ [buf]⟩ before
      ({ s with tick := s.tick + 1 }.setExchanging
        (.kexDh ⟨k.exchange.withClient buf, names, key, k.sessionId⟩)) := by
  obtain ⟨payload, hrecord, hid, hown, hpeer⟩ := h.place.of_kexInit hk
  have hseals := seals_setExchanging s (.kexDh ⟨k.exchange.withClient buf, names, key, k.sessionId⟩)
    (s.tick + 1) [] (by simp) (by simp)
  refine h.seals _ hseals (h.transcript.hear _) ?_
  refine .dh (exchanging_setExchanging _ _) rfl ?_ ?_ ?_
  · refine ⟨payload, buf, names, key, hown, by rw [hpeer]; rfl, hsettles, ?_⟩
    rw [hrecord, hid]
    rfl
  · simp [hown, roundLength]
  · rw [hpeer]
    rfl

/-- The client's KEXINIT starts the exchange, and the own one goes out. -/
theorem serve_standing (h : Standing (script config clientId peerPref) v before s)
    {enc : Encrypted} {ex : Exchange} {names : Names} {key : Nat} (henc : s.encrypted = some enc)
    (hrekey : enc.rekey = none) (hex : enc.exchange = some ex)
    (hsettles : Settles .server config.preferred buf names)
    {payload : Bytes} (hpayload : ∃ cookie, payload = writeKex config.preferred cookie) :
    Standing (script config clientId peerPref) ⟨v.past, v.own ++ [payload], v.peer ++ [buf]⟩ before
      { s with
        encrypted := some { enc with
          exchange := none
          rekey := some (.kexDh ⟨{ ex.cleared.withClient buf with serverKexInit := payload },
            names, key, some enc.sessionId⟩) }
        writeBuffer := s.writeBuffer.sealEach s.cipher [(.kexinit, payload)]
        tick := s.tick + 1 } := by
  have hid := (h.encrypted enc henc).1
  obtain ⟨hids, hown, hpeer⟩ : (ex.clientId = clientId ∧ ex.serverId = config.serverId) ∧
      v.own = [] ∧ v.peer = [] := by
    have hplace := h.place
    have hnone : s.exchanging = none := (exchanging_some henc).trans hrekey
    cases hplace with
    | waiting hk hrecord hid' hown hpeer => cases hnone.symm.trans hk
    | dh hk hphase hdh hown hpeer => cases hnone.symm.trans hk
    | newKeys hk hdeals hids hown hpeer hdrained => cases hnone.symm.trans hk
    | idle henc' hrekey' hex' hlast hids hown hpeer =>
      cases henc.symm.trans henc'
      cases hex.symm.trans hex'
      exact ⟨hids, hown, hpeer⟩
  have hhead : payload.head? = some msg.KEXINIT := by
    obtain ⟨cookie, rfl⟩ := hpayload
    rfl
  have htranscript := (h.transcript.hear (v.peer ++ [buf])).recite (by simp [hown, roundLength])
    .kexinit payload ⟨msg.KEXINIT, hhead, .inl rfl⟩ (by
      dsimp only
      rw [hown]
      exact hpayload)
  refine h.seals [(.kexinit, payload)] ⟨rfl, ?_, by simp [Origin.isKex], by simp⟩ ?_ ?_
  · rw [henc]
    exact .some rfl
  · rw [h.cipher_eq]
    exact htranscript
  · refine .dh (k := .kexDh _) rfl rfl ?_ ?_ ?_
    · refine ⟨payload, buf, names, key, by rw [hown]; rfl, by rw [hpeer]; rfl, hsettles, ?_⟩
      rw [← show v.id = some enc.sessionId from hid]
      simp only [gathered, Exchange.withClient, Exchange.cleared, Exchange.new, hids.1, hids.2,
        List.nil_append, Progress.id]
    · simp [hown, roundLength]
    · rw [hpeer]
      rfl

/-- The client's ECDH_INIT is answered. -/
theorem finish_standing (h : Standing (script config clientId peerPref) v before s)
    (hdrained : s.Drained) {k : Thrussh.KexDh} {reply : Bytes} {newkeys : NewKeys} {secret : Bytes32}
    (hk : s.exchanging = some (.kexDh k))
    (hreplies : k.Replies config buf secret reply newkeys) :
    Standing (script config clientId peerPref)
      ⟨v.past, v.own ++ [reply] ++ [[msg.NEWKEYS]], v.peer ++ [buf]⟩ before ({ s with
        writeBuffer := s.writeBuffer.sealEach s.cipher
          [(.ecdhReply, reply), (.newkeys, [msg.NEWKEYS])]
        tick := s.tick + 1 }.setExchanging (.newKeys newkeys)) := by
  obtain ⟨serverKexInit, clientKexInit, names, key, hown, hpeer, hsettles, hrecord⟩ :=
    h.place.of_dh hk rfl
  cases hrecord
  obtain ⟨ephemeral, signature, keyPair, kex, hcomputes⟩ := replies_computes hreplies
  have hhead : reply.head? = some msg.KEX_ECDH_REPLY := by
    rw [hcomputes.reply_eq]
    rfl
  have hseals := seals_setExchanging s (.newKeys newkeys) (s.tick + 1)
    [(.ecdhReply, reply), (.newkeys, [msg.NEWKEYS])] (by simp [Origin.isKex]) (by simp)
  have hreply := (h.transcript.hear (v.peer ++ [buf])).recite (by simp [hown, roundLength])
    .ecdhReply reply ⟨msg.KEX_ECDH_REPLY, hhead, .inr (.inr (.inr rfl))⟩ (by
      dsimp only
      rw [hown]
      exact hhead)
  have htranscript := hreply.recite (by simp [hown, roundLength]) .newkeys
    [msg.NEWKEYS] ⟨msg.NEWKEYS, rfl, .inr (.inl rfl)⟩ (by
      dsimp only
      rw [hown]
      exact rfl)
  refine h.seals _ hseals ?_ ?_
  · rw [h.cipher_eq]
    exact htranscript
  · have hdeals : (script config clientId peerPref).deals v.id
        ⟨(serverKexInit, reply), (clientKexInit, buf), newkeys⟩ :=
      ⟨names, key, secret, hsettles, hreplies⟩
    refine .newKeys (exchanging_setExchanging _ _) hdeals ?_
      (by rw [hown]; rfl) (by rw [hpeer]; rfl) (hseals.drained hdrained)
    dsimp only
    rw [hcomputes.derives.exchange]
    exact ⟨rfl, rfl⟩

/-- The client's NEWKEYS ends the first exchange. -/
theorem first_standing (h : Standing (script config clientId peerPref) v before s)
    (henc : s.encrypted = none) {round : Round} (hk : s.kex = some (.newKeys round.keys))
    (hdeals : (script config clientId peerPref).deals v.id round)
    (hids : round.keys.exchange.clientId = clientId ∧
      round.keys.exchange.serverId = config.serverId) (hown : v.own = round.said) :
    Standing (script config clientId peerPref) ⟨v.past ++ [round], [], []⟩ before
      ({ s with kex := none, tick := s.tick + 1 }.toEncrypted
        (.waitingServiceRequest false false) round.keys (s.world.clock s.tick)) := by
  obtain ⟨names, key, secret, hsettles, hreplies⟩ := hdeals
  obtain ⟨ephemeral, signature, keyPair, kex, hcomputes⟩ := replies_computes hreplies
  have hnames : round.keys.names = names := hcomputes.names
  refine h.complete ⟨names, key, secret, hsettles, hreplies⟩ hids hown
    s.writeBuffer.bytes ?_ rfl rfl rfl rfl (fun _ => rfl)
    ⟨?_, ?_, rfl, rfl⟩
  · refine ⟨rfl, rfl, ⟨_, (exchanging_none henc).trans hk, rfl⟩, ?_, by simp, by simp⟩
    rw [henc]
    exact ⟨_, rfl, rfl, rfl, rfl, fun _ => rfl, rfl⟩
  · exact (congrArg Names.serverCompression hnames).trans hsettles.uncompressed.2
  · exact (congrArg Names.clientCompression hnames).trans hsettles.uncompressed.1

/-- The server moves on with every packet that is expected. -/
theorem Exchanged.hears (hchoice : Uncompressing .server config.preferred peerPref)
    (h : Exchanged s buf t) (hs : s.Sound)
    (hstanding : Standing (script config clientId peerPref) v before s) (hdrained : s.Drained)
    (hexpects : (script config clientId peerPref).Expects v buf) :
    ∃ v', Standing (script config clientId peerPref) v' before t ∧
      v'.heard = v.heard ++ exchanges [buf] ∧ v.past <+: v'.past := by
  have hconfig : s.config = config := hstanding.config_eq
  cases h with
  | skip hskip =>
    rcases hskip with hlost | ⟨hnone, hwaiting, hhead⟩
    · exact absurd hlost hstanding.place.hears.1
    · have hexchange := hexpects.2 (hstanding.clear hnone)
      have hpeer := hstanding.place.hears.2 (by rw [hwaiting]; decide)
      obtain ⟨cookie, rfl⟩ := hexpects.kexInit hpeer hexchange
      exact absurd (head_writeKex _ _) hhead
  | answer hk hhead hread hkey =>
    rw [hconfig] at hread
    refine ⟨_, answer_standing hstanding hk (settles_expected hchoice hexpects hhead hread), ?_⟩
    exact ⟨heard_snoc ⟨msg.KEXINIT, hhead, .inl rfl⟩, List.prefix_refl _⟩
  | serve henc hrekey hex hhead hread hkey =>
    rw [hconfig] at hread
    refine ⟨_, serve_standing hstanding henc hrekey hex
      (settles_expected hchoice hexpects hhead hread) ⟨_, by rw [hconfig]⟩, ?_⟩
    exact ⟨heard_snoc ⟨msg.KEXINIT, hhead, .inl rfl⟩, List.prefix_refl _⟩
  | guess hk hhead hguess =>
    obtain ⟨serverKexInit, clientKexInit, names, key, -, -, hsettles, hrecord⟩ :=
      hstanding.place.of_dh hk rfl
    cases hrecord
    cases hsettles.guessed.symm.trans hguess
  | finish hk hreplies =>
    have hhead : buf.head? = some msg.KEX_ECDH_INIT := by
      cases hreplies
      assumption
    rw [hconfig] at hreplies
    refine ⟨_, finish_standing hstanding hdrained hk hreplies, ?_⟩
    exact ⟨heard_snoc ⟨msg.KEX_ECDH_INIT, hhead, .inr (.inr (.inl rfl))⟩, List.prefix_refl _⟩
  | first henc hk hhead =>
    obtain ⟨round, rfl, hdeals, hids, hown, hpeer⟩ :=
      hstanding.place.of_newKeys ((exchanging_none henc).trans hk)
    refine ⟨_, first_standing hstanding henc hk hdeals hids hown, ?_⟩
    exact ⟨by rw [heard_complete hpeer, hexpects.newKeys hpeer hhead], List.prefix_append _ _⟩
  | @install enc newkeys henc hrekey hhead =>
    obtain ⟨round, rfl, hdeals, hids, hown, hpeer⟩ :=
      hstanding.place.of_newKeys ((exchanging_some henc).trans hrekey)
    have huncompressed := (hstanding.encrypted enc henc).2
    refine ⟨_, hstanding.complete hdeals hids hown s.writeBuffer.bytes ?_ rfl rfl rfl
      rfl ?_ ?_, ?_⟩
    · refine ⟨?_, rfl, ⟨_, (exchanging_some henc).trans hrekey, rfl⟩, ?_, by simp, by simp⟩
      · rw [← hs.first (by rw [henc]; rfl)]
        rfl
      · rw [henc]
        exact ⟨_, rfl, rfl⟩
    · intro hnone
      cases henc.symm.trans hnone
    · exact ⟨huncompressed.server, huncompressed.client, huncompressed.compress,
        huncompressed.decompress⟩
    · exact ⟨by rw [heard_complete hpeer, hexpects.newKeys hpeer hhead], List.prefix_append _ _⟩
  | drop henc hrekey hphase hhead =>
    have hlate := hexpects.not_late hstanding.place hhead
    rw [phase_of_exchanging ((exchanging_some henc).trans hrekey)] at hlate
    rcases Kex.phase_cases _ with hwaiting | hdh | hnewKeys
    · exact absurd hwaiting hphase
    · exact absurd hdh hlate.1
    · exact absurd hnewKeys hlate.2

end

/-- The server performs its side of every exchange with a client that does not compress. -/
theorem driver_performs (handler : Handler) {config : Config} (clientId : Bytes)
    {peerPref : Preferred} (hchoice : Uncompressing .server config.preferred peerPref) :
    (driver handler).Performs (script config clientId peerPref) Exchanged where
  behaves := driver_behaves (fun _ h => h.1) handler
  courses := driver_courses handler
  hears _ _ _ _ _ h hs hstanding hdrained hexpects :=
    h.hears hchoice hs hstanding hdrained hexpects
  speaks s m := Over.lift (message_moves (q := Speaks Unrelated) (of_connection fun _ h => h.1) m s)

end Thrussh.Server
