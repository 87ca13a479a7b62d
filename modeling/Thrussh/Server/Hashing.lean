import Thrussh.Provenance
import Thrussh.Server.Verdicts
import Thrussh.Server.Course

/-!
# What the server hashes

The server's own packets of an exchange keep the provenance of its record:
the hash that `KexDh::parse` computes is one of the KEXINITs and ephemeral
keys of this exchange, and its keys are derived with the first hash of the
connection. Signatures of the authentication are verified over it too.
-/

namespace Thrussh.Server

open Deps Lib

variable [Deps]

/-- What `KexDh::parse` hashes. -/
def KexDh.hashing (k : KexDh) (config : Config) (buf : Bytes) (secret : Bytes32) :
    Except Fault Hashing :=
  if k.names.ignoreGuessed = false ∧ buf.head? = some msg.KEX_ECDH_INIT then do
    let (ephemeral, _) ← (reader buf 1).readString
    let (kex, exchange) ← Algorithm.serverDh { k.exchange with
      clientEphemeral := k.exchange.clientEphemeral ++ ephemeral } buf secret
    match config.keys[k.key]? with
    | some key => .ok ⟨kex, exchange, key.pushTo⟩
    | none => .error .panic
  else .error .panic

/-- What is hashed when a packet is given to `reply`. -/
def hashing (s : Session) (buf : Bytes) : Option Hashing :=
  match s.common.exchanging with
  | some (.kexDh k) =>
    (KexDh.hashing k s.common.config buf (s.common.world.rand s.common.tick).secret).toOption
  | _ => none

section
variable {handler : Handler} {s : Session} {buf : Bytes} {t : CommonSession Config}
  {acts : List (Act Session (UInt32 × ChannelMsg))}

/-- Nothing is hashed outside the Diffie-Hellman exchange. -/
theorem hashing_of_phase (h : s.common.phase ≠ .dh) : hashing s buf = none := by
  unfold hashing
  split
  · rename_i k hk
    exact absurd (phase_of_exchanging hk) h
  · rfl

/-- What is hashed when the keys are computed. -/
theorem hashing_of_replies {k : KexDh} {reply : Bytes} {newkeys : NewKeys}
    (hk : s.common.exchanging = some (.kexDh k))
    (h : k.Replies s.common.config buf (s.common.world.rand s.common.tick).secret reply newkeys) :
    ∃ hashed, hashing s buf = some hashed ∧
      newkeys.sessionId = k.sessionId.getD hashed.hash ∧
      hashed.kex.computeKeys (k.sessionId.getD hashed.hash) hashed.hash newkeys.names.cipher true =
        .ok newkeys.cipher := by
  cases h with
  | @mk ephemeral reply r kex exchange key newkeys hguess hhead hephemeral hdh hkey hreply hkeys =>
    refine ⟨⟨kex, exchange, key.pushTo⟩, ?_, ?_⟩
    · unfold hashing
      rw [hk]
      dsimp only
      unfold KexDh.hashing
      rw [if_pos ⟨hguess, hhead⟩, hephemeral]
      dsimp only [bind, Except.bind]
      rw [hdh]
      dsimp only
      rw [hkey]
      rfl
    · unfold KexDhDone.computeKeys at hkeys
      obtain ⟨c, hc, hkeys⟩ := ok_of_bind hkeys
      cases hkeys
      exact ⟨rfl, hc⟩

/-- The server's steps of an exchange keep what is known of its record. -/
theorem Exchanged.provenance (h : Provenance (driver handler) .server hashing acts s.common)
    (hexchanged : Exchanged s.common buf t) :
    Provenance (driver handler) .server hashing (acts ++ [.reply s buf]) t := by
  have hbegan := began_append (d := driver handler) (u := s) (a := .reply s buf) h.began rfl
  have hid : ∀ id, s.common.sessionId = some id →
      firstHash hashing (acts ++ [.reply s buf]) = some id := by
    intro id hs
    rw [firstHash_append, h.id id hs, Option.some_or]
  have hnone : hashing s buf = none →
      firstHash hashing (acts ++ [.reply s buf]) = firstHash hashing acts := by
    intro hnone
    refine firstHash_of_none ?_
    rw [firstHash_reply, hnone, Option.map_none]
  have hgathered : ∀ k, s.common.encrypted.isSome = true → s.common.exchanging = some k → _ :=
    fun k henc hk => (h.enter henc (a := .reply s buf) rfl).gathers k henc hk
  have hheard : buf ∈ heard ((driver handler).during (acts ++ [.reply s buf])) :=
    List.mem_filterMap.mpr ⟨_, mem_during _ _ _, rfl⟩
  cases hexchanged with
  | skip hskip =>
    have hphase : s.common.phase ≠ .dh := by
      rcases hskip with hlost | ⟨-, hwaiting, -⟩
      · rw [hlost]
        decide
      · rw [hwaiting]
        decide
    have hfirst := hnone (hashing_of_phase hphase)
    exact ⟨hid, fun k hk => (h.carried k hk).trans hfirst.symm, fun k henc hk => hgathered k henc hk,
      hbegan⟩
  | @answer k names key hk hhead hread hkey =>
    have hfirst := hnone (hashing_of_phase (by simp [phase_of_exchanging hk, Kex.phase]))
    refine Provenance.move (l := []) hbegan hid ((h.carried _ hk).trans hfirst.symm)
      fun henc t ht => ?_
    obtain ⟨hsealed, hpeer, hclient, -⟩ := hgathered _ henc hk
    have hrecord : (k.exchange.withClient buf).clientKexInit = buf := by
      change k.exchange.clientKexInit ++ buf = buf
      rw [show k.exchange.clientKexInit = [] from hpeer, List.nil_append]
    refine ⟨hsealed.grow (by rw [ht]; exact List.prefix_refl _), ?_, ?_, hclient⟩
    · rw [hrecord]
      exact hheard
    · rw [hrecord]
      exact hhead
  | @serve enc ex names key henc hrekey hex hhead hread hkey =>
    have hsession : s.common.sessionId = some enc.sessionId := by
      simp only [CommonSession.sessionId, henc, Option.map_some]
    refine Provenance.of_some (Nat.le_trans hbegan (List.prefix_append _ _).length_le)
      (fun id ht => hid id (hsession.trans ht)) rfl (hid _ hsession).symm fun _ => ?_
    exact ⟨SealedSince.of_append (s := s.common) (r := ⟨s.common.cipher.epoch,
      s.common.writeBuffer.seqn, _, .kexinit⟩) hbegan rfl (List.mem_singleton.mpr rfl), hheard,
      hhead, rfl⟩
  | @guess k hk hhead hguess =>
    have hfirst : firstHash hashing (acts ++ [.reply s buf]) = firstHash hashing acts := by
      refine hnone ?_
      unfold hashing
      rw [hk]
      dsimp only
      unfold KexDh.hashing
      rw [if_neg (by simp [hguess])]
      rfl
    refine Provenance.move (l := []) hbegan hid ((h.carried _ hk).trans hfirst.symm)
      fun henc t ht => ?_
    exact (hgathered _ henc hk).grow (by rw [ht]; exact List.prefix_refl _) (Nat.le_refl _)
      (List.Subset.refl _)
  | @finish k reply newkeys hk hreplies =>
    obtain ⟨hashed, hhashing, hsession, -⟩ := hashing_of_replies hk hreplies
    refine Provenance.move hbegan hid ?_ fun _ _ _ => trivial
    rw [firstHash_append, firstHash_reply, hhashing, ← h.carried _ hk]
    change some newkeys.sessionId = k.sessionId.or (some hashed.hash)
    rw [hsession, Option.or_some]
  | @first newkeys henc hk hhead =>
    have hfirst := hnone (hashing_of_phase (by
      simp [phase_of_exchanging ((exchanging_none henc).trans hk), Kex.phase]))
    refine Provenance.of_none hbegan (fun id ht => ?_) rfl
    cases ht
    rw [hfirst]
    exact (h.carried _ ((exchanging_none henc).trans hk)).symm
  | @install enc newkeys henc hrekey hhead =>
    have hsession : s.common.sessionId = some enc.sessionId := by
      simp only [CommonSession.sessionId, henc, Option.map_some]
    exact Provenance.of_none hbegan (fun id ht => hid id (hsession.trans ht)) rfl
  | @drop enc k henc hrekey hphase hhead =>
    have hsession : s.common.sessionId = some enc.sessionId := by
      simp only [CommonSession.sessionId, henc, Option.map_some]
    exact Provenance.of_none hbegan (fun id ht => hid id (hsession.trans ht)) rfl

/-- Keys are computed from an ECDH_INIT only. -/
theorem Exchanged.of_newKeys {newkeys : NewKeys} (h : Exchanged s.common buf t)
    (ht : t.exchanging = some (.newKeys newkeys)) :
    ∃ k reply, s.common.exchanging = some (.kexDh k) ∧
      k.Replies s.common.config buf (s.common.world.rand s.common.tick).secret reply newkeys := by
  cases h with
  | skip hskip =>
    have hphase := phase_of_exchanging ht
    rcases hskip with hlost | ⟨-, hwaiting, -⟩
    · rw [hlost] at hphase
      cases hphase
    · rw [hwaiting] at hphase
      cases hphase
  | answer => cases (exchanging_setExchanging _ _).symm.trans ht
  | serve => cases ht
  | guess => cases (exchanging_setExchanging _ _).symm.trans ht
  | @finish k reply newkeys' hk hreplies =>
    cases (exchanging_setExchanging _ _).symm.trans ht
    exact ⟨k, reply, hk, hreplies⟩
  | first => cases ht
  | install => cases ht
  | drop => cases ht

/-- `server_dh` adds the own ephemeral key to the record. -/
theorem serverDh_exchange {ex ex' : Exchange} {payload : Bytes} {secret : Bytes32}
    {kex : Algorithm} (h : Algorithm.serverDh ex payload secret = .ok (kex, ex')) :
    ex' = { ex with serverEphemeral := (scalarmultBase secret).toList } := by
  unfold Algorithm.serverDh at h
  split at h
  · split at h
    · cases h
    · split at h
      · obtain ⟨clientPubkey, -, h⟩ := ok_of_bind h
        cases h
        rfl
      · cases h
  · cases h

/-- What is hashed is the record of the exchange in progress, completed. -/
theorem hashing_some {hashed : Hashing} (h : hashing s buf = some hashed) :
    ∃ k ephemeral r, s.common.exchanging = some (.kexDh k) ∧
      (reader buf 1).readString = .ok (ephemeral, r) ∧
      hashed.exchange = { k.exchange with
        clientEphemeral := k.exchange.clientEphemeral ++ ephemeral
        serverEphemeral := (scalarmultBase (s.common.world.rand s.common.tick).secret).toList } := by
  unfold hashing at h
  split at h
  · rename_i k hk
    have hrun := ok_of_toOption h
    unfold KexDh.hashing at hrun
    split at hrun
    · obtain ⟨⟨ephemeral, r⟩, hephemeral, hrun⟩ := ok_of_bind hrun
      obtain ⟨⟨kex, exchange⟩, hdh, hrun⟩ := ok_of_bind hrun
      refine ⟨k, ephemeral, r, hk, hephemeral, ?_⟩
      have hexchange := serverDh_exchange hdh
      dsimp only at hrun
      split at hrun
      · cases hrun
        exact hexchange
      · cases hrun
    · cases hrun
  · cases h

/-- Whether the record of a re-exchange is filled by that re-exchange: both
KEXINITs and both ephemeral keys. -/
structure Fills (handler : Handler) (during : List (Act Session (UInt32 × ChannelMsg)))
    (s : Session) (buf : Bytes) (ex : Exchange) : Prop where
  /-- The client's KEXINIT has been received in the course of it. -/
  clientKexInit : ex.clientKexInit ∈ heard during ∧ ex.clientKexInit.head? = some msg.KEXINIT
  /-- The own KEXINIT has been sealed since it began. -/
  serverKexInit : s.common.SealedSince ((driver handler).sealedBefore during) .kexinit
    ex.serverKexInit
  /-- The client's ephemeral key is the one in the packet. -/
  clientEphemeral : ∃ r, (reader buf 1).readString = .ok (ex.clientEphemeral, r)
  /-- The own ephemeral key belongs to the secret drawn for the packet. -/
  serverEphemeral : ex.serverEphemeral =
    (scalarmultBase (s.common.world.rand s.common.tick).secret).toList

/-- What a packet makes of the first exchange hash of the connection, and what
it hashes in a re-exchange. -/
structure UsesFirst (handler : Handler) (first : Option Bytes32)
    (during : List (Act Session (UInt32 × ChannelMsg))) (s : Session) (buf : Bytes) : Prop where
  /-- Keys are derived with it, or it is the hash with which they are derived. -/
  keys : ∀ u newkeys, reply handler buf s = .ok () u →
    u.common.exchanging = some (.newKeys newkeys) → ∃ hashed, hashing s buf = some hashed ∧
      newkeys.sessionId = first.getD hashed.hash ∧
      hashed.kex.computeKeys (first.getD hashed.hash) hashed.hash newkeys.names.cipher true =
        .ok newkeys.cipher
  /-- A re-exchange hashes what it has gathered itself. -/
  record : s.common.encrypted.isSome = true → ∀ hashed, hashing s buf = some hashed →
    Fills handler during s buf hashed.exchange
  /-- Signatures of the authentication are verified over it. -/
  checks : s.Inquired buf → ∀ d, s.dialogue = some d → ∃ id, first = some id ∧
    Treated handler s id d (readInquiry d.request.current buf) (reply handler buf s)

theorem usesFirst (hs : s.common.Sound)
    (h : Provenance (driver handler) .server hashing acts s.common) :
    UsesFirst handler (firstHash hashing acts) ((driver handler).during acts) s buf := by
  refine ⟨fun u newkeys hrun hk => ?_, fun henc hashed hhashed => ?_, fun hinquired d hd => ?_⟩
  · by_cases hin : s.common.InExchange buf
    · obtain ⟨t, hexchanged, ht⟩ : ∃ t, Exchanged s.common buf t ∧
          t.exchanging = some (.newKeys newkeys) := by
        rcases reply_replied handler hs hin with ⟨t, hexchanged, hreply | hreply⟩ |
          ⟨e, t, packets, hreply, -⟩
        · rw [hrun] at hreply
          cases hreply
          exact ⟨_, hexchanged, hk⟩
        · rw [hrun] at hreply
          unfold onCommon zoom at hreply
          dsimp only at hreply
          cases hflush : flush t with
          | error e c =>
            rw [hflush] at hreply
            cases hreply
          | ok a c =>
            rw [hflush] at hreply
            cases hreply
            exact ⟨t, hexchanged, newKeys_of_flush hflush hk⟩
        · rw [hrun] at hreply
          cases hreply
      obtain ⟨k, reply, hs, hreplies⟩ := hexchanged.of_newKeys ht
      obtain ⟨hashed, hhashing, hkeys⟩ := hashing_of_replies hs hreplies
      have hfirst : k.sessionId = firstHash hashing acts := h.carried _ hs
      rw [← hfirst]
      exact ⟨hashed, hhashing, hkeys⟩
    · have hbehaves := driver_behaves (P := fun _ => True) (fun _ _ => trivial) handler
      have hnot := hbehaves.not_newKeys hs hin newkeys
      change (final (reply handler buf s)).common.exchanging ≠ _ at hnot
      rw [hrun] at hnot
      exact absurd hk hnot
  · obtain ⟨k, ephemeral, r, hk, hephemeral, hrecord⟩ := hashing_some hhashed
    obtain ⟨hown, hpeer, hhead, hnil⟩ := h.gathers _ henc hk
    rw [hrecord]
    exact ⟨⟨hpeer, hhead⟩, hown, ⟨r, by rw [hnil]; exact hephemeral⟩, rfl⟩
  · obtain ⟨id, hid, htreated⟩ := reply_treated handler hinquired hd
    exact ⟨id, h.id id hid, htreated⟩

/-- The server keeps what is known of its record and of the session id. -/
theorem driver_provenance (handler : Handler) :
    (driver handler).Follows (fun acts act => acts ++ [act])
      (fun acts s => s.common.Sound ∧ Provenance (driver handler) .server hashing acts s.common)
      (fun acts s => ∀ id, s.common.sessionId = some id → firstHash hashing acts = some id) := by
  have hbehaves := driver_behaves (P := fun _ => True) (fun _ _ => trivial) handler
  refine hbehaves.follows_provenance fun acts s buf hs hprovenance hin => ?_
  rcases reply_replied handler hs hin with ⟨t, hexchanged, hreply⟩ | ⟨e, t, packets, hreply⟩
  · exact .inl ⟨{ s with common := t }, hexchanged.provenance hprovenance, hreply⟩
  · exact .inr ⟨e, { s with common := t }, packets, hreply⟩

/-- Along every run of the server the session id is the first exchange hash. -/
theorem usesFirst_of_run {config : Config} {sshid : Bytes} {world : World} {l : Loop Session}
    (hl : runStream config handler sshid world = .ok l)
    (events : List (Event (UInt32 × ChannelMsg))) :
    (∀ enc, (l.run (driver handler) events).session.common.encrypted = some enc →
      firstHash hashing (l.acts (driver handler) events) = some enc.sessionId) ∧
    ∀ e s buf, (s, buf) ∈ Loop.given (driver handler) (l.run (driver handler) events) e →
      UsesFirst handler (firstHash hashing (l.acts (driver handler) events))
        ((driver handler).during (l.acts (driver handler) events)) s buf := by
  obtain ⟨s₀, output, hid, rfl⟩ := runStream_readSshId hl
  have hs₀ := readSshId_initial hid
  have hfollows := driver_provenance handler
  have hprovenance : Provenance (driver handler) .server hashing [] s₀.common := by
    simp only [readSshId, ownWrite_ok] at hid
    cases hid
    refine .initial rfl fun k hk => ?_
    cases hk
    rfl
  have hstart := Loop.start_follows hfollows ⟨hs₀.sound, hprovenance⟩ output
  have hrun := Loop.run_follows hfollows hstart events
  refine ⟨fun enc henc => hrun.ended _ ?_, fun e s buf hgiven => ?_⟩
  · rw [CommonSession.sessionId, henc, Option.map_some]
  · have hgiven := Loop.given_follows hfollows hrun hgiven
    exact usesFirst hgiven.1 hgiven.2

end

end Thrussh.Server
