import Thrussh.Client.Rounds
import Thrussh.Server.Malformed
import Thrussh.Server.Rounds
import Thrussh.Signing

/-!
# What two sides agree on

When each side of a connection has heard what the other has sent, the rounds
of both are the same, seen from either side. So the record, the session id and
the keys of every round are the same, the keys crosswise.
-/

namespace Thrussh

open Deps Lib Position

/-! ### Rounds of both sides -/

/-- A round of two sides: each has heard what the other has sent. -/
structure Round.Crosses (r r' : Round) : Prop where
  /-- What the one has heard. -/
  heard : r.peer = r'.own
  /-- What it has sent. -/
  said : r.own = r'.peer

theorem Round.Crosses.symm {r r' : Round} (h : r.Crosses r') : r'.Crosses r :=
  ⟨h.said.symm, h.heard.symm⟩

/-- What was heard in a round is what was sent in the round of the other side. -/
theorem heard_eq_said {v v' : Progress} (h : v.heard <+: v'.said) {n : Nat} {r r' : Round}
    (hr : v.past[n]? = some r) (hr' : v'.past[n]? = some r') : r.peer = r'.own := by
  have hsame : ∀ i, i < roundLength → r.heard[i]? = r'.said[i]? := by
    intro i hi
    have hheard : v.heard[roundLength * n + i]? = r.heard[i]? := by
      have hblock := getElem?_blocks (f := Round.heard) (k := roundLength) (fun _ => rfl) v.past n hi
      rw [hr, Option.bind_some] at hblock
      obtain ⟨a, ha⟩ : ∃ a, r.heard[i]? = some a :=
        ⟨_, List.getElem?_eq_getElem (show i < r.heard.length from hi)⟩
      rw [ha] at hblock ⊢
      exact List.getElem?_append_left (List.getElem?_eq_some_iff.mp hblock).1 |>.trans hblock
    have hsaid : v'.said[roundLength * n + i]? = r'.said[i]? := by
      have hblock := getElem?_blocks (f := Round.said) (k := roundLength) (fun _ => rfl) v'.past n hi
      rw [hr', Option.bind_some] at hblock
      obtain ⟨a, ha⟩ : ∃ a, r'.said[i]? = some a :=
        ⟨_, List.getElem?_eq_getElem (show i < r'.said.length from hi)⟩
      rw [ha] at hblock ⊢
      exact List.getElem?_append_left (List.getElem?_eq_some_iff.mp hblock).1 |>.trans hblock
    obtain ⟨rest, hrest⟩ := h
    obtain ⟨a, ha⟩ : ∃ a, r.heard[i]? = some a :=
      ⟨_, List.getElem?_eq_getElem (show i < r.heard.length from hi)⟩
    rw [ha] at hheard ⊢
    rw [← hsaid, ← hrest, List.getElem?_append_left (List.getElem?_eq_some_iff.mp hheard).1, hheard]
  have hfirst := hsame 0 (by decide)
  have hsecond := hsame 1 (by decide)
  exact Prod.ext (Option.some.inj hfirst) (Option.some.inj hsecond)

/-- Each side has heard a part of what the other has sent. -/
structure Progress.Joins (v v' : Progress) : Prop where
  /-- What the one has heard. -/
  heard : v.heard <+: v'.said
  /-- What the other has. -/
  said : v'.heard <+: v.said

theorem Progress.Joins.symm {v v' : Progress} (h : v.Joins v') : v'.Joins v := ⟨h.said, h.heard⟩

/-- The rounds of both sides are the same. -/
theorem Progress.Joins.crosses {v v' : Progress} (h : v.Joins v') {n : Nat} {r r' : Round}
    (hr : v.past[n]? = some r) (hr' : v'.past[n]? = some r') : r.Crosses r' :=
  ⟨heard_eq_said h.heard hr hr', (heard_eq_said h.said hr' hr).symm⟩

/-! ### Keys of both sides -/

/-- The keys of a round on two sides: one record, one session id, and the same keys crosswise. -/
structure NewKeys.Mirrors (k k' : NewKeys) : Prop where
  /-- The record. -/
  exchange : k.exchange = k'.exchange
  /-- The session id. -/
  sessionId : k.sessionId = k'.sessionId
  /-- What the one seals with the other opens with. -/
  sealing : k.cipher.localToRemote = k'.cipher.remoteToLocal
  /-- And the other way round. -/
  opening : k.cipher.remoteToLocal = k'.cipher.localToRemote

theorem NewKeys.Mirrors.symm {k k' : NewKeys} (h : k.Mirrors k') : k'.Mirrors k :=
  ⟨h.exchange.symm, h.sessionId.symm, h.opening.symm, h.sealing.symm⟩

/-- Two scripts of one conversation. -/
structure Script.Matches {C C' : Type} [SessionConfig C] [SessionConfig C'] (x : Script C)
    (x' : Script C') : Prop where
  /-- The roles. -/
  role : SessionConfig.role C' = (SessionConfig.role C).peer
  /-- What each prefers is known to the other. -/
  pref : x.peerPref = SessionConfig.preferred x'.config
  /-- And the other way round. -/
  pref' : x'.peerPref = SessionConfig.preferred x.config
  /-- The keys of a round of both sides. -/
  mirrors : ∀ id r r', x.deals id r → x'.deals id r' → r.Crosses r' → r.keys.Mirrors r'.keys

section
variable {C C' : Type} [SessionConfig C] [SessionConfig C'] {x : Script C} {x' : Script C'}

theorem Role.peer_peer (r : Role) : r.peer.peer = r := by
  cases r <;> rfl

theorem Script.Matches.symm (h : x.Matches x') : x'.Matches x where
  role := by rw [h.role, Role.peer_peer]
  pref := h.pref'
  pref' := h.pref
  mirrors id r r' hdeals hdeals' hcrosses := (h.mirrors id r' r hdeals' hdeals hcrosses.symm).symm

variable {v v' : Progress}

omit [SessionConfig C] in
/-- A round is a deal under the session id of the first one. -/
theorem Script.Archive.deals {past : List Round} (h : x.Archive past) {n : Nat} {r : Round}
    (hr : past[n]? = some r) :
    x.deals (if n = 0 then none else past.head?.map (·.keys.sessionId)) r := by
  obtain ⟨hlt, hget⟩ := List.getElem?_eq_some_iff.mp hr
  have hsplit : past = past.take n ++ r :: past.drop (n + 1) := by
    rw [← hget, ← List.drop_eq_getElem_cons hlt, List.take_append_drop]
  have hdeals := h _ _ _ hsplit
  by_cases hzero : n = 0
  · rw [if_pos hzero]
    rwa [hzero, List.take_zero] at hdeals
  · rw [if_neg hzero]
    have hhead : (past.take n).head? = past.head? := by rw [List.head?_take, if_neg hzero]
    rwa [Progress.id, hhead] at hdeals

/-- The keys of the rounds of both sides. -/
theorem Script.Matches.keys (h : x.Matches x') (hjoins : v.Joins v') (harchive : x.Archive v.past)
    (harchive' : x'.Archive v'.past) {n : Nat} {r r' : Round} (hr : v.past[n]? = some r)
    (hr' : v'.past[n]? = some r') : r.keys.Mirrors r'.keys := by
  have hfirst : ∀ {r r' : Round}, v.past[0]? = some r → v'.past[0]? = some r' →
      r.keys.Mirrors r'.keys := by
    intro r r' hr hr'
    exact h.mirrors _ _ _ (harchive.deals hr) (harchive'.deals hr') (hjoins.crosses hr hr')
  have hdeals := harchive.deals hr
  have hdeals' := harchive'.deals hr'
  by_cases hzero : n = 0
  · subst hzero
    exact hfirst hr hr'
  · rw [if_neg hzero] at hdeals hdeals'
    have hid : v.past.head?.map (·.keys.sessionId) = v'.past.head?.map (·.keys.sessionId) := by
      have hlt := (List.getElem?_eq_some_iff.mp hr).1
      have hlt' := (List.getElem?_eq_some_iff.mp hr').1
      have hget := List.getElem?_eq_getElem (show 0 < v.past.length by omega)
      have hget' := List.getElem?_eq_getElem (show 0 < v'.past.length by omega)
      rw [List.head?_eq_getElem?, List.head?_eq_getElem?, hget, hget', Option.map_some,
        Option.map_some, (hfirst hget hget').sessionId]
    rw [hid] at hdeals
    exact h.mirrors _ _ _ hdeals hdeals' (hjoins.crosses hr hr')

/-- What one side seals in an epoch, the other opens with the same key. -/
theorem Script.Matches.meet (h : x.Matches x') (hjoins : v.Joins v') (harchive : x.Archive v.past)
    (harchive' : x'.Archive v'.past) {n : Nat} (hn : n ≤ v.past.length) (hn' : n ≤ v'.past.length) :
    sealingKey v'.past n = openingKey v.past n := by
  cases n with
  | zero => rfl
  | succ n =>
    have hget := List.getElem?_eq_getElem (show n < v.past.length from hn)
    have hget' := List.getElem?_eq_getElem (show n < v'.past.length from hn')
    rw [sealingKey, openingKey, hget, hget', Option.elim_some, Option.elim_some]
    exact (h.keys hjoins harchive harchive' hget hget').opening.symm

end

/-! ### The client and the server -/

variable [Deps]

/-- What `push_to` writes for a host key is a string that holds its blob, and the key that
is parsed from the blob writes the same. -/
structure KeyPair.Readable (key : KeyPair) : Prop where
  /-- A string. -/
  pushTo_eq : key.pushTo = sshString key.blob
  /-- Its length is written. -/
  short : key.blob.length < 2 ^ 32
  /-- The parsed key. -/
  parsed : ∀ pubkey, parsePublicKey key.blob = .ok pubkey → pubkey.pushTo = key.pushTo

/-- Keys that follow from one hash, on either side. -/
theorem Derives.mirrors {h : Hashing} {id : Option Bytes32} {k k' : NewKeys}
    (hclient : Derives h id false k) (hserver : Derives h id true k') : k.Mirrors k' := by
  have hcipher := hclient.cipher
  have hcipher' := hserver.cipher
  have hname : ∀ {name : Bytes} {isServer : Bool} {pair : CipherPair},
      h.kex.computeKeys (id.getD h.hash) h.hash name isServer = .ok pair → name = chacha20poly1305 := by
    intro name isServer pair hpair
    unfold Algorithm.computeKeys at hpair
    split at hpair
    · assumption
    · cases hpair
  rw [hname hcipher] at hcipher
  rw [hname hcipher'] at hcipher'
  unfold Algorithm.computeKeys at hcipher hcipher'
  rw [if_pos rfl] at hcipher hcipher'
  obtain ⟨c, hc, hcipher⟩ := ok_of_bind hcipher
  obtain ⟨c', hc', hcipher⟩ := ok_of_bind hcipher
  obtain ⟨e, he, hcipher'⟩ := ok_of_bind hcipher'
  obtain ⟨e', he', hcipher'⟩ := ok_of_bind hcipher'
  have hkey : k.cipher = ⟨c, c', 0⟩ := (Except.ok.inj hcipher).symm
  have hkey' : k'.cipher = ⟨e, e', 0⟩ := (Except.ok.inj hcipher').symm
  refine ⟨hclient.exchange.trans hserver.exchange.symm,
    hclient.sessionId.trans hserver.sessionId.symm, ?_, ?_⟩
  · rw [hkey, hkey']
    exact Except.ok.inj (hc.symm.trans he')
  · rw [hkey, hkey']
    exact Except.ok.inj (hc'.symm.trans he)

/-- The client reads from the server's reply what the server has written. -/
theorem reply_read {key : KeyPair} (hkey : key.Readable) (server : Bytes32) (signature : Bytes)
    {blob ephemeral : Bytes} {r r' : Position}
    (hblob : (reader (msg.KEX_ECDH_REPLY :: key.pushTo ++ sshString server.toList ++ signature)
      1).readString = .ok (blob, r)) (hephemeral : r.readString = .ok (ephemeral, r')) :
    blob = key.blob ∧ ephemeral = server.toList := by
  have hstart := before_reader msg.KEX_ECDH_REPLY
    (key.pushTo ++ (sshString server.toList ++ signature))
  rw [hkey.pushTo_eq] at hstart
  obtain ⟨r₁, hread, hbefore⟩ := hstart.readString hkey.short
  obtain ⟨r₂, hread', -⟩ := hbefore.readString (x := server.toList) (by simp)
  have hwhole : msg.KEX_ECDH_REPLY :: key.pushTo ++ sshString server.toList ++ signature =
      msg.KEX_ECDH_REPLY :: (sshString key.blob ++ (sshString server.toList ++ signature)) := by
    rw [hkey.pushTo_eq, List.cons_append, List.cons_append, List.append_assoc]
  rw [hwhole, hread] at hblob
  cases hblob
  rw [hread'] at hephemeral
  cases hephemeral
  exact ⟨rfl, rfl⟩

/-- The server reads from the client's packet what the client has written. -/
theorem init_read {secret : Bytes32} {ephemeral : Bytes} {r : Position}
    (h : (reader (ecdhInit secret) 1).readString = .ok (ephemeral, r)) :
    ephemeral = (scalarmultBase secret).toList := by
  obtain ⟨r', hread⟩ := (before_reader msg.KEX_ECDH_INIT
    (sshString (scalarmultBase secret).toList)).readString_last (by simp)
  have hboth : Except.ok (ephemeral, r) = Except.ok ((scalarmultBase secret).toList, r') :=
    h.symm.trans hread
  cases hboth
  rfl

/-- The keys of a round on which the client and the server have exchanged their packets follow
from one hash. -/
theorem deals_mirror [LawfulSodium] {clientConfig : Client.Config} {serverConfig : Server.Config}
    (hkeys : ∀ key ∈ serverConfig.keys, key.Readable) {id : Option Bytes32} {r r' : Round}
    {secret secret' : Bytes32} {names names' : Names} {key : Nat} (hinit : r.own.2 = ecdhInit secret)
    (hchecks : Client.KexDhDone.Checks (Client.gathered clientConfig serverConfig.serverId id r.own.1
      r.peer.1 secret names) r.peer.2 r.keys)
    (hreplies : (Server.gathered serverConfig clientConfig.clientId id r'.peer.1 r'.own.1 names'
      key).Replies serverConfig r'.peer.2 secret' r'.own.2 r'.keys)
    (hcrosses : r.Crosses r') : r.keys.Mirrors r'.keys := by
  obtain ⟨blob, ephemeral, pubkey, kex, hcomputes⟩ := hchecks.computes
  obtain ⟨ephemeral', signature, keyPair, kex', hcomputes'⟩ := Server.replies_computes hreplies
  have hreadable := hkeys keyPair hcomputes'.host
  obtain ⟨r₁, r₂, hblob, hephemeral⟩ := hcomputes.reads
  obtain ⟨r₃, hephemeral'⟩ := hcomputes'.reads
  rw [hcrosses.heard, hcomputes'.reply_eq] at hblob
  rw [← hcrosses.said, hinit] at hephemeral'
  obtain ⟨rfl, rfl⟩ := reply_read hreadable _ _ hblob hephemeral
  obtain rfl := init_read hephemeral'
  have hpubkey : pubkey.pushTo = keyPair.pushTo := hreadable.parsed pubkey hcomputes.parses
  have hclient : kex = ⟨none, some (scalarmult secret (scalarmultBase secret'))⟩ := by
    have hshares := hcomputes.shares
    simp only [Client.gathered, Exchange.new, List.nil_append, Algorithm.computeSharedSecret,
      toBytes32_toList] at hshares
    exact (Except.ok.inj hshares).symm
  have hserver : kex' = ⟨none, some (scalarmult secret' (scalarmultBase secret))⟩ := by
    have hshares := hcomputes'.shares
    rw [← hcrosses.said, hinit, Server.serverDh_eq _ _ rfl hephemeral', toBytes32_toList] at hshares
    exact (Prod.mk.inj (Except.ok.inj hshares)).1.symm
  have hshared : kex' = kex := by rw [hclient, hserver, LawfulSodium.scalarmult_comm]
  have hderives := hcomputes.derives
  have hderives' := hcomputes'.derives
  rw [hpubkey] at hderives
  rw [hshared] at hderives'
  refine hderives.mirrors ?_
  simp only [Client.gathered, Server.gathered, ← hcrosses.said, ← hcrosses.heard] at hderives' ⊢
  exact hderives'

/-- A client and a server that have exchanged the packets of a round derive their keys from
one hash. -/
theorem scripts_match [LawfulSodium] (clientConfig : Client.Config) {serverConfig : Server.Config}
    (hkeys : ∀ key ∈ serverConfig.keys, key.Readable) :
    (Client.script clientConfig serverConfig.serverId serverConfig.preferred).Matches
      (Server.script serverConfig clientConfig.clientId clientConfig.preferred) where
  role := rfl
  pref := rfl
  pref' := rfl
  mirrors id r r' hdeals hdeals' hcrosses := by
    obtain ⟨secret, names, hinit, -, hchecks⟩ := hdeals
    obtain ⟨names', key, secret', -, hreplies⟩ := hdeals'
    exact deals_mirror hkeys hinit hchecks hreplies hcrosses

end Thrussh
