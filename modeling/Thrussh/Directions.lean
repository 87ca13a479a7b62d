import Thrussh.Kex
import Thrussh.Select

/-!
# The lists of each direction

A KEXINIT holds ten name lists, two of them for the ciphers of the two
directions. `read_kex` takes its choice from the client-to-server list and
skips the other, whereas it reads both compression lists. So its cipher is the
agreed one of both directions exactly when the two lists agree on it.
-/

namespace Thrussh

open Lib

/-- The ten name lists of a KEXINIT and its byte `first_kex_packet_follows`. -/
structure KexInitLists where
  /-- Key exchange algorithms. -/
  kex : Bytes
  /-- Host key algorithms. -/
  key : Bytes
  /-- Ciphers, client to server. -/
  cipherToServer : Bytes
  /-- Ciphers, server to client. -/
  cipherToClient : Bytes
  /-- MACs, client to server. -/
  macToServer : Bytes
  /-- MACs, server to client. -/
  macToClient : Bytes
  /-- Compressions, client to server. -/
  compressionToServer : Bytes
  /-- Compressions, server to client. -/
  compressionToClient : Bytes
  /-- Languages, client to server. -/
  languagesToServer : Bytes
  /-- Languages, server to client. -/
  languagesToClient : Bytes
  /-- Whether a guessed packet follows. -/
  follows : UInt8
  deriving DecidableEq, Repr

/-- The lists of a KEXINIT, behind its type and its cookie. -/
def readLists (buffer : Bytes) : Except Fault KexInitLists := do
  let (kex, r) ← (reader buffer 17).readString
  let (key, r) ← r.readString
  let (cipherToServer, r) ← r.readString
  let (cipherToClient, r) ← r.readString
  let (macToServer, r) ← r.readString
  let (macToClient, r) ← r.readString
  let (compressionToServer, r) ← r.readString
  let (compressionToClient, r) ← r.readString
  let (languagesToServer, r) ← r.readString
  let (languagesToClient, r) ← r.readString
  let (follows, _) ← r.readByte
  .ok ⟨kex, key, cipherToServer, cipherToClient, macToServer, macToClient, compressionToServer,
    compressionToClient, languagesToServer, languagesToClient, follows⟩

/-- The two directions of a connection. -/
inductive Direction where
  | toServer | toClient
  deriving DecidableEq, Repr

/-- The cipher list of a direction. -/
def KexInitLists.cipher (lists : KexInitLists) : Direction → Bytes
  | .toServer => lists.cipherToServer
  | .toClient => lists.cipherToClient

/-- The client's names, of our table and the list the peer sent. -/
def clientNames (role : Role) (ours : List Bytes) (theirs : Bytes) : List Bytes :=
  match role with
  | .client => ours
  | .server => theirs.splitOn 44

/-- The server's names, of our table and the list the peer sent. -/
def serverNames (role : Role) (ours : List Bytes) (theirs : Bytes) : List Bytes :=
  match role with
  | .client => theirs.splitOn 44
  | .server => ours

/-- The first name of the client that the server has. -/
def agreed (role : Role) (ours : List Bytes) (theirs : Bytes) : Option Bytes :=
  chosen (clientNames role ours theirs) (serverNames role ours theirs)

/-- Whether the two sides have the same first name. -/
def SameFirst (role : Role) (ours : List Bytes) (theirs : Bytes) : Prop :=
  (clientNames role ours theirs).head? = (serverNames role ours theirs).head?

instance (role : Role) (ours : List Bytes) (theirs : Bytes) :
    Decidable (SameFirst role ours theirs) :=
  inferInstanceAs (Decidable ((clientNames role ours theirs).head? =
    (serverNames role ours theirs).head?))

/-- `select` finds the agreed name, and says whether the first names are the same. -/
theorem select_agreed (role : Role) (ours : List Bytes) (theirs : Bytes) :
    select role ours theirs =
      (agreed role ours theirs).map fun x => (decide (SameFirst role ours theirs), x) := by
  cases role with
  | client =>
    have hclient := selectOuter_eq (theirs.splitOn 44) ours true
    simp only [Bool.true_and] at hclient
    exact hclient
  | server =>
    have hserver := selectOuter_eq ours (theirs.splitOn 44) true
    simp only [Bool.true_and] at hserver
    exact hserver

/-- A choice that must succeed is the agreed name. -/
theorem selectOr_ok_iff {e : Error} {role : Role} {ours : List Bytes} {theirs x : Bytes}
    {first : Bool} : selectOr e role ours theirs = .ok (first, x) ↔
      agreed role ours theirs = some x ∧ first = decide (SameFirst role ours theirs) := by
  unfold selectOr
  rw [select_agreed]
  cases agreed role ours theirs with
  | none => simp
  | some y =>
    simp only [Option.map_some, Except.ok.injEq, Prod.mk.injEq, Option.some.injEq]
    constructor
    · rintro ⟨hfirst, hy⟩
      exact ⟨hy, hfirst.symm⟩
    · rintro ⟨hy, hfirst⟩
      exact ⟨hfirst.symm, hy⟩

/-- What `read_kex` makes of the lists of a KEXINIT. -/
structure Chooses (role : Role) (pref : Preferred) (lists : KexInitLists) (names : Names) : Prop
    where
  /-- The key exchange algorithm is agreed. -/
  kex : agreed role pref.kex lists.kex = some names.kex
  /-- The host key algorithm is agreed. -/
  key : agreed role pref.key lists.key = some names.key
  /-- The cipher comes from the client-to-server list. -/
  cipher : agreed role pref.cipher lists.cipherToServer = some names.cipher
  /-- The MAC is agreed, if there is one. -/
  mac : names.mac = agreed role pref.mac lists.macToServer
  /-- The compression of the client-to-server list. -/
  clientCompression : (agreed role pref.compression lists.compressionToServer).map
    Compression.fromString = some names.clientCompression
  /-- The compression of the server-to-client list. -/
  serverCompression : (agreed role pref.compression lists.compressionToClient).map
    Compression.fromString = some names.serverCompression
  /-- The guess that follows is wrong. -/
  ignoreGuessed : names.ignoreGuessed = (lists.follows ≠ 0 &&
    !(decide (SameFirst role pref.kex lists.kex) && decide (SameFirst role pref.key lists.key)))

/-- `read_kex` succeeds when the lists can be read and the choices be made. -/
theorem readKex_ok_iff (role : Role) (buffer : Bytes) (pref : Preferred) (names : Names) :
    readKex role buffer pref = .ok names ↔
      ∃ lists, readLists buffer = .ok lists ∧ Chooses role pref lists names := by
  constructor
  · intro h
    unfold readKex at h
    obtain ⟨⟨kex, r₁⟩, h₁, h⟩ := ok_of_bind h
    obtain ⟨⟨kexFirst, kexName⟩, hkex, h⟩ := ok_of_bind h
    obtain ⟨⟨key, r₂⟩, h₂, h⟩ := ok_of_bind h
    obtain ⟨⟨keyFirst, keyName⟩, hkey, h⟩ := ok_of_bind h
    obtain ⟨⟨cipher, r₃⟩, h₃, h⟩ := ok_of_bind h
    obtain ⟨⟨cipherFirst, cipherName⟩, hcipher, h⟩ := ok_of_bind h
    obtain ⟨⟨cipher', r₄⟩, h₄, h⟩ := ok_of_bind h
    obtain ⟨⟨mac, r₅⟩, h₅, h⟩ := ok_of_bind h
    obtain ⟨⟨mac', r₆⟩, h₆, h⟩ := ok_of_bind h
    obtain ⟨⟨client, r₇⟩, h₇, h⟩ := ok_of_bind h
    obtain ⟨⟨clientFirst, clientName⟩, hclient, h⟩ := ok_of_bind h
    obtain ⟨⟨server, r₈⟩, h₈, h⟩ := ok_of_bind h
    obtain ⟨⟨serverFirst, serverName⟩, hserver, h⟩ := ok_of_bind h
    obtain ⟨⟨language, r₉⟩, h₉, h⟩ := ok_of_bind h
    obtain ⟨⟨language', r₁₀⟩, h₁₀, h⟩ := ok_of_bind h
    obtain ⟨⟨follows, r₁₁⟩, h₁₁, h⟩ := ok_of_bind h
    have hlists : readLists buffer = .ok ⟨kex, key, cipher, cipher', mac, mac', client, server,
        language, language', follows⟩ := by
      simp only [readLists, h₁, h₂, h₃, h₄, h₅, h₆, h₇, h₈, h₉, h₁₀, h₁₁, bind, Except.bind]
    rw [selectOr_ok_iff] at hkex hkey hcipher hclient hserver
    cases h
    refine ⟨_, hlists, hkex.1, hkey.1, hcipher.1, ?_, ?_, ?_, ?_⟩
    · simp only [select_agreed, Option.map_map]
      exact Option.map_id'
    · rw [hclient.1, Option.map_some]
    · rw [hserver.1, Option.map_some]
    · rw [hkex.2, hkey.2]
  · rintro ⟨lists, hlists, h⟩
    unfold readLists at hlists
    obtain ⟨⟨kex, r₁⟩, h₁, hlists⟩ := ok_of_bind hlists
    obtain ⟨⟨key, r₂⟩, h₂, hlists⟩ := ok_of_bind hlists
    obtain ⟨⟨cipher, r₃⟩, h₃, hlists⟩ := ok_of_bind hlists
    obtain ⟨⟨cipher', r₄⟩, h₄, hlists⟩ := ok_of_bind hlists
    obtain ⟨⟨mac, r₅⟩, h₅, hlists⟩ := ok_of_bind hlists
    obtain ⟨⟨mac', r₆⟩, h₆, hlists⟩ := ok_of_bind hlists
    obtain ⟨⟨client, r₇⟩, h₇, hlists⟩ := ok_of_bind hlists
    obtain ⟨⟨server, r₈⟩, h₈, hlists⟩ := ok_of_bind hlists
    obtain ⟨⟨language, r₉⟩, h₉, hlists⟩ := ok_of_bind hlists
    obtain ⟨⟨language', r₁₀⟩, h₁₀, hlists⟩ := ok_of_bind hlists
    obtain ⟨⟨follows, r₁₁⟩, h₁₁, hlists⟩ := ok_of_bind hlists
    cases hlists
    obtain ⟨clientName, hclient, hclientName⟩ := Option.map_eq_some_iff.mp h.clientCompression
    obtain ⟨serverName, hserver, hserverName⟩ := Option.map_eq_some_iff.mp h.serverCompression
    have hselect : ∀ (e : Error) {ours : List Bytes} {theirs x : Bytes},
        agreed role ours theirs = some x →
        selectOr e role ours theirs = .ok (decide (SameFirst role ours theirs), x) :=
      fun e _ _ _ hx => selectOr_ok_iff.mpr ⟨hx, rfl⟩
    have hmac : (select role pref.mac mac).map Prod.snd = names.mac := by
      rw [h.mac, select_agreed, Option.map_map]
      exact Option.map_id'
    simp only [readKex, h₁, hselect _ h.kex, h₂, hselect _ h.key, h₃, hselect _ h.cipher, h₄, h₅,
      hmac, h₆, h₇, hselect _ hclient, h₈, hselect _ hserver, h₉, h₁₀, h₁₁, hclientName,
      hserverName, ← h.ignoreGuessed, bind, Except.bind]

/-- The key that is installed belongs to a cipher of that name. -/
def CipherKey.Named (name : Bytes) : CipherKey → Prop
  | .clear => False
  | .chacha20Poly1305 _ => name = chacha20poly1305

/-- The two keys that `compute_keys` installs belong to the cipher it is given. -/
theorem computeKeys_named [Deps] {kex : Algorithm} {sessionId hash : Bytes32} {cipher : Bytes}
    {isServer : Bool} {pair : CipherPair}
    (h : kex.computeKeys sessionId hash cipher isServer = .ok pair) :
    pair.localToRemote.Named cipher ∧ pair.remoteToLocal.Named cipher := by
  have hmake : ∀ {k : Bytes} {key : CipherKey}, makeCipher k = .ok key →
      ∃ chacha, key = .chacha20Poly1305 chacha := by
    intro k key hkey
    unfold makeCipher at hkey
    split at hkey
    · split at hkey
      · cases hkey
        exact ⟨_, rfl⟩
      · cases hkey
    · cases hkey
  unfold Algorithm.computeKeys at h
  by_cases hcipher : cipher = chacha20poly1305
  · rw [if_pos hcipher] at h
    obtain ⟨sealing, hsealing, h⟩ := ok_of_bind h
    obtain ⟨opening, hopening, h⟩ := ok_of_bind h
    cases h
    obtain ⟨k, rfl⟩ := hmake hsealing
    obtain ⟨k', rfl⟩ := hmake hopening
    exact ⟨hcipher, hcipher⟩
  · rw [if_neg hcipher] at h
    cases h

/-- The keys of an exchange do not open in the clear. -/
theorem KexDhDone.computeKeys_keyed [Deps] {k : KexDhDone} {hash : Bytes32} {isServer : Bool}
    {newkeys : NewKeys} (h : k.computeKeys hash isServer = .ok newkeys) :
    newkeys.cipher.remoteToLocal ≠ .clear := by
  unfold KexDhDone.computeKeys at h
  obtain ⟨pair, hpair, h⟩ := ok_of_bind h
  cases h
  have hnamed := (computeKeys_named hpair).2
  intro hclear
  rw [hclear] at hnamed
  exact hnamed

/-- The negotiation as a peer that has a list for each direction expects it. -/
structure Negotiates [Deps] (role : Role) (buffer : Bytes) (pref : Preferred) : Prop where
  /-- The cipher is the agreed one of either direction. -/
  cipher : ∀ names, readKex role buffer pref = .ok names → ∃ lists,
    readLists buffer = .ok lists ∧
      ∀ d, agreed role pref.cipher (lists.cipher d) = some names.cipher
  /-- It is the cipher of both keys that are installed. -/
  installed : ∀ names, readKex role buffer pref = .ok names →
    ∀ (kex : Algorithm) (sessionId hash : Bytes32) (isServer : Bool) (pair : CipherPair),
      kex.computeKeys sessionId hash names.cipher isServer = .ok pair →
        pair.localToRemote.Named names.cipher ∧ pair.remoteToLocal.Named names.cipher
  /-- A guess is ignored when it follows and the first names differ. -/
  guessed : ∀ names, readKex role buffer pref = .ok names → ∃ lists,
    readLists buffer = .ok lists ∧ (names.ignoreGuessed = true ↔ lists.follows ≠ 0 ∧
      (¬ SameFirst role pref.kex lists.kex ∨ ¬ SameFirst role pref.key lists.key))
  /-- A direction without a common cipher is refused. -/
  refused : ∀ lists d, readLists buffer = .ok lists →
    agreed role pref.cipher (lists.cipher d) = none → ∃ e, readKex role buffer pref = .error e

/-- Whether the lists that `read_kex` chooses from, ciphers from client to
server among them, all have a common name. -/
structure KexInitLists.Common (lists : KexInitLists) (role : Role) (pref : Preferred) : Prop where
  /-- A common key exchange algorithm. -/
  kex : (agreed role pref.kex lists.kex).isSome
  /-- A common host key algorithm. -/
  key : (agreed role pref.key lists.key).isSome
  /-- A common cipher from client to server. -/
  cipher : (agreed role pref.cipher lists.cipherToServer).isSome
  /-- A common compression from client to server. -/
  compressionToServer : (agreed role pref.compression lists.compressionToServer).isSome
  /-- A common compression from server to client. -/
  compressionToClient : (agreed role pref.compression lists.compressionToClient).isSome

/-- Whether the server-to-client ciphers lead to the same choice as the
client-to-server ciphers, for lists that have common names. -/
def OneCipher (role : Role) (buffer : Bytes) (pref : Preferred) : Prop :=
  ∀ lists, readLists buffer = .ok lists → lists.Common role pref →
    agreed role pref.cipher lists.cipherToClient = agreed role pref.cipher lists.cipherToServer

/-- A negotiation succeeds exactly on lists with common names. -/
theorem readKex_ok_iff_common {role : Role} {buffer : Bytes} {pref : Preferred}
    {lists : KexInitLists} (hlists : readLists buffer = .ok lists) :
    (∃ names, readKex role buffer pref = .ok names) ↔ lists.Common role pref := by
  constructor
  · rintro ⟨names, hnames⟩
    obtain ⟨lists', hlists', h⟩ := (readKex_ok_iff _ _ _ _).mp hnames
    have hsame : lists' = lists := by
      rw [hlists] at hlists'
      cases hlists'
      rfl
    subst hsame
    have hclient := congrArg Option.isSome h.clientCompression
    have hserver := congrArg Option.isSome h.serverCompression
    simp only [Option.isSome_map, Option.isSome_some] at hclient hserver
    constructor
    · rw [h.kex, Option.isSome_some]
    · rw [h.key, Option.isSome_some]
    · rw [h.cipher, Option.isSome_some]
    · exact hclient
    · exact hserver
  · intro h
    obtain ⟨kex, hkex⟩ := Option.isSome_iff_exists.mp h.kex
    obtain ⟨key, hkey⟩ := Option.isSome_iff_exists.mp h.key
    obtain ⟨cipher, hcipher⟩ := Option.isSome_iff_exists.mp h.cipher
    obtain ⟨client, hclient⟩ := Option.isSome_iff_exists.mp h.compressionToServer
    obtain ⟨server, hserver⟩ := Option.isSome_iff_exists.mp h.compressionToClient
    let names : Names := {
      kex := kex, key := key, cipher := cipher
      mac := agreed role pref.mac lists.macToServer
      serverCompression := Compression.fromString server
      clientCompression := Compression.fromString client
      ignoreGuessed := lists.follows ≠ 0 && !(decide (SameFirst role pref.kex lists.kex) &&
        decide (SameFirst role pref.key lists.key)) }
    have hchooses : Chooses role pref lists names := by
      refine ⟨hkex, hkey, hcipher, rfl, ?_, ?_, rfl⟩
      · rw [hclient, Option.map_some]
      · rw [hserver, Option.map_some]
    exact ⟨names, (readKex_ok_iff _ _ _ _).mpr ⟨lists, hlists, hchooses⟩⟩

/-- The negotiation serves both directions if and only if the ciphers from
server to client lead to the choice that is made of the ciphers from client to server. -/
theorem negotiates_iff [Deps] (role : Role) (buffer : Bytes) (pref : Preferred) :
    Negotiates role buffer pref ↔ OneCipher role buffer pref := by
  constructor
  · intro h lists hlists hcommon
    obtain ⟨names, hnames⟩ := (readKex_ok_iff_common hlists).mpr hcommon
    obtain ⟨lists', hlists', hcipher⟩ := h.cipher names hnames
    have hsame : lists' = lists := by
      rw [hlists] at hlists'
      cases hlists'
      rfl
    subst hsame
    have hclient := hcipher .toClient
    have hserver := hcipher .toServer
    exact hclient.trans hserver.symm
  · intro hone
    constructor
    · intro names hnames
      obtain ⟨lists, hlists, h⟩ := (readKex_ok_iff _ _ _ _).mp hnames
      have hcommon := (readKex_ok_iff_common hlists).mp ⟨names, hnames⟩
      have hclient := (hone lists hlists hcommon).trans h.cipher
      refine ⟨lists, hlists, fun d => ?_⟩
      cases d with
      | toServer => exact h.cipher
      | toClient => exact hclient
    · intro names _ kex sessionId hash isServer pair hpair
      exact computeKeys_named hpair
    · intro names hnames
      obtain ⟨lists, hlists, h⟩ := (readKex_ok_iff _ _ _ _).mp hnames
      refine ⟨lists, hlists, ?_⟩
      rw [h.ignoreGuessed]
      simp only [Bool.and_eq_true, decide_eq_true_eq, Bool.not_eq_true', Bool.and_eq_false_iff,
        decide_eq_false_iff_not]
    · intro lists d hlists hnone
      cases hread : readKex role buffer pref with
      | error e => exact ⟨e, rfl⟩
      | ok names =>
        -- all the choices were made, and the direction asked about has the same one
        have hcommon := (readKex_ok_iff_common hlists).mp ⟨names, hread⟩
        have hcipher := hcommon.cipher
        have hboth := hone lists hlists hcommon
        cases d with
        | toServer =>
          simp only [KexInitLists.cipher] at hnone
          rw [hnone] at hcipher
          cases hcipher
        | toClient =>
          simp only [KexInitLists.cipher] at hnone
          rw [← hboth, hnone] at hcipher
          cases hcipher

/-- A server that takes ChaCha20-Poly1305 to the client and AES to itself. -/
def Concrete.twoCiphers : Bytes :=
  msg.KEXINIT :: zeros 16 ++ nameList [curve25519] ++ nameList [ed25519Name] ++
    nameList [chacha20poly1305] ++ nameList [ascii "aes128-ctr"] ++ nameList [ascii "none"] ++
    nameList [ascii "none"] ++ nameList [ascii "none"] ++ nameList [ascii "none"] ++
    nameList [] ++ nameList [] ++ [0] ++ [0, 0, 0, 0]

/-- Its KEXINIT is accepted, by a client that has no cipher in common for one direction. -/
theorem negotiates_fails :
    ¬ @Negotiates Concrete.deps .client Concrete.twoCiphers Preferred.default := by
  intro h
  have hlists : readLists Concrete.twoCiphers = .ok ⟨curve25519, ed25519Name, chacha20poly1305,
      ascii "aes128-ctr", ascii "none", ascii "none", ascii "none", ascii "none", [], [], 0⟩ := by
    decide +kernel
  have hnone : agreed .client Preferred.default.cipher (ascii "aes128-ctr") = none := by
    decide +kernel
  have hok : (readKex .client Concrete.twoCiphers Preferred.default).toOption.isSome := by
    decide +kernel
  obtain ⟨e, he⟩ := @Negotiates.refused Concrete.deps _ _ _ h _ .toClient hlists hnone
  rw [he] at hok
  cases hok

end Thrussh
