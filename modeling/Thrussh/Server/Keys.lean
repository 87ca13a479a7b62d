import Thrussh.Select
import Thrussh.Server.Exchange

/-!
# The server's choice of a host key

`read_kex` chooses a name from the client's list and `preferred.key`, without
a look at the keys that the server has, and `server_parse` then looks for a
key of that name. The two agree with the documented choice, the first key
pair in the client's order, if and only if the name that is chosen first
belongs to a key.
-/

namespace Thrussh.Server

open Lib

/-- The host key algorithms in a KEXINIT. -/
def hostKeyNames (buf : Bytes) : Except Fault (List Bytes) := do
  let (_, r) ← (reader buf 17).readString
  let (names, _) ← r.readString
  .ok (names.splitOn 44)

/-- A KEXINIT with these host key algorithms, acceptable but perhaps for them:
with some other list of preferred host key algorithms it is read. -/
structure Acceptable (pref : Preferred) (buf : Bytes) (names : List Bytes) : Prop where
  /-- It is a KEXINIT. -/
  head : buf.head? = some msg.KEXINIT
  /-- Its host key algorithms. -/
  reads : hostKeyNames buf = .ok names
  /-- Everything else in it is acceptable. -/
  otherwise : ∃ (pref' : Preferred) (found : Names), pref'.kex = pref.kex ∧
    pref'.cipher = pref.cipher ∧ pref'.mac = pref.mac ∧ pref'.compression = pref.compression ∧
    readKex .server buf pref' = .ok found

/-- A name that both sides accept and for which the server has a key. -/
def Shared (config : Config) (names : List Bytes) (name : Bytes) : Prop :=
  name ∈ config.preferred.key ∧ name ∈ names ∧ ∃ key ∈ config.keys, key.name = name

instance (config : Config) (names : List Bytes) (name : Bytes) :
    Decidable (Shared config names name) :=
  inferInstanceAs (Decidable (_ ∧ _ ∧ _))

section
variable [Deps]

/-- What the documentation of `Config::keys` promises: if there is a key of a
name that both sides accept, the exchange goes on with the first of them in
the client's order, and it fails only if there is none. -/
def ChoosesKey (k : KexInit) (config : Config) (cipher : CipherPair) (buf : Bytes)
    (cookie : Vector UInt8 16) (b : SSHBuffer) (names : List Bytes) : Prop :=
  ((∃ name, Shared config names name) →
    ∃ kexdh b' key, k.serverParse config cipher buf cookie b = .ok (.kexDh kexdh) b' ∧
      config.keys[kexdh.key]? = some key ∧
      (names.find? fun name => Shared config names name) = some key.name) ∧
  ∀ e b', k.serverParse config cipher buf cookie b = .error e b' →
    ¬ ∃ name, Shared config names name

/-- Whether the first name of the client's list that is preferred belongs to a key. -/
def FirstHasKey (config : Config) (names : List Bytes) : Prop :=
  ∀ name, chosen names config.preferred.key = some name → ∃ key ∈ config.keys, key.name = name

section
variable {pref pref' : Preferred} {buf : Bytes} {names : List Bytes} {found : Names}

omit [Deps] in
/-- A KEXINIT that is acceptable but for the host key is read with the chosen
host key algorithm, if there is one. -/
theorem readKex_chosen (h : Acceptable pref buf names) : match chosen names pref.key with
    | some name => ∃ found, readKex .server buf pref = .ok found ∧ found.key = name
    | none => ∃ e, readKex .server buf pref = .error e := by
  obtain ⟨pref', found, hkexList, hcipherList, hmacList, hcompressionList, hfound⟩ := h.otherwise
  unfold readKex at hfound
  obtain ⟨⟨kexString, r₁⟩, hkexRead, hfound⟩ := ok_of_bind hfound
  obtain ⟨⟨kexFirst, kex⟩, hkex, hfound⟩ := ok_of_bind hfound
  obtain ⟨⟨keyString, r₂⟩, hkeyRead, hfound⟩ := ok_of_bind hfound
  obtain ⟨⟨keyFirst, key⟩, -, hfound⟩ := ok_of_bind hfound
  obtain ⟨⟨cipherString, r₃⟩, hcipherRead, hfound⟩ := ok_of_bind hfound
  obtain ⟨⟨cipherFirst, cipher⟩, hcipher, hfound⟩ := ok_of_bind hfound
  obtain ⟨⟨_, r₄⟩, hcipherRead', hfound⟩ := ok_of_bind hfound
  obtain ⟨⟨macString, r₅⟩, hmacRead, hfound⟩ := ok_of_bind hfound
  obtain ⟨⟨_, r₆⟩, hmacRead', hfound⟩ := ok_of_bind hfound
  obtain ⟨⟨clientString, r₇⟩, hclientRead, hfound⟩ := ok_of_bind hfound
  obtain ⟨⟨clientFirst, clientCompression⟩, hclient, hfound⟩ := ok_of_bind hfound
  obtain ⟨⟨serverString, r₈⟩, hserverRead, hfound⟩ := ok_of_bind hfound
  obtain ⟨⟨serverFirst, serverCompression⟩, hserver, hfound⟩ := ok_of_bind hfound
  obtain ⟨⟨_, r₉⟩, hlanguage, hfound⟩ := ok_of_bind hfound
  obtain ⟨⟨_, r₁₀⟩, hlanguage', hfound⟩ := ok_of_bind hfound
  obtain ⟨⟨follows, r₁₁⟩, hfollows, -⟩ := ok_of_bind hfound
  have hreads := h.reads
  unfold hostKeyNames at hreads
  simp only [hkexRead, hkeyRead, bind, Except.bind, Except.ok.injEq] at hreads
  rw [hkexList] at hkex
  rw [hcipherList] at hcipher
  rw [hcompressionList] at hclient hserver
  have hselect : select .server pref.key keyString =
      (chosen names pref.key).map fun name =>
        (true && decide (names.head? = pref.key.head?), name) := by
    rw [← hreads]
    exact selectOuter_eq _ _ _
  unfold readKex
  cases hchosen : chosen names pref.key with
  | none =>
    have hkey : selectOr .noCommonKeyAlgo .server pref.key keyString =
        .error (.error .noCommonKeyAlgo) := by
      unfold selectOr
      rw [hselect, hchosen]
      rfl
    simp only [hkexRead, hkex, hkeyRead, hkey, bind, Except.bind]
    exact ⟨_, rfl⟩
  | some name =>
    have hkey : selectOr .noCommonKeyAlgo .server pref.key keyString =
        .ok (true && decide (names.head? = pref.key.head?), name) := by
      unfold selectOr
      rw [hselect, hchosen]
      rfl
    simp only [hkexRead, hkex, hkeyRead, hkey, hcipherRead, hcipher, hcipherRead', hmacRead,
      hmacRead', hclientRead, hclient, hserverRead, hserver, hlanguage, hlanguage', hfollows, bind,
      Except.bind]
    exact ⟨_, rfl, rfl⟩

omit [Deps] in
/-- A key of a name is found if there is one. -/
theorem findKey_some {keys : List KeyPair} {name : Bytes} {i : Nat}
    (h : findKey keys name = some i) : ∃ key, keys[i]? = some key ∧ key.name = name := by
  obtain ⟨hlt, hname, -⟩ := List.findIdx?_eq_some_iff_getElem.mp h
  exact ⟨keys[i], List.getElem?_eq_getElem hlt, by simpa using hname⟩

omit [Deps] in
theorem findKey_none {keys : List KeyPair} {name : Bytes} (h : findKey keys name = none) :
    ¬ ∃ key ∈ keys, key.name = name := by
  rintro ⟨key, hkey, hname⟩
  have hne := List.findIdx?_eq_none_iff.mp h key hkey
  simp only [hname, decide_true, Bool.true_eq_false] at hne

omit [Deps] in
/-- The first preferred name is the first shared one, if it has a key. -/
theorem first_shared {config : Config} {name : Bytes}
    (hchosen : chosen names config.preferred.key = some name)
    (hkey : ∃ key ∈ config.keys, key.name = name) :
    (names.find? fun n => Shared config names n) = some name := by
  obtain ⟨hname, before, after, hsplit, hbefore⟩ := List.find?_eq_some_iff_append.mp hchosen
  refine List.find?_eq_some_iff_append.mpr ⟨?_, before, after, hsplit, fun n hn => ?_⟩
  · have hmem : name ∈ names := by
      rw [hsplit]
      exact List.mem_append_right _ List.mem_cons_self
    have hpreferred : name ∈ config.preferred.key := by simpa using hname
    exact decide_eq_true ⟨hpreferred, hmem, hkey⟩
  · have hnot : n ∉ config.preferred.key := by simpa using hbefore n hn
    have hunshared : ¬ Shared config names n := fun h => hnot h.1
    simpa using hunshared

/-- What `server_parse` makes of an acceptable KEXINIT. -/
theorem serverParse_chosen (k : KexInit) (config : Config) (cipher : CipherPair)
    (cookie : Vector UInt8 16) (b : SSHBuffer) (h : Acceptable config.preferred buf names) :
    (∃ name i kexdh b', chosen names config.preferred.key = some name ∧
        findKey config.keys name = some i ∧ kexdh.key = i ∧
        k.serverParse config cipher buf cookie b = .ok (.kexDh kexdh) b') ∨
      (∀ name, chosen names config.preferred.key = some name → findKey config.keys name = none) ∧
        ∃ e b', k.serverParse config cipher buf cookie b = .error e b' := by
  have hread := readKex_chosen h
  cases hchosen : chosen names config.preferred.key with
  | none =>
    rw [hchosen] at hread
    obtain ⟨e, herror⟩ := hread
    refine .inr ⟨fun name hname => ?_, ?_⟩
    · cases hname
    · cases hsent : k.sent with
      | true =>
        rw [serverParse_sent hsent config cipher h.head cookie b, herror]
        exact ⟨_, _, rfl⟩
      | false =>
        rw [serverParse_unsent hsent config cipher h.head cookie b, herror]
        exact ⟨_, _, rfl⟩
  | some name =>
    rw [hchosen] at hread
    obtain ⟨found, hfound, hkey⟩ := hread
    cases hfind : findKey config.keys name with
    | none =>
      refine .inr ⟨fun name' hname => ?_, ?_⟩
      · cases hname
        exact hfind
      · cases hsent : k.sent with
        | true =>
          rw [serverParse_sent hsent config cipher h.head cookie b, hfound]
          simp only [hkey, hfind]
          exact ⟨_, _, rfl⟩
        | false =>
          rw [serverParse_unsent hsent config cipher h.head cookie b, hfound]
          simp only [hkey, hfind]
          exact ⟨_, _, rfl⟩
    | some i =>
      refine .inl ?_
      cases hsent : k.sent with
      | true =>
        rw [serverParse_sent hsent config cipher h.head cookie b, hfound]
        simp only [hkey, hfind]
        exact ⟨name, i, _, _, rfl, hfind, rfl, rfl⟩
      | false =>
        rw [serverParse_unsent hsent config cipher h.head cookie b, hfound]
        simp only [hkey, hfind]
        exact ⟨name, i, _, _, rfl, hfind, rfl, rfl⟩

end

/-- The server chooses a key as documented if and only if the first preferred
name of the client's list belongs to a key, or no shared name does. -/
theorem choosesKey_iff (k : KexInit) (config : Config) (cipher : CipherPair) {buf : Bytes}
    (cookie : Vector UInt8 16) (b : SSHBuffer) {names : List Bytes}
    (h : Acceptable config.preferred buf names) :
    ChoosesKey k config cipher buf cookie b names ↔
      FirstHasKey config names ∨ ¬ ∃ name, Shared config names name := by
  rcases serverParse_chosen k config cipher cookie b h with
    ⟨name, i, kexdh, b', hchosen, hfind, hi, hparse⟩ | ⟨hnone, e, b', hparse⟩
  · obtain ⟨key, hget, hname⟩ := findKey_some hfind
    have hkey : ∃ key ∈ config.keys, key.name = name := ⟨key, List.mem_of_getElem? hget, hname⟩
    constructor
    · refine fun _ => .inl fun name' hname' => ?_
      rw [hchosen, Option.some.injEq] at hname'
      rw [← hname']
      exact hkey
    · refine fun _ => ⟨fun _ => ⟨kexdh, b', key, hparse, by rw [hi]; exact hget, ?_⟩, ?_⟩
      · rw [hname]
        exact first_shared hchosen hkey
      · intro e b'' herror
        rw [hparse] at herror
        cases herror
  · have hnot : ¬ FirstHasKey config names ∨ ¬ ∃ name, Shared config names name := by
      cases hchosen : chosen names config.preferred.key with
      | none =>
        refine .inr ?_
        rintro ⟨name, hpreferred, hmem, -⟩
        have habsent := List.find?_eq_none.mp hchosen name hmem
        exact habsent (decide_eq_true hpreferred)
      | some name => exact .inl fun hfirst => findKey_none (hnone name hchosen) (hfirst name hchosen)
    constructor
    · exact fun hchooses => .inr (hchooses.2 e b' hparse)
    · intro hcondition
      have hunshared : ¬ ∃ name, Shared config names name := by
        rcases hcondition with hfirst | hunshared
        · exact hnot.resolve_left fun hnotFirst => hnotFirst hfirst
        · exact hunshared
      exact ⟨fun hshared => absurd hshared hunshared, fun _ _ _ => hunshared⟩

end

/-- The KEXINIT of a client with the default algorithms. -/
theorem acceptable_kexinit : Acceptable .default Concrete.kexinit Preferred.default.key := by
  have hread : hostKeyNames Concrete.kexinit = .ok Preferred.default.key := by
    decide +kernel
  have hsome : (readKex .server Concrete.kexinit .default).toOption.isSome = true := by
    decide +kernel
  exact ⟨by decide +kernel, hread, .default, _, rfl, rfl, rfl, rfl, Concrete.returned_spec _ hsome⟩

/-- A server that has an Ed25519 key chooses it. -/
theorem choosesKey_ed25519 :
    letI := Concrete.deps
    ChoosesKey ⟨none, .new, none, true⟩ Concrete.serverConfig clearPair Concrete.kexinit
      (Vector.replicate 16 0) .new Preferred.default.key := by
  let _ := Concrete.deps
  refine (choosesKey_iff ⟨none, .new, none, true⟩ Concrete.serverConfig clearPair
    (Vector.replicate 16 0) .new acceptable_kexinit).mpr (.inl fun name hname => ?_)
  have hfirst : chosen Preferred.default.key Concrete.serverConfig.preferred.key =
      some ed25519Name := by
    decide
  rw [hfirst, Option.some.injEq] at hname
  exact ⟨_, List.mem_singleton_self _, hname⟩

/-- A server with an RSA key only, and the default algorithms: the client also
accepts RSA keys, but the exchange fails. -/
theorem rsaKey_unknown :
    letI := Concrete.deps
    let config : Config := { Concrete.serverConfig with keys := [.rsa [1] [2] [3] .sha2_256] }
    Acceptable config.preferred Concrete.kexinit Preferred.default.key ∧
      Shared config Preferred.default.key (SignatureHash.name .sha2_256) ∧
      (match KexInit.serverParse ⟨none, .new, none, true⟩ config clearPair Concrete.kexinit
          (Vector.replicate 16 0) .new with
        | .ok .. => none
        | .error e _ => some e) = some (.error .unknownKey) := by
  let _ := Concrete.deps
  exact ⟨acceptable_kexinit, by decide +kernel, by decide +kernel⟩

end Thrussh.Server
