import Thrussh.Concrete
import Thrussh.Exchanging
import Thrussh.Lib.Chain

/-!
# The derivation of the keys

The `compute_key` closure of `compute_keys` works on two thread-local
buffers that still hold what the other direction, or an earlier exchange,
left in them. Each is cleared before it is used, so the key depends only on
the exchange: it is `K1 || K2 || ...` of RFC 4253, section 7.2, up to the
first block with which there is enough, and for ChaCha20-Poly1305 that is
the length that the two ciphers can be made of.
-/

namespace Thrussh

open Deps Lib

/-- An mpint of RFC 4251: a string without leading zeros, except for one
before a digit whose first bit is set. -/
def mpint (s : Bytes) : Bytes :=
  let digits := s.dropWhile (· = 0)
  sshString (if digits.head?.any (128 ≤ ·) then 0 :: digits else digits)

example : mpint [0, 0, 200] = [0, 0, 0, 2, 0, 200] := by decide

/-- `BUFFER` and `KEY_BUF`, with what an earlier call left in them. -/
structure Scratch where
  /-- What is hashed. -/
  buffer : Bytes
  /-- The key that is extended. -/
  key : Bytes
  deriving DecidableEq

variable [Deps]

/-- What both hashes begin with: the cleared buffer gets the shared secret,
if there is one, and the exchange hash. -/
def Scratch.restart (kex : Algorithm) (hash : Bytes32) (s : Scratch) : Scratch :=
  let s := { s with buffer := [] }
  let s := match kex.sharedSecret with
    | some shared => { s with buffer := s.buffer ++ sshMpint shared.toList }
    | none => s
  { s with buffer := s.buffer ++ hash.toList }

/-- The hash of the buffer is appended to the key. -/
def Scratch.digest (s : Scratch) : Scratch :=
  { s with key := s.key ++ (sha256 s.buffer).toList }

/-- The `while` loop of `compute_key`; the fuel counts its tests. -/
def Scratch.extendKey (kex : Algorithm) (hash : Bytes32) (len : Nat) :
    Nat → Scratch → Option Scratch
  | 0, _ => none
  | fuel + 1, s =>
    if s.key.length < len then
      let s := s.restart kex hash
      let s := { s with buffer := s.buffer ++ s.key }
      s.digest.extendKey kex hash len fuel
    else some s

/-- The `compute_key` closure. -/
def Scratch.computeKey (kex : Algorithm) (sessionId hash : Bytes32) (c : UInt8) (len fuel : Nat)
    (s : Scratch) : Option Scratch :=
  let s := { s with key := [] }.restart kex hash
  let s := { s with buffer := s.buffer ++ [c] ++ sessionId.toList }
  s.digest.extendKey kex hash len fuel

/-- `Algorithm::compute_keys` on the two buffers. -/
def Scratch.computeKeys (kex : Algorithm) (sessionId hash : Bytes32) (cipher : Bytes)
    (isServer : Bool) (fuel : Nat) (s : Scratch) : Option (Except Fault CipherPair) :=
  if cipher = chacha20poly1305 then
    let (localToRemote, remoteToLocal) := if isServer then (68, 67) else (67, 68)
    match s.computeKey kex sessionId hash localToRemote chachaKeyLen fuel with
    | none => none
    | some s =>
      match makeCipher s.key with
      | .error e => some (.error e)
      | .ok localToRemote =>
        match s.computeKey kex sessionId hash remoteToLocal chachaKeyLen fuel with
        | none => none
        | some s =>
          match makeCipher s.key with
          | .error e => some (.error e)
          | .ok remoteToLocal => some (.ok ⟨localToRemote, remoteToLocal, 0⟩)
  else some (.error .panic)

/-! ### The blocks of RFC 4253 -/

/-- `K1`, ..., `Kn` of RFC 4253, section 7.2, for a secret, an exchange hash,
a letter and a session id. -/
def rfcBlocks (secret hash : Bytes) (letter : UInt8) (sessionId : Bytes) : Nat → List Bytes
  | 0 => []
  | 1 => [(sha256 (secret ++ hash ++ [letter] ++ sessionId)).toList]
  | n + 2 =>
    let blocks := rfcBlocks secret hash letter sessionId (n + 1)
    blocks ++ [(sha256 (secret ++ hash ++ blocks.flatten)).toList]

/-- The block that follows what there is of a key. -/
def Algorithm.nextBlock (kex : Algorithm) (sessionId hash : Bytes32) (c : UInt8) (key : Bytes) :
    Bytes :=
  if key = [] then (sha256 (kex.sharedMpint ++ hash.toList ++ c :: sessionId.toList)).toList
  else (sha256 (kex.sharedMpint ++ hash.toList ++ key)).toList

variable {kex : Algorithm} {sessionId hash : Bytes32} {c : UInt8} {len fuel : Nat}

theorem length_nextBlock (key : Bytes) :
    (kex.nextBlock sessionId hash c key).length = 32 := by
  unfold Algorithm.nextBlock
  split <;> simp

/-- A block is never empty, so only the first one is followed by another rule. -/
theorem chain_ne_nil (n : Nat) : chain (kex.nextBlock sessionId hash c) (n + 1) ≠ [] := by
  intro hnil
  have hlength : (chain (kex.nextBlock sessionId hash c) (n + 1)).length = 32 * (n + 1) :=
    length_chain length_nextBlock (n + 1)
  rw [hnil, List.length_nil] at hlength
  omega

/-- The chain of the code is the one of the RFC. -/
theorem chain_rfcBlocks (n : Nat) :
    chain (kex.nextBlock sessionId hash c) n =
      (rfcBlocks kex.sharedMpint hash.toList c sessionId.toList n).flatten := by
  induction n with
  | zero => rfl
  | succ n ih =>
    cases n with
    | zero => simp [chain, rfcBlocks, Algorithm.nextBlock]
    | succ n =>
      have hne : chain (kex.nextBlock sessionId hash c) (n + 1) ≠ [] := chain_ne_nil n
      rw [chain, Algorithm.nextBlock, if_neg hne, ih]
      simp only [rfcBlocks, List.flatten_append, List.flatten_cons, List.flatten_nil,
        List.append_nil]

/-! ### The loop on the buffers -/

theorem restart_eq (s : Scratch) :
    s.restart kex hash = ⟨kex.sharedMpint ++ hash.toList, s.key⟩ := by
  unfold Scratch.restart Algorithm.sharedMpint
  cases kex.sharedSecret with
  | none => rfl
  | some shared => rfl

/-- The loop extends the key, whatever the buffer holds. -/
theorem extendKey_key {s : Scratch} {key : Bytes} (hne : s.key ≠ [])
    (h : extend (kex.nextBlock sessionId hash c) len fuel s.key = some key) :
    ∃ buffer, s.extendKey kex hash len fuel = some ⟨buffer, key⟩ := by
  induction fuel generalizing s with
  | zero => cases h
  | succ fuel ih =>
    rw [extend] at h
    rw [Scratch.extendKey]
    by_cases hshort : s.key.length < len
    · rw [if_pos hshort] at h ⊢
      have hblock : kex.nextBlock sessionId hash c s.key =
          (sha256 (kex.sharedMpint ++ hash.toList ++ s.key)).toList := by
        rw [Algorithm.nextBlock, if_neg hne]
      rw [hblock] at h
      rw [restart_eq]
      have hnext : s.key ++ (sha256 (kex.sharedMpint ++ hash.toList ++ s.key)).toList ≠ [] :=
        List.append_ne_nil_of_left_ne_nil hne _
      exact ih hnext h
    · rw [if_neg hshort] at h ⊢
      cases h
      exact ⟨s.buffer, rfl⟩

/-- The loop without the buffers, which is never short of fuel. -/
theorem extendKey_eq {l key : Bytes} (hne : l ≠ [])
    (h : extend (kex.nextBlock sessionId hash c) len (fuel + 1) l = some key) :
    extendKey kex hash len fuel l = key := by
  induction fuel generalizing l with
  | zero =>
    rw [extend] at h
    by_cases hshort : l.length < len
    · rw [if_pos hshort] at h
      cases h
    · rw [if_neg hshort] at h
      cases h
      rfl
  | succ fuel ih =>
    rw [extend] at h
    rw [extendKey]
    by_cases hshort : l.length < len
    · rw [if_pos hshort] at h ⊢
      rw [Algorithm.nextBlock, if_neg hne] at h
      exact ih (List.append_ne_nil_of_left_ne_nil hne _) h
    · rw [if_neg hshort] at h ⊢
      cases h
      rfl

/-- What is known of the key when the loop begins: its first block. -/
theorem firstBlock :
    (sha256 (kex.sharedMpint ++ hash.toList ++ c :: sessionId.toList)).toList =
      chain (kex.nextBlock sessionId hash c) 1 := by
  rw [chain, chain, List.nil_append, Algorithm.nextBlock, if_pos rfl]

/-- The closure ends with the least number of blocks that is enough. -/
theorem Scratch.computeKey_chain {least : Nat} (hleast : IsLeast {k | 1 ≤ k ∧ len ≤ 32 * k} least)
    (hfuel : least ≤ fuel) (s : Scratch) :
    ∃ buffer, s.computeKey kex sessionId hash c len fuel =
      some ⟨buffer, chain (kex.nextBlock sessionId hash c) least⟩ := by
  have hextend : extend (kex.nextBlock sessionId hash c) len fuel
      (chain (kex.nextBlock sessionId hash c) 1) =
        some (chain (kex.nextBlock sessionId hash c) least) :=
    extend_chain length_nextBlock hleast (by omega)
  have hne : chain (kex.nextBlock sessionId hash c) 1 ≠ [] := chain_ne_nil 0
  rw [← firstBlock] at hextend hne
  unfold computeKey
  rw [restart_eq]
  unfold digest
  simp only [List.nil_append, List.append_assoc, List.cons_append]
  simp only [List.append_assoc] at hextend hne
  exact extendKey_key hne hextend

/-- The key of the model is the one that the closure leaves. -/
theorem Algorithm.computeKey_chain {least : Nat}
    (hleast : IsLeast {k | 1 ≤ k ∧ len ≤ 32 * k} least) (hfuel : least ≤ max 1 len) :
    kex.computeKey sessionId hash c len = chain (kex.nextBlock sessionId hash c) least := by
  have hextend : extend (kex.nextBlock sessionId hash c) len (len + 1)
      (chain (kex.nextBlock sessionId hash c) 1) =
        some (chain (kex.nextBlock sessionId hash c) least) :=
    extend_chain length_nextBlock hleast (by omega)
  have hne : chain (kex.nextBlock sessionId hash c) 1 ≠ [] := chain_ne_nil 0
  rw [← firstBlock] at hextend hne
  exact extendKey_eq hne hextend

/-! ### The ciphers -/

omit [Deps] in
/-- The ciphers are made of 64 bytes, and of no other length. -/
theorem makeCipher_ok_iff (k : Bytes) : (∃ key, makeCipher k = .ok key) ↔ k.length = 64 := by
  constructor
  · rintro ⟨key, hkey⟩
    unfold makeCipher at hkey
    by_cases hdrop : (k.drop 32).length = 32
    · rw [List.length_drop] at hdrop
      omega
    · rw [dif_neg hdrop] at hkey
      cases hkey
  · exact makeCipher_ok

/-- Both keys are computed in turn on the same buffers. -/
theorem Scratch.computeKeys_eq (isServer : Bool) (hfuel : 2 ≤ fuel) (s : Scratch) :
    s.computeKeys kex sessionId hash chacha20poly1305 isServer fuel =
      some (kex.computeKeys sessionId hash chacha20poly1305 isServer) := by
  have hleast : IsLeast {k | 1 ≤ k ∧ chachaKeyLen ≤ 32 * k} 2 := by
    constructor
    · exact ⟨by omega, Nat.le_refl _⟩
    · intro k hk
      have henough : 64 ≤ 32 * k := hk.2
      omega
  have hkey : ∀ c, ∀ s : Scratch, ∃ buffer,
      s.computeKey kex sessionId hash c chachaKeyLen fuel =
        some ⟨buffer, kex.computeKey sessionId hash c chachaKeyLen⟩ := by
    intro c s
    rw [Algorithm.computeKey_chain hleast (by decide)]
    exact computeKey_chain hleast hfuel s
  unfold computeKeys Algorithm.computeKeys
  rw [if_pos rfl, if_pos rfl]
  generalize (if isServer then ((68, 67) : UInt8 × UInt8) else (67, 68)) = letters
  obtain ⟨localToRemote, remoteToLocal⟩ := letters
  dsimp only
  obtain ⟨buffer, hlocal⟩ := hkey localToRemote s
  rw [hlocal]
  dsimp only
  cases hsealing : makeCipher (kex.computeKey sessionId hash localToRemote chachaKeyLen) with
  | error e => rfl
  | ok sealing =>
    dsimp only
    obtain ⟨buffer', hremote⟩ := hkey remoteToLocal
      ⟨buffer, kex.computeKey sessionId hash localToRemote chachaKeyLen⟩
    rw [hremote]
    dsimp only
    cases makeCipher (kex.computeKey sessionId hash remoteToLocal chachaKeyLen) with
    | error e => rfl
    | ok opening => rfl

/-- Keys of a secret, an exchange hash and a session id are those of RFC 4253. -/
structure Algorithm.DerivesKeys (kex : Algorithm) (secret : Bytes) (sessionId hash : Bytes32) :
    Prop where
  /-- The closure ends, whatever the buffers hold, with the least number of
  blocks that is enough. -/
  derives : ∀ c len, ∃ n, IsLeast {k | 0 < k ∧ len ≤ 32 * k} n ∧
    (∀ fuel, n ≤ fuel → ∀ s : Scratch, ∃ buffer,
      s.computeKey kex sessionId hash c len fuel =
        some ⟨buffer, (rfcBlocks secret hash.toList c sessionId.toList n).flatten⟩) ∧
    kex.computeKey sessionId hash c len =
      (rfcBlocks secret hash.toList c sessionId.toList n).flatten
  /-- The ciphers can be made of keys of the length that is derived, and of no other. -/
  splits : ∀ c k, (∃ key, makeCipher k = .ok key) ↔
    k.length = (kex.computeKey sessionId hash c chachaKeyLen).length
  /-- Both keys are derived on the same buffers, and the ciphers made of them. -/
  installs : ∀ isServer fuel, 2 ≤ fuel → ∀ s : Scratch, ∃ pair,
    s.computeKeys kex sessionId hash chacha20poly1305 isServer fuel = some (.ok pair) ∧
      kex.computeKeys sessionId hash chacha20poly1305 isServer = .ok pair

/-- The keys that are installed are derived as the RFC says. -/
theorem computeKeys_rfc (hmpint : ∀ s, sshMpint s = mpint s) (localSecret : Option Bytes32)
    (shared sessionId hash : Bytes32) :
    Algorithm.DerivesKeys ⟨localSecret, some shared⟩ (mpint shared.toList) sessionId hash := by
  have hshared : Algorithm.sharedMpint ⟨localSecret, some shared⟩ = mpint shared.toList :=
    hmpint shared.toList
  constructor
  · intro c len
    have hexists : ∃ n, IsLeast {k | 1 ≤ k ∧ len ≤ 32 * k} n ∧ n ≤ max 1 len :=
      exists_least (by omega) 1 len
    obtain ⟨n, hleast, hle⟩ := hexists
    refine ⟨n, hleast, ?_⟩
    rw [← hshared, ← chain_rfcBlocks]
    constructor
    · exact fun fuel hfuel s => Scratch.computeKey_chain hleast hfuel s
    · exact Algorithm.computeKey_chain hleast hle
  · intro c k
    have hlength : (Algorithm.computeKey ⟨localSecret, some shared⟩ sessionId hash c
        chachaKeyLen).length = 64 := length_computeKey _ _ _ _
    rw [hlength]
    exact makeCipher_ok_iff k
  · intro isServer fuel hfuel s
    obtain ⟨pair, hpair⟩ := algorithmKeys_ok ⟨localSecret, some shared⟩ sessionId hash isServer
    refine ⟨pair, ?_, hpair⟩
    rw [Scratch.computeKeys_eq isServer hfuel s, hpair]

end Thrussh

namespace Thrussh.Concrete

/-- The transparent libraries, with mpints as they are defined. -/
@[reducible] def mpintDeps : Deps := { deps with sshMpint := mpint }

/-- With a secret whose first bit is set, and a second block in each key. -/
theorem computeKeys_rfc_deps :
    letI := mpintDeps
    Algorithm.DerivesKeys ⟨none, some (Vector.replicate 32 200)⟩
      (0 :: 0 :: 0 :: 33 :: 0 :: List.replicate 32 200) (Vector.replicate 32 1)
      (Vector.replicate 32 2) :=
  @computeKeys_rfc mpintDeps (fun _ => rfl) none (Vector.replicate 32 200) (Vector.replicate 32 1)
    (Vector.replicate 32 2)

end Thrussh.Concrete
