import Thrussh.Turn

/-!
# Phases of a key exchange

Both roles take a session through the same phases: idle, waiting for the
peer's KEXINIT, in the Diffie-Hellman exchange, waiting for the peer's
NEWKEYS, and idle again. `Advance` is what one packet of an exchange makes
of a session, seen from its phase and from what it seals; `Aborts` is what a
failing packet leaves.
-/

namespace Thrussh

open Lib

/-- How far a session is with a key exchange. -/
inductive Phase where
  /-- No exchange is in progress, and one can start. -/
  | idle
  /-- The own KEXINIT is sent. -/
  | waiting
  /-- Both KEXINITs are exchanged. -/
  | dh
  /-- The own NEWKEYS is sent. -/
  | newKeys
  /-- No exchange is in progress, and none can start. -/
  | lost
  deriving DecidableEq, Repr

/-- The phase of a key exchange in progress. -/
def Kex.phase : Kex → Phase
  | .kexInit _ => .waiting
  | .kexDh _ => .dh
  | .kexDhDone _ => .dh
  | .newKeys _ => .newKeys

/-- What a key exchange in progress can be in a role, between two packets. -/
def Kex.Fits : Role → Kex → Prop
  | _, .kexInit k => k.sent = true ∧ k.algo = none
  | .server, .kexDh _ => True
  | .client, .kexDhDone _ => True
  | _, .newKeys _ => True
  | _, _ => False

variable [Deps] {C : Type}

/-- The phase of an encrypted session. -/
def Encrypted.phase (enc : Encrypted) : Phase :=
  match enc.rekey with
  | some k => k.phase
  | none => if enc.exchange.isSome then .idle else .lost

/-- The exchange in progress: the first one, or a re-exchange. -/
def CommonSession.exchanging (s : CommonSession C) : Option Kex :=
  match s.encrypted with
  | none => s.kex
  | some enc => enc.rekey

/-- Put an exchange back, where the source takes it from. -/
def CommonSession.setExchanging (s : CommonSession C) (k : Kex) : CommonSession C :=
  match s.encrypted with
  | none => { s with kex := some k }
  | some enc => { s with encrypted := some { enc with rekey := some k } }

/-- The phase of a session. -/
def CommonSession.phase (s : CommonSession C) : Phase :=
  match s.encrypted with
  | none =>
    match s.kex with
    | some k => k.phase
    | none => .lost
  | some enc => enc.phase

theorem exchanging_none {s : CommonSession C} (h : s.encrypted = none) : s.exchanging = s.kex := by
  simp only [CommonSession.exchanging, h]

theorem exchanging_some {s : CommonSession C} {enc : Encrypted} (h : s.encrypted = some enc) :
    s.exchanging = enc.rekey := by
  simp only [CommonSession.exchanging, h]

theorem setExchanging_none {s : CommonSession C} (h : s.encrypted = none) (k : Kex) :
    s.setExchanging k = { s with kex := some k } := by
  simp only [CommonSession.setExchanging, h]

theorem setExchanging_some {s : CommonSession C} {e : Encrypted} (h : s.encrypted = some e)
    (k : Kex) :
    s.setExchanging k = { s with encrypted := some { e with rekey := some k } } := by
  simp only [CommonSession.setExchanging, h]

/-- A session in an exchange is in the phase of that exchange. -/
theorem phase_of_exchanging {s : CommonSession C} {k : Kex} (h : s.exchanging = some k) :
    s.phase = k.phase := by
  unfold CommonSession.phase
  cases henc : s.encrypted with
  | none =>
    rw [exchanging_none henc] at h
    simp only [h]
  | some enc =>
    rw [exchanging_some henc] at h
    simp only [Encrypted.phase, h]

@[simp] theorem exchanging_setExchanging (s : CommonSession C) (k : Kex) :
    (s.setExchanging k).exchanging = some k := by
  cases henc : s.encrypted with
  | none =>
    rw [setExchanging_none henc]
    exact exchanging_none henc
  | some enc =>
    rw [setExchanging_some henc]
    rfl

omit [Deps] in
/-- An exchange in progress waits for a packet. -/
theorem Kex.phase_cases (k : Kex) : k.phase = .waiting ∨ k.phase = .dh ∨ k.phase = .newKeys := by
  cases k <;> simp [Kex.phase]

/-- Moving an exchange on leaves what a session stands at, and its request. -/
theorem setExchanging_standing (s : CommonSession C) (k : Kex) :
    (s.setExchanging k).standing = s.standing ∧ (s.setExchanging k).authUser = s.authUser ∧
      (s.setExchanging k).authMethod = s.authMethod := by
  cases henc : s.encrypted with
  | none =>
    rw [setExchanging_none henc]
    exact ⟨by simp only [CommonSession.standing, henc], rfl, rfl⟩
  | some enc =>
    rw [setExchanging_some henc]
    refine ⟨?_, rfl, rfl⟩
    simp only [CommonSession.standing, henc, Option.map_some]
    rfl

/-- Sealing packets of different origins, one after the other. -/
def SSHBuffer.sealEach (b : SSHBuffer) (pair : CipherPair) (packets : List (Origin × Bytes)) :
    SSHBuffer :=
  packets.foldl (fun b p => b.sealed pair p.1 p.2) b

/-- What holds of every session between two events. -/
structure CommonSession.Sound [SessionConfig C] (s : CommonSession C) : Prop where
  /-- The exchange in progress is one of this role. -/
  fits : ∀ k, s.exchanging = some k → k.Fits (SessionConfig.role C)
  /-- The record of the last exchange is gone while a re-exchange is in progress. -/
  exclusive : ∀ enc, s.encrypted = some enc → enc.rekey.isSome → enc.exchange = none
  /-- The first exchange is over once the session is encrypted. -/
  first : s.encrypted.isSome → s.kex = none

/-- Whether a payload belongs to a key exchange. -/
def CommonSession.InExchange (s : CommonSession C) (buf : Bytes) : Prop :=
  s.encrypted = none ∨ buf.head? = some msg.KEXINIT ∨ s.phase = .dh ∨ s.phase = .newKeys

instance (s : CommonSession C) (buf : Bytes) : Decidable (s.InExchange buf) :=
  decidable_of_iff (s.encrypted.isNone = true ∨ buf.head? = some msg.KEXINIT ∨ s.phase = .dh ∨
    s.phase = .newKeys) (by rw [Option.isNone_iff_eq_none]; exact Iff.rfl)

/-- What a step of a key exchange leaves of `enc`. -/
def SameBut (e e' : Encrypted) : Prop :=
  e' = { e with rekey := e'.rekey, exchange := e'.exchange }

/-- What a step of a key exchange makes of a session under the pair in use:
it seals packets and changes the records of the exchange. -/
structure Seals (s t : CommonSession C) (packets : List (Origin × Bytes)) : Prop where
  /-- What can change. -/
  same : t = { s with
    encrypted := t.encrypted, kex := t.kex, tick := t.tick
    writeBuffer := s.writeBuffer.sealEach s.cipher packets }
  /-- What changes of `enc`. -/
  encrypted : Option.Rel SameBut s.encrypted t.encrypted
  /-- Every packet belongs to the exchange. -/
  isKex : ∀ p ∈ packets, p.1.isKex = true
  /-- There are two of them at most. -/
  short : packets.length ≤ 2

/-- A packet of a key exchange that fails leaves what the session stands at. -/
theorem Seals.standing_eq {s t : CommonSession C} {packets : List (Origin × Bytes)}
    (h : Seals s t packets) : t.standing = s.standing := by
  have henc := h.encrypted
  unfold CommonSession.standing
  generalize s.encrypted = a at henc
  generalize t.encrypted = b at henc
  cases henc with
  | none => rfl
  | some henc =>
    rw [Option.map_some, Option.map_some, henc]
    rfl

/-- Moving an exchange on seals packets and nothing else. -/
theorem seals_setExchanging (s : CommonSession C) (k : Kex) (tick : Nat)
    (packets : List (Origin × Bytes)) (hkex : ∀ p ∈ packets, p.1.isKex = true)
    (hshort : packets.length ≤ 2) :
    Seals s ({ s with
      writeBuffer := s.writeBuffer.sealEach s.cipher packets
      tick := tick }.setExchanging k) packets := by
  cases henc : s.encrypted with
  | none =>
    rw [setExchanging_none rfl]
    refine ⟨rfl, ?_, hkex, hshort⟩
    rw [henc]
    exact .none
  | some enc =>
    rw [setExchanging_some (e := enc) rfl]
    refine ⟨rfl, ?_, hkex, hshort⟩
    rw [henc]
    exact .some rfl

/-- Moving an exchange on leaves a sound session. -/
theorem CommonSession.Sound.setExchanging [SessionConfig C] {s : CommonSession C} (hs : s.Sound)
    {k k' : Kex} (hk : s.exchanging = some k) (hfits : k'.Fits (SessionConfig.role C))
    (b : SSHBuffer) (tick : Nat) :
    ({ s with writeBuffer := b, tick := tick }.setExchanging k').Sound := by
  refine ⟨?_, ?_, ?_⟩
  · intro k1 hk1
    rw [exchanging_setExchanging] at hk1
    cases hk1
    exact hfits
  · cases henc : s.encrypted with
    | none =>
      rw [setExchanging_none rfl]
      intro enc hnone
      cases hnone
    | some enc =>
      rw [exchanging_some henc] at hk
      rw [setExchanging_some (e := enc) rfl]
      intro enc' henc' _
      cases henc'
      exact hs.exclusive enc henc (by rw [hk]; rfl)
  · cases henc : s.encrypted with
    | none =>
      rw [setExchanging_none rfl]
      intro hnone
      cases hnone
    | some enc =>
      rw [setExchanging_some (e := enc) rfl]
      exact fun _ => hs.first (by rw [henc]; rfl)

/-- What the peer's NEWKEYS makes of a session: the new pair is in use, under
which at most the service request is sealed. -/
structure Installs (s t : CommonSession C) (bytes : Nat) (packets : List (Origin × Bytes)) :
    Prop where
  /-- What can change. -/
  same : t = { s with
    encrypted := t.encrypted, kex := none, tick := t.tick, cipher := t.cipher
    writeBuffer := SSHBuffer.sealEach { s.writeBuffer with bytes := bytes } t.cipher packets }
  /-- The pair is new. -/
  epoch : t.cipher.epoch = s.cipher.epoch + 1
  /-- Its keys are those of the exchange. -/
  pair : ∃ newkeys, s.exchanging = some (.newKeys newkeys) ∧
    t.cipher.remoteToLocal = newkeys.cipher.remoteToLocal
  /-- An encrypted session stays as it is, another one starts empty. -/
  encrypted : match s.encrypted with
    | none => ∃ enc', t.encrypted = some enc' ∧ enc'.write = [] ∧ enc'.writeCursor = 0 ∧
        enc'.emitted = [] ∧ (∀ id, enc'.channels id = none) ∧ enc'.deeds = []
    | some enc => ∃ enc', t.encrypted = some enc' ∧ enc' = { enc with
        rekey := none, exchange := enc'.exchange, kex := enc'.kex, key := enc'.key, mac := enc'.mac
        lastRekey := enc'.lastRekey }
  /-- Every packet is the service request. -/
  service : ∀ p ∈ packets, p.1 = .service ∧ p.2 ≠ []
  /-- There is one at most. -/
  short : packets.length ≤ 1

/-- What a packet of a key exchange makes of a session, if it is served. -/
inductive Advance (buf : Bytes) (s t : CommonSession C) : Prop where
  /-- A packet that the exchange does not need. -/
  | skip (h : t = s)
  /-- The peer's KEXINIT, awaited. -/
  | answer {packets : List (Origin × Bytes)} (hs : s.phase = .waiting) (ht : t.phase = .dh)
    (h : Seals s t packets) (hpackets : ∀ p ∈ packets, p.1 = .ecdhInit)
  /-- The peer's KEXINIT, which starts a re-exchange. -/
  | serve {payload : Bytes} (hs : s.phase = .idle) (ht : t.phase = .dh)
    (h : Seals s t [(.kexinit, payload)])
  /-- A wrong guess of the peer. -/
  | guess (hs : s.phase = .dh) (ht : t.phase = .dh) (h : Seals s t [])
  /-- The last packet of the Diffie-Hellman exchange. -/
  | finish {packets : List (Origin × Bytes)} (hs : s.phase = .dh) (ht : t.phase = .newKeys)
    (h : Seals s t packets) (hlast : packets.getLast? = some (.newkeys, [msg.NEWKEYS]))
    (hkeyed : ∃ newkeys, t.exchanging = some (.newKeys newkeys) ∧
      newkeys.cipher.remoteToLocal ≠ .clear)
  /-- The peer's NEWKEYS. -/
  | install {bytes : Nat} {packets : List (Origin × Bytes)} (hs : s.phase = .newKeys)
    (ht : t.phase = .idle) (h : Installs s t bytes packets)
  /-- A KEXINIT that comes too late: the exchange is dropped. -/
  | drop (henc : s.encrypted.isSome = true) (hbuf : buf.head? = some msg.KEXINIT)
    (hs : s.phase = .dh ∨ s.phase = .newKeys) (ht : t.phase = .lost) (h : Seals s t [])

/-- Installing a pair, with the number of bytes and the packets given. -/
theorem Advance.installs {s t : CommonSession C} {buf : Bytes} (bytes : Nat)
    (packets : List (Origin × Bytes)) (hs : s.phase = .newKeys) (ht : t.phase = .idle)
    (h : Installs s t bytes packets) : Advance buf s t :=
  .install hs ht h

end Thrussh
