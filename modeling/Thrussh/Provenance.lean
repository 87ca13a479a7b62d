import Thrussh.Client.Authentic

/-!
# Where the record of an exchange comes from

Along every run of either role the session id is the first exchange hash that
the run computes, every exchange in progress carries it, and the record of a
re-exchange holds what has been sealed and received since that re-exchange
began. What the steps of a session outside the exchange keep of this is the
same in both roles; each role adds the packets of its own exchange.
-/

namespace Thrussh

open Deps Lib

/-- The session of an act. -/
def Act.session {S M : Type} : Act S M → S
  | .reply s _ => s
  | .message s _ => s

/-- Whether an exchange in this phase still gathers what it hashes. -/
def Phase.gathers : Phase → Bool
  | .waiting => true
  | .dh => true
  | _ => false

/-- The session id that an exchange carries. -/
def Kex.sessionId : Kex → Option Bytes32
  | .kexInit k => k.sessionId
  | .kexDh k => k.sessionId
  | .kexDhDone k => k.sessionId
  | .newKeys k => some k.sessionId

/-- A role's own KEXINIT in a record. -/
def Exchange.ownKexInit (ex : Exchange) : Role → Bytes
  | .client => ex.clientKexInit
  | .server => ex.serverKexInit

/-- The peer's KEXINIT in a record. -/
def Exchange.peerKexInit (ex : Exchange) : Role → Bytes
  | .client => ex.serverKexInit
  | .server => ex.clientKexInit

variable [Deps] {C S M : Type}

/-- What an exchange hashes: the secrets, the record and the host key. -/
structure Hashing where
  /-- The secrets. -/
  kex : Algorithm
  /-- The record. -/
  exchange : Exchange
  /-- The host key as it is pushed. -/
  hostKey : Bytes

/-- The exchange hash. -/
def Hashing.hash (h : Hashing) : Bytes32 := h.kex.computeExchangeHash h.hostKey h.exchange

/-- The first exchange hash that is computed in the course of some acts. -/
def firstHash (hashing : S → Bytes → Option Hashing) (acts : List (Act S M)) : Option Bytes32 :=
  (acts.filterMap fun
    | .reply s buf => (hashing s buf).map Hashing.hash
    | .message _ _ => none).head?

/-- The session id of a session that is encrypted. -/
def CommonSession.sessionId (s : CommonSession C) : Option Bytes32 :=
  s.encrypted.map (·.sessionId)

/-- Whether a packet has been sealed after the first ones. -/
def CommonSession.SealedSince (s : CommonSession C) (n : Nat) (origin : Origin) (payload : Bytes) :
    Prop :=
  ∃ r ∈ s.writeBuffer.history.drop n, r.origin = origin ∧ r.payload = payload

/-- The acts of the exchange in progress: those since the last one in whose
session no exchange gathered anything. -/
def Driver.during (d : Driver C S M) (acts : List (Act S M)) : List (Act S M) :=
  acts.foldl (fun since act =>
    if (d.common act.session).phase.gathers then since ++ [act] else [act]) []

/-- How many packets had been sealed when these acts began. -/
def Driver.sealedBefore (d : Driver C S M) (acts : List (Act S M)) : Nat :=
  acts.head?.elim 0 fun act => (d.common act.session).writeBuffer.history.length

/-- What the record of a re-exchange holds in a phase: own packets sealed after
the first `n`, and packets received in the course of some acts. -/
def Gathers (role : Role) (during : List (Act S M)) (n : Nat) (s : CommonSession C) : Kex → Prop
  | .kexInit k => s.SealedSince n .kexinit (k.exchange.ownKexInit role) ∧
      k.exchange.peerKexInit role = [] ∧ k.exchange.clientEphemeral = [] ∧
      k.exchange.serverEphemeral = []
  | .kexDh k => s.SealedSince n .kexinit k.exchange.serverKexInit ∧
      k.exchange.clientKexInit ∈ heard during ∧
      k.exchange.clientKexInit.head? = some msg.KEXINIT ∧ k.exchange.clientEphemeral = []
  | .kexDhDone k => s.SealedSince n .kexinit k.exchange.clientKexInit ∧
      k.exchange.serverKexInit ∈ heard during ∧
      k.exchange.serverKexInit.head? = some msg.KEXINIT ∧ k.exchange.serverEphemeral = [] ∧
      ∃ secret, k.exchange.clientEphemeral = (scalarmultBase secret).toList ∧
        s.SealedSince n .ecdhInit (ecdhInit secret)
  | .newKeys _ => True

/-- What a step outside of the exchange makes of its record. -/
inductive Carries (role : Role) (s t : CommonSession C) : Prop where
  /-- The exchange goes on. -/
  | same (hexchanging : t.exchanging = s.exchanging) (hid : t.sessionId = s.sessionId)
    (hhistory : s.writeBuffer.history <+: t.writeBuffer.history)
  /-- A re-exchange begins. -/
  | begins {id : Bytes32} {k : KexInit} (hnone : s.exchanging = none)
    (hk : t.exchanging = some (.kexInit k)) (hs : s.sessionId = some id)
    (ht : t.sessionId = some id) (hid : k.sessionId = some id)
    (hhistory : s.writeBuffer.history <+: t.writeBuffer.history)
    (hgathers : Gathers role ([] : List (Act Unit Unit)) s.writeBuffer.history.length t (.kexInit k))

/-- What is known of the record and of the session id after some acts. -/
structure Provenance (d : Driver C S M) (role : Role) (hashing : S → Bytes → Option Hashing)
    (acts : List (Act S M)) (s : CommonSession C) : Prop where
  /-- The session id is the first exchange hash. -/
  id : ∀ id, s.sessionId = some id → firstHash hashing acts = some id
  /-- An exchange in progress carries it. -/
  carried : ∀ k, s.exchanging = some k → k.sessionId = firstHash hashing acts
  /-- What a re-exchange has gathered is its own. -/
  gathers : ∀ k, s.encrypted.isSome = true → s.exchanging = some k →
    Gathers role (d.during acts) (d.sealedBefore (d.during acts)) s k
  /-- The exchange began in the past. -/
  began : d.sealedBefore (d.during acts) ≤ s.writeBuffer.history.length

section
variable {role : Role} {s t u : CommonSession C} {n m : Nat} {origin : Origin} {payload : Bytes}

theorem CommonSession.SealedSince.grow (h : s.SealedSince n origin payload)
    (hhistory : s.writeBuffer.history <+: t.writeBuffer.history) :
    t.SealedSince n origin payload := by
  obtain ⟨r, hr, hpacket⟩ := h
  obtain ⟨new, hnew⟩ := hhistory
  refine ⟨r, ?_, hpacket⟩
  rw [← hnew, List.drop_append]
  exact List.mem_append_left _ hr

/-- The packet sealed last has been sealed since. -/
theorem SealedSince.of_append {r : PacketRecord} (hn : n ≤ s.writeBuffer.history.length)
    {new : List PacketRecord} (ht : t.writeBuffer.history = s.writeBuffer.history ++ new)
    (hr : r ∈ new) : t.SealedSince n r.origin r.payload := by
  refine ⟨r, ?_, rfl, rfl⟩
  rw [ht, List.drop_append_of_le_length hn]
  exact List.mem_append_right _ hr

/-- What is sealed later is sealed since. -/
theorem CommonSession.SealedSince.mono (h : s.SealedSince n origin payload) (hm : m ≤ n) :
    s.SealedSince m origin payload := by
  obtain ⟨r, hr, hpacket⟩ := h
  have hsuffix : s.writeBuffer.history.drop n <:+ s.writeBuffer.history.drop m := by
    obtain ⟨k, rfl⟩ := Nat.exists_eq_add_of_le hm
    rw [← List.drop_drop]
    exact List.drop_suffix _ _
  exact ⟨r, hsuffix.subset hr, hpacket⟩

/-- What has been gathered stays so. -/
theorem Gathers.grow {S' M' : Type} {acts : List (Act S M)} {acts' : List (Act S' M')} {k : Kex}
    (h : Gathers role acts n s k) (hhistory : s.writeBuffer.history <+: t.writeBuffer.history)
    (hm : m ≤ n) (hheard : heard acts ⊆ heard acts') : Gathers role acts' m t k := by
  cases k with
  | kexInit k => exact ⟨(h.1.grow hhistory).mono hm, h.2⟩
  | kexDh k => exact ⟨(h.1.grow hhistory).mono hm, hheard h.2.1, h.2.2⟩
  | kexDhDone k =>
    obtain ⟨hown, hpeer, hhead, hserver, secret, hsecret, hsealed⟩ := h
    exact ⟨(hown.grow hhistory).mono hm, hheard hpeer, hhead, hserver, secret, hsecret,
      (hsealed.grow hhistory).mono hm⟩
  | newKeys k => exact trivial

/-- A re-exchange begins with the own KEXINIT in a record that is otherwise empty. -/
theorem gathers_begun (ex : Exchange) {id : Option Bytes32} {acts : List (Act S M)}
    (h : s.SealedSince n .kexinit payload) :
    Gathers role acts n s (.kexInit ⟨none, match role with
      | .client => { ex.cleared with clientKexInit := payload }
      | .server => { ex.cleared with serverKexInit := payload }, id, true⟩) := by
  cases role with
  | client => exact ⟨h, rfl, rfl, rfl⟩
  | server => exact ⟨h, rfl, rfl, rfl⟩

/-- Equal records are carried on. -/
theorem Carries.of_records (hkex : t.kex = s.kex)
    (henc : Option.Rel (fun e e' => e'.rekey = e.rekey ∧ e'.sessionId = e.sessionId)
      s.encrypted t.encrypted) (hhistory : s.writeBuffer.history <+: t.writeBuffer.history) :
    Carries role s t := by
  refine .same ?_ ?_ hhistory
  · unfold CommonSession.exchanging
    generalize s.encrypted = a at henc
    generalize t.encrypted = b at henc
    cases henc with
    | none => exact hkex
    | some henc => exact henc.1
  · unfold CommonSession.sessionId
    generalize s.encrypted = a at henc
    generalize t.encrypted = b at henc
    cases henc with
    | none => rfl
    | some henc => exact congrArg some henc.2

theorem Quiet.carries {P : Bytes → Prop} (h : Quiet P s t) : Carries role s t := by
  have hhistory : t.writeBuffer.history = s.writeBuffer.history := by rw [h.same]
  refine .of_records (by rw [h.same]) ?_ (by simp only [hhistory, List.prefix_rfl])
  have henc := h.encrypted
  generalize s.encrypted = a at henc
  generalize t.encrypted = b at henc
  cases henc with
  | none => exact .none
  | some henc => exact .some (by rw [henc.same]; exact ⟨rfl, rfl⟩)

theorem Staged.carries (h : Staged s t) : Carries role s t := by
  have hhistory : t.writeBuffer.history = s.writeBuffer.history := by rw [h.same]
  refine .of_records (by rw [h.same]) ?_ (by simp only [hhistory, List.prefix_rfl])
  have henc := h.encrypted
  generalize s.encrypted = a at henc
  generalize t.encrypted = b at henc
  cases henc with
  | none => exact .none
  | some henc => exact .some (by rw [henc.same]; exact ⟨rfl, rfl⟩)

/-- Sealing under the pair in use only adds to the history. -/
theorem sealAll_grows (b : SSHBuffer) (pair : CipherPair) (origin : Origin)
    (payloads : List Bytes) : b.history <+: (b.sealAll pair origin payloads).history := by
  obtain ⟨new, hnew, -⟩ := sealAll_history b pair origin payloads
  rw [hnew]
  exact List.prefix_append _ _

theorem sealEach_grows (b : SSHBuffer) (pair : CipherPair) (packets : List (Origin × Bytes)) :
    b.history <+: (b.sealEach pair packets).history := by
  induction packets generalizing b with
  | nil => exact List.prefix_rfl
  | cons p packets ih => exact (List.prefix_append _ _).trans (ih (b.sealed pair p.1 p.2))

end

section
variable [SessionConfig C] {s t : CommonSession C}

theorem FlushStep.carries (h : FlushStep s t) : Carries (SessionConfig.role C) s t := by
  cases h with
  | none h => exact .same rfl rfl List.prefix_rfl
  | @packets _ enc enc' h =>
    obtain ⟨packets, outs, c, -, -, hsealed⟩ := h.packets
    refine .of_records (by rw [h.session]) ?_ (by rw [hsealed]; exact sealAll_grows _ _ _ _)
    rw [h.encrypted, h.encrypted_eq]
    exact .some (by rw [h.same]; exact ⟨rfl, rfl⟩)
  | @rekey u enc enc' ex h hwrite hcursor hrekey hex =>
    obtain ⟨packets, outs, c, -, -, hsealed⟩ := h.packets
    have hgrows : s.writeBuffer.history <+: u.writeBuffer.history := by
      rw [hsealed]
      exact sealAll_grows _ _ _ _
    have hid : enc'.sessionId = enc.sessionId := by rw [h.same]
    have hsealed' : (u.startRekey enc' ex).SealedSince s.writeBuffer.history.length .kexinit
        (writeKex (SessionConfig.preferred u.config) (u.world.rand u.tick).cookie) :=
      SealedSince.of_append (s := u) (r := ⟨u.cipher.epoch, u.writeBuffer.seqn, _, .kexinit⟩)
        hgrows.length_le rfl (List.mem_singleton.mpr rfl)
    have hs : s.sessionId = some enc.sessionId := by
      simp only [CommonSession.sessionId, h.encrypted, Option.map_some]
    exact .begins ((exchanging_some h.encrypted).trans hrekey) rfl hs (congrArg some hid)
      (congrArg some hid) (hgrows.trans (List.prefix_append _ _)) (gathers_begun ex hsealed')

theorem Turn.carries {P : Bytes → Prop} (h : Turn P s t) : Carries (SessionConfig.role C) s t := by
  cases h with
  | busy h =>
    cases h with
    | quiet h => exact h.carries
    | flush h => exact h.carries
  | staged h => exact h.carries

theorem Local.carries {P : Bytes → Prop} (h : Local P s t) :
    Carries (SessionConfig.role C) s t := by
  cases h with
  | quiet h => exact h.carries
  | staged h => exact h.carries
  | service hpayload h =>
    subst h
    exact .same rfl rfl (List.prefix_append _ _)

end

section
variable {d : Driver C S M} {role : Role} {hashing : S → Bytes → Option Hashing}
  {acts : List (Act S M)} {s t : CommonSession C} {u : S} {buf : Bytes}

omit [Deps] in
theorem heard_append (acts acts' : List (Act S M)) :
    heard (acts ++ acts') = heard acts ++ heard acts' := List.filterMap_append

/-- An act goes on with the exchange, or begins anew. -/
theorem during_append (d : Driver C S M) (acts : List (Act S M)) (act : Act S M) :
    d.during (acts ++ [act]) =
      if (d.common act.session).phase.gathers then d.during acts ++ [act] else [act] := by
  simp only [Driver.during, List.foldl_append, List.foldl_cons, List.foldl_nil]

/-- The last act is one of the exchange in progress. -/
theorem mem_during (d : Driver C S M) (acts : List (Act S M)) (act : Act S M) :
    act ∈ d.during (acts ++ [act]) := by
  rw [during_append]
  split
  · exact List.mem_append_right _ (List.mem_singleton.mpr rfl)
  · exact List.mem_singleton.mpr rfl

/-- Only before the first act no act belongs to the exchange in progress. -/
theorem during_ne_nil (d : Driver C S M) (h : acts ≠ []) : d.during acts ≠ [] := by
  obtain ⟨init, last, rfl⟩ := (List.eq_nil_or_concat acts).resolve_left h
  have hmem := mem_during d init last
  intro hnil
  rw [List.concat_eq_append] at hnil
  rw [hnil] at hmem
  cases hmem

theorem sealedBefore_append (d : Driver C S M) (h : acts ≠ []) (act : Act S M) :
    d.sealedBefore (acts ++ [act]) = d.sealedBefore acts := by
  unfold Driver.sealedBefore
  rw [List.head?_append_of_ne_nil _ h]

/-- A hash that has been computed stays the first one. -/
theorem firstHash_append (hashing : S → Bytes → Option Hashing) (acts acts' : List (Act S M)) :
    firstHash hashing (acts ++ acts') =
      (firstHash hashing acts).or (firstHash hashing acts') := by
  unfold firstHash
  rw [List.filterMap_append, List.head?_append]

theorem firstHash_reply (hashing : S → Bytes → Option Hashing) (s : S) (buf : Bytes) :
    firstHash hashing [(.reply s buf : Act S M)] = (hashing s buf).map Hashing.hash := by
  unfold firstHash
  cases h : hashing s buf with
  | none => simp [h]
  | some hashing => simp [h]

/-- An act that hashes nothing leaves the first hash. -/
theorem firstHash_of_none {act : Act S M} (h : firstHash hashing [act] = none) :
    firstHash hashing (acts ++ [act]) = firstHash hashing acts := by
  rw [firstHash_append, h, Option.or_none]

/-- Moving an exchange on leaves the session id and what has been sealed. -/
theorem setExchanging_sessionId (s : CommonSession C) (k : Kex) :
    (s.setExchanging k).sessionId = s.sessionId ∧
      (s.setExchanging k).writeBuffer = s.writeBuffer ∧
      (s.setExchanging k).encrypted.isSome = s.encrypted.isSome := by
  unfold CommonSession.sessionId
  cases henc : s.encrypted with
  | none =>
    rw [setExchanging_none henc]
    exact ⟨by rw [henc], rfl, by rw [henc]⟩
  | some enc =>
    rw [setExchanging_some henc]
    exact ⟨rfl, rfl, rfl⟩

/-- A packet of a key exchange that fails leaves the session id. -/
theorem Seals.sessionId_eq {packets : List (Origin × Bytes)} (h : Seals s t packets) :
    t.sessionId = s.sessionId := by
  have henc := h.encrypted
  unfold CommonSession.sessionId
  generalize s.encrypted = a at henc
  generalize t.encrypted = b at henc
  cases henc with
  | none => rfl
  | some henc =>
    rw [Option.map_some, Option.map_some, henc]

/-- A step outside of the exchange keeps what is known. -/
theorem Provenance.carry (h : Provenance d role hashing acts s) (hcarries : Carries role s t) :
    Provenance d role hashing acts t := by
  cases hcarries with
  | same hexchanging hid hhistory =>
    have hsome : t.encrypted.isSome = s.encrypted.isSome := by
      have := congrArg Option.isSome hid
      simpa only [CommonSession.sessionId, Option.isSome_map] using this
    refine ⟨fun id ht => h.id id (hid ▸ ht), fun k hk => h.carried k (hexchanging ▸ hk),
      fun k hencrypted hk => ?_, Nat.le_trans h.began hhistory.length_le⟩
    exact (h.gathers k (hsome ▸ hencrypted) (hexchanging ▸ hk)).grow hhistory (Nat.le_refl _)
      (List.Subset.refl _)
  | @begins id k hnone hk hs ht hid hhistory hgathers =>
    refine ⟨fun id' ht' => ?_, fun k' hk' => ?_, fun k' _ hk' => ?_,
      Nat.le_trans h.began hhistory.length_le⟩
    · cases ht.symm.trans ht'
      exact h.id id hs
    · cases hk.symm.trans hk'
      exact hid.trans (h.id id hs).symm
    · cases hk.symm.trans hk'
      exact hgathers.grow (List.prefix_refl _) h.began (List.nil_subset _)

theorem Provenance.carry_all {R : CommonSession C → CommonSession C → Prop}
    (hR : ∀ s t, R s t → Carries role s t) (h : Provenance d role hashing acts s)
    (hst : Relation.ReflTransGen R s t) : Provenance d role hashing acts t := by
  induction hst with
  | refl => exact h
  | tail _ hstep ih => exact ih.carry (hR _ _ hstep)

/-- The exchange in progress began before the act. -/
theorem began_append {a : Act S M}
    (h : d.sealedBefore (d.during acts) ≤ (d.common u).writeBuffer.history.length)
    (hact : a.session = u) :
    d.sealedBefore (d.during (acts ++ [a])) ≤ (d.common u).writeBuffer.history.length := by
  have hsingle : d.sealedBefore [a] ≤ (d.common u).writeBuffer.history.length := by
    simp only [Driver.sealedBefore, List.head?_cons, Option.elim_some, hact, Nat.le_refl]
  rw [during_append]
  split
  · by_cases hnil : d.during acts = []
    · rw [hnil]
      exact hsingle
    · rw [sealedBefore_append d hnil]
      exact h
  · exact hsingle

/-- An act on an encrypted session leaves what is known of it. -/
theorem Provenance.enter (h : Provenance d role hashing acts (d.common u))
    (henc : (d.common u).encrypted.isSome = true) {a : Act S M} (hact : a.session = u) :
    Provenance d role hashing (acts ++ [a]) (d.common u) := by
  obtain ⟨enc, hsome⟩ := Option.isSome_iff_exists.mp henc
  have hid : (d.common u).sessionId = some enc.sessionId := by
    simp only [CommonSession.sessionId, hsome, Option.map_some]
  have hfirst := h.id _ hid
  have hsame : firstHash hashing (acts ++ [a]) = firstHash hashing acts := by
    rw [firstHash_append, hfirst, Option.some_or]
  have hne : acts ≠ [] := by
    rintro rfl
    cases hfirst
  have hgathering : ∀ k, (d.common u).exchanging = some k → k.phase.gathers = true →
      Gathers role (d.during (acts ++ [a])) (d.sealedBefore (d.during (acts ++ [a])))
        (d.common u) k := by
    intro k hk hphase
    rw [during_append, hact, phase_of_exchanging hk, if_pos hphase,
      sealedBefore_append d (during_ne_nil d hne)]
    refine (h.gathers k henc hk).grow (List.prefix_refl _) (Nat.le_refl _) ?_
    rw [heard_append]
    exact List.subset_append_left _ _
  refine ⟨fun id hs => ?_, fun k hk => ?_, fun k _ hk => ?_, ?_⟩
  · rw [hsame]
    exact h.id id hs
  · rw [hsame]
    exact h.carried k hk
  · cases k with
    | kexInit k => exact hgathering _ hk rfl
    | kexDh k => exact hgathering _ hk rfl
    | kexDhDone k => exact hgathering _ hk rfl
    | newKeys k => exact trivial
  · exact began_append h.began hact

/-- No exchange is in progress. -/
theorem Provenance.of_none (hbegan : d.sealedBefore (d.during acts) ≤ t.writeBuffer.history.length)
    (hid : ∀ id, t.sessionId = some id → firstHash hashing acts = some id)
    (hnone : t.exchanging = none) : Provenance d role hashing acts t := by
  refine ⟨hid, fun k hk => ?_, fun k _ hk => ?_, hbegan⟩
  · rw [hnone] at hk
    cases hk
  · rw [hnone] at hk
    cases hk

/-- Before the first act nothing has been hashed. -/
theorem Provenance.initial (henc : s.encrypted = none)
    (hkex : ∀ k, s.kex = some k → k.sessionId = none) : Provenance d role hashing [] s := by
  refine ⟨fun id hid => ?_, fun k hk => ?_, fun k hsome => ?_, Nat.zero_le _⟩
  · simp only [CommonSession.sessionId, henc, Option.map_none] at hid
    cases hid
  · rw [exchanging_none henc] at hk
    exact hkex k hk
  · rw [henc] at hsome
    cases hsome

/-- The exchange is in progress. -/
theorem Provenance.of_some (hbegan : d.sealedBefore (d.during acts) ≤ t.writeBuffer.history.length)
    (hid : ∀ id, t.sessionId = some id → firstHash hashing acts = some id) {k : Kex}
    (hk : t.exchanging = some k) (hcarried : k.sessionId = firstHash hashing acts)
    (hgathers : t.encrypted.isSome = true →
      Gathers role (d.during acts) (d.sealedBefore (d.during acts)) t k) :
    Provenance d role hashing acts t := by
  refine ⟨hid, fun k' hk' => ?_, fun k' henc hk' => ?_, hbegan⟩
  · cases hk.symm.trans hk'
    exact hcarried
  · cases hk.symm.trans hk'
    exact hgathers henc

/-- The exchange is moved on, and what is sealed with it. -/
theorem Provenance.move (hbegan : d.sealedBefore (d.during acts) ≤ s.writeBuffer.history.length)
    (hid : ∀ id, s.sessionId = some id → firstHash hashing acts = some id) {k : Kex} {n : Nat}
    {l : List (Origin × Bytes)} (hcarried : k.sessionId = firstHash hashing acts)
    (hgathers : s.encrypted.isSome = true → ∀ t : CommonSession C,
      t.writeBuffer = s.writeBuffer.sealEach s.cipher l →
      Gathers role (d.during acts) (d.sealedBefore (d.during acts)) t k) :
    Provenance d role hashing acts ({ s with
      writeBuffer := s.writeBuffer.sealEach s.cipher l
      tick := n }.setExchanging k) := by
  obtain ⟨hsession, hbuffer, hsome⟩ := setExchanging_sessionId { s with
    writeBuffer := s.writeBuffer.sealEach s.cipher l, tick := n } k
  refine .of_some ?_ (fun id ht => ?_) (exchanging_setExchanging _ _) hcarried fun henc => ?_
  · rw [hbuffer]
    exact Nat.le_trans hbegan (sealEach_grows _ _ _).length_le
  · rw [hsession] at ht
    exact hid id ht
  · rw [hsome] at henc
    exact hgathers henc _ hbuffer

end

section
variable [SessionConfig C] {d : Driver C S M} {hashing : S → Bytes → Option Hashing}

/-- A flush computes no keys. -/
theorem newKeys_of_flush {s t : CommonSession C} {newkeys : NewKeys} (h : flush s = .ok () t)
    (ht : t.exchanging = some (.newKeys newkeys)) : s.exchanging = some (.newKeys newkeys) := by
  have hflush := (flush_final s).carries
  rw [h, final_ok] at hflush
  cases hflush with
  | same hexchanging hid hhistory => exact hexchanging.symm.trans ht
  | begins hnone hbegun => cases hbegun.symm.trans ht

/-- A packet outside of the exchange computes no keys. -/
theorem Driver.Behaves.not_newKeys {P : Bytes → Prop} (hd : d.Behaves P) {s : S} {buf : Bytes}
    (hs : (d.common s).Sound) (hout : ¬ (d.common s).InExchange buf) (newkeys : NewKeys) :
    (d.common (final (d.reply buf s))).exchanging ≠ some (.newKeys newkeys) := by
  have hphase : (d.common s).phase ≠ .dh ∧ (d.common s).phase ≠ .newKeys :=
    ⟨fun h => hout (.inr (.inr (.inl h))), fun h => hout (.inr (.inr (.inr h)))⟩
  have hserved := hd.serve s buf hs hout
  have hstays : (d.common (final (d.reply buf s))).phase ≠ .dh ∧
      (d.common (final (d.reply buf s))).phase ≠ .newKeys := by
    generalize d.common (final (d.reply buf s)) = t at hserved
    induction hserved with
    | refl => exact hphase
    | tail _ hturn ih => exact hturn.phase_ne ih
  exact fun h => hstays.2 (phase_of_exchanging h)

/-- Both roles keep what is known, if their own packets of an exchange do. -/
theorem Driver.Behaves.follows_provenance {P : Bytes → Prop} (hd : d.Behaves P)
    (hexchange : ∀ acts s buf, (d.common s).Sound →
      Provenance d (SessionConfig.role C) hashing acts (d.common s) → (d.common s).InExchange buf →
      (∃ t, Provenance d (SessionConfig.role C) hashing (acts ++ [.reply s buf]) (d.common t) ∧
        (d.reply buf s = .ok () t ∨ d.reply buf s = zoom d.common d.setCommon flush t)) ∨
      ∃ e t packets, d.reply buf s = .error e t ∧ Seals (d.common s) (d.common t) packets) :
    d.Follows (fun acts act => acts ++ [act])
      (fun acts s => (d.common s).Sound ∧
        Provenance d (SessionConfig.role C) hashing acts (d.common s))
      (fun acts s => ∀ id, (d.common s).sessionId = some id → firstHash hashing acts = some id) := by
  have hkeeps := hd.keeps_sound
  have hflush : ∀ acts s, Provenance d (SessionConfig.role C) hashing acts (d.common s) →
      Ends (zoom d.common d.setCommon flush) s
        (fun _ t => Provenance d (SessionConfig.role C) hashing acts (d.common t))
        (fun t => ∀ id, (d.common t).sessionId = some id →
          firstHash hashing (acts : List (Act S M)) = some id) := by
    intro acts s hs
    have hstep := hs.carry (flush_final (d.common s)).carries
    unfold Ends zoom
    cases hresult : flush (d.common s) with
    | ok a c =>
      rw [hresult, final_ok] at hstep
      dsimp only
      rw [hd.common_set]
      exact hstep
    | error e c =>
      rw [hresult, final_error] at hstep
      dsimp only
      rw [hd.common_set]
      exact hstep.id
  refine ⟨fun acts s hs => hs.2.id, fun acts s enc decompress henc hs => ?_,
    fun acts s buf hs => ?_, fun acts s m enc hs henc hrekey => ?_, fun acts s hs => ?_,
    fun acts s hs => ?_⟩
  · refine ⟨hkeeps.inflate s enc decompress henc hs.1, ?_⟩
    rw [hd.common_set]
    refine hs.2.carry (.of_records rfl ?_ (List.prefix_refl _))
    rw [henc]
    exact .some ⟨rfl, rfl⟩
  · refine ((hkeeps.reply s buf hs.1).and (?_ : Ends (d.reply buf) s
      (fun _ t => Provenance d (SessionConfig.role C) hashing (acts ++ [.reply s buf]) (d.common t))
      (fun t => ∀ id, (d.common t).sessionId = some id →
        firstHash hashing (acts ++ [(.reply s buf : Act S M)]) = some id))).mono (fun _ _ ht => ht)
        fun _ ht => ht.2
    by_cases hin : (d.common s).InExchange buf
    · rcases hexchange acts s buf hs.1 hs.2 hin with ⟨t, ht, hreply | hreply⟩ |
        ⟨e, t, packets, hreply, hseals⟩
      · unfold Ends
        rw [hreply]
        exact ht
      · have hflushed := hflush _ t ht
        unfold Ends at hflushed ⊢
        rw [hreply]
        exact hflushed
      · unfold Ends
        rw [hreply]
        intro id hid
        rw [hseals.sessionId_eq] at hid
        rw [firstHash_append, hs.2.id id hid, Option.some_or]
    · have henc : (d.common s).encrypted.isSome = true := by
        rw [← Option.ne_none_iff_isSome]
        exact fun hnot => hin (.inl hnot)
      have hentered := hs.2.enter henc (a := .reply s buf) rfl
      have hserved := hentered.carry_all (fun _ _ => Turn.carries) (hd.serve s buf hs.1 hin)
      have hends : Ends (d.reply buf) s
          (fun _ t => Provenance d (SessionConfig.role C) hashing (acts ++ [.reply s buf])
            (d.common t))
          fun t => Provenance d (SessionConfig.role C) hashing (acts ++ [.reply s buf])
            (d.common t) := Ends.of_final hserved
      exact hends.mono (fun _ _ ht => ht) fun _ ht => ht.id
  · have hentered := hs.2.enter (by rw [henc]; rfl) (a := .message s m) rfl
    have hserved := hentered.carry_all (fun _ _ => Local.carries) (hd.message s m)
    have hends : Ends (d.message m) s
        (fun _ t => Provenance d (SessionConfig.role C) hashing (acts ++ [.message s m])
          (d.common t))
        fun t => Provenance d (SessionConfig.role C) hashing (acts ++ [.message s m])
          (d.common t) := Ends.of_final hserved
    exact ((hkeeps.message s m hs.1).and hends).mono (fun _ _ ht => ht) fun _ ht => ht.2.id
  · refine ((hkeeps.flush s hs.1).and (hflush acts s hs.2)).mono (fun _ t ht => ⟨ht.1, ?_⟩)
      fun _ ht => ht.2
    have hclear : d.common (Loop.clearWrite d t) =
        { d.common t with writeBuffer := (d.common t).writeBuffer.clear } := by
      unfold Loop.clearWrite
      rw [hd.common_set]
    rw [hclear]
    exact ht.2.carry (.same rfl rfl (List.prefix_refl _))
  · exact ⟨hkeeps.settle s hs.1, hs.2.carry (hd.settle s).carries⟩

end

end Thrussh
