import Thrussh.Keeps
import Thrussh.Robust
import Thrussh.Select

/-!
# The record of an exchange between two events

Two things are known of every session that is given a packet. Nothing is
queued on it, so that a flush in the course of an exchange seals nothing and
cannot fail. And whatever a role makes sure of when it moves the record of
an exchange on is still true of the record when the next packet arrives:
nothing else touches it, and a re-exchange begins with an empty one. With
the cipher that is agreed on, keys can be computed.
-/

namespace Thrussh

open Lib

variable [Deps] {C S M : Type}

/-- Nothing is queued. -/
def CommonSession.Drained (s : CommonSession C) : Prop :=
  ∀ enc, s.encrypted = some enc → enc.write = []

/-- Nothing is queued, and the next flush starts at the front. -/
def CommonSession.Blank (s : CommonSession C) : Prop :=
  ∀ enc, s.encrypted = some enc → enc.write = [] ∧ enc.writeCursor = 0

theorem CommonSession.Blank.drained {s : CommonSession C} (h : s.Blank) : s.Drained :=
  fun enc henc => (h enc henc).1

/-- The configuration is the one of the beginning, and the exchange in
progress has a property. -/
structure CommonSession.Tracks (config : C) (F : Kex → Prop) (s : CommonSession C) : Prop where
  /-- The configuration never changes. -/
  config_eq : s.config = config
  /-- What is known of the record. -/
  record : ∀ k, s.exchanging = some k → F k

/-- What a step outside of the exchange makes of its record. -/
inductive Pursues (s t : CommonSession C) : Prop where
  /-- The record stays. -/
  | same (hconfig : t.config = s.config) (hexchanging : t.exchanging = s.exchanging)
  /-- A re-exchange begins. -/
  | begins {k : KexInit} (hconfig : t.config = s.config)
    (hk : t.exchanging = some (.kexInit k)) (hnil : k.exchange.serverEphemeral = [])

/-! ### What the negotiation leaves to the exchange -/

omit [Deps] in
/-- A name that is selected is one of the own names. -/
theorem select_mem {role : Role} {ours : List Bytes} {theirs name : Bytes} {first : Bool}
    (h : select role ours theirs = some (first, name)) : name ∈ ours := by
  have hchosen : ∀ {client server : List Bytes}, selectOuter server client true =
      some (first, name) → name ∈ client ∧ name ∈ server := by
    intro client server hselect
    rw [selectOuter_eq] at hselect
    obtain ⟨found, hfound, hpair⟩ := Option.map_eq_some_iff.mp hselect
    obtain ⟨-, rfl⟩ := Prod.mk.inj hpair
    unfold chosen at hfound
    have hmem : found ∈ server := by simpa using List.find?_some hfound
    exact ⟨List.mem_of_find?_eq_some hfound, hmem⟩
  cases role with
  | server => exact (hchosen h).2
  | client => exact (hchosen h).1

omit [Deps] in
/-- The cipher that is agreed on is one of the own ciphers. -/
theorem readKex_cipher {role : Role} {buf : Bytes} {pref : Preferred} {names : Names}
    (h : readKex role buf pref = .ok names) : names.cipher ∈ pref.cipher := by
  unfold readKex at h
  obtain ⟨⟨kexString, r₁⟩, -, h⟩ := ok_of_bind h
  obtain ⟨⟨kexFirst, kex⟩, -, h⟩ := ok_of_bind h
  obtain ⟨⟨keyString, r₂⟩, -, h⟩ := ok_of_bind h
  obtain ⟨⟨keyFirst, key⟩, -, h⟩ := ok_of_bind h
  obtain ⟨⟨cipherString, r₃⟩, -, h⟩ := ok_of_bind h
  obtain ⟨⟨cipherFirst, cipher⟩, hcipher, h⟩ := ok_of_bind h
  obtain ⟨⟨_, r₄⟩, -, h⟩ := ok_of_bind h
  obtain ⟨⟨macString, r₅⟩, -, h⟩ := ok_of_bind h
  obtain ⟨⟨_, r₆⟩, -, h⟩ := ok_of_bind h
  obtain ⟨⟨clientString, r₇⟩, -, h⟩ := ok_of_bind h
  obtain ⟨⟨clientFirst, clientCompression⟩, -, h⟩ := ok_of_bind h
  obtain ⟨⟨serverString, r₈⟩, -, h⟩ := ok_of_bind h
  obtain ⟨⟨serverFirst, serverCompression⟩, -, h⟩ := ok_of_bind h
  obtain ⟨⟨_, r₉⟩, -, h⟩ := ok_of_bind h
  obtain ⟨⟨_, r₁₀⟩, -, h⟩ := ok_of_bind h
  obtain ⟨⟨follows, r₁₁⟩, -, h⟩ := ok_of_bind h
  cases h
  unfold selectOr at hcipher
  split at hcipher
  · next hselect =>
    cases hcipher
    exact select_mem hselect
  · cases hcipher

/-- A `cipher::Name` can only be made in the crate, and there is one. -/
def Preferred.Supported (pref : Preferred) : Prop := ∀ name ∈ pref.cipher, name = chacha20poly1305

instance (pref : Preferred) : Decidable pref.Supported :=
  inferInstanceAs (Decidable (∀ name ∈ pref.cipher, name = chacha20poly1305))

/-- Keys are derived in the length that the cipher takes. -/
theorem length_computeKey (kex : Algorithm) (sessionId hash : Bytes32) (c : UInt8) :
    (kex.computeKey sessionId hash c chachaKeyLen).length = 64 := by
  simp [Algorithm.computeKey, chachaKeyLen, extendKey]

omit [Deps] in
theorem makeCipher_ok {k : Bytes} (h : k.length = 64) : ∃ key, makeCipher k = .ok key := by
  have hdrop : (k.drop 32).length = 32 := by rw [List.length_drop, h]
  have htake : (k.take 32).length = 32 := by rw [List.length_take, h]; rfl
  unfold makeCipher
  rw [dif_pos hdrop, dif_pos htake]
  exact ⟨_, rfl⟩

/-- Both keys of the supported cipher are made. -/
theorem algorithmKeys_ok (kex : Algorithm) (sessionId hash : Bytes32) (isServer : Bool) :
    ∃ pair, kex.computeKeys sessionId hash chacha20poly1305 isServer = .ok pair := by
  have hmake : ∀ c, ∃ key, makeCipher (kex.computeKey sessionId hash c chachaKeyLen) = .ok key :=
    fun c => makeCipher_ok (length_computeKey kex sessionId hash c)
  obtain ⟨first, hfirst⟩ := hmake 67
  obtain ⟨second, hsecond⟩ := hmake 68
  unfold Algorithm.computeKeys
  rw [if_pos rfl]
  cases isServer with
  | false =>
    simp only [Bool.false_eq_true, if_false, hfirst, hsecond, bind, Except.bind]
    exact ⟨_, rfl⟩
  | true =>
    simp only [if_true, hfirst, hsecond, bind, Except.bind]
    exact ⟨_, rfl⟩

/-- The keys of an exchange that has agreed on the supported cipher are computed. -/
theorem computeKeys_errors {k : KexDhDone} (h : k.names.cipher = chacha20poly1305)
    (hash : Bytes32) (isServer : Bool) : Errors Fault.Returned (k.computeKeys hash isServer) := by
  unfold KexDhDone.computeKeys
  dsimp only
  obtain ⟨pair, hpair⟩ := algorithmKeys_ok k.kex (k.sessionId.getD hash) hash isServer
  rw [h, hpair]
  exact .ok _

/-! ### The record of the exchange -/

section
variable {P : Bytes → Prop} {s t : CommonSession C}

/-- Equal records stay. -/
theorem Pursues.of_records (hconfig : t.config = s.config) (hkex : t.kex = s.kex)
    (henc : Option.Rel (fun e e' => e'.rekey = e.rekey ∧ e'.exchange = e.exchange)
      s.encrypted t.encrypted) : Pursues s t := by
  refine .same hconfig ?_
  unfold CommonSession.exchanging
  generalize s.encrypted = a at henc
  generalize t.encrypted = b at henc
  cases henc with
  | none => exact hkex
  | some henc => exact henc.1

theorem Quiet.pursues (h : Quiet P s t) : Pursues s t :=
  .of_records (by rw [h.same]) h.records.1 h.records.2

theorem Staged.pursues (h : Staged s t) : Pursues s t :=
  .of_records (by rw [h.same]) h.records.1 h.records.2

theorem FlushStep.pursues [SessionConfig C] (h : FlushStep s t) : Pursues s t := by
  cases h with
  | none h => exact .same rfl rfl
  | @packets _ enc enc' h =>
    refine .of_records (by rw [h.session]) (by rw [h.session]) ?_
    rw [h.encrypted, h.encrypted_eq]
    exact .some (by rw [h.same]; exact ⟨rfl, rfl⟩)
  | @rekey u enc enc' ex h hwrite hcursor hrekey hex =>
    have hconfig : u.config = s.config := by rw [h.session]
    refine .begins hconfig rfl ?_
    cases SessionConfig.role C with
    | client => rfl
    | server => rfl

theorem Turn.pursues [SessionConfig C] (h : Turn P s t) : Pursues s t := by
  cases h with
  | busy h =>
    cases h with
    | quiet h => exact h.pursues
    | flush h => exact h.pursues
  | staged h => exact h.pursues

theorem Local.pursues (h : Local P s t) : Pursues s t := by
  cases h with
  | quiet h => exact h.pursues
  | staged h => exact h.pursues
  | service hpayload h =>
    subst h
    exact .same rfl rfl

variable {config : C} {F : Kex → Prop}

/-- What is known of the record stays known. -/
theorem CommonSession.Tracks.pursue (h : s.Tracks config F)
    (hfresh : ∀ k : KexInit, k.exchange.serverEphemeral = [] → F (.kexInit k))
    (hstep : Pursues s t) : t.Tracks config F := by
  cases hstep with
  | same hconfig hexchanging =>
    exact ⟨hconfig.trans h.config_eq, fun k hk => h.record k (hexchanging ▸ hk)⟩
  | begins hconfig hk hnil =>
    refine ⟨hconfig.trans h.config_eq, fun k' hk' => ?_⟩
    rw [hk] at hk'
    cases hk'
    exact hfresh _ hnil

theorem CommonSession.Tracks.pursue_all {R : CommonSession C → CommonSession C → Prop}
    (hR : ∀ s t, R s t → Pursues s t) (h : s.Tracks config F)
    (hfresh : ∀ k : KexInit, k.exchange.serverEphemeral = [] → F (.kexInit k))
    (hst : Relation.ReflTransGen R s t) : t.Tracks config F := by
  induction hst with
  | refl => exact h
  | tail _ hstep ih => exact ih.pursue hfresh (hR _ _ hstep)

end

section
variable [SessionConfig C] {d : Driver C S M} {P : Bytes → Prop} {config : C} {F : Kex → Prop}

/-- A flush keeps what is known of the record. -/
theorem flush_tracks (hset : ∀ c s, d.common (d.setCommon c s) = c) {s : S}
    (h : (d.common s).Tracks config F)
    (hfresh : ∀ k : KexInit, k.exchange.serverEphemeral = [] → F (.kexInit k)) :
    Ends (zoom d.common d.setCommon flush) s (fun _ t => (d.common t).Tracks config F)
      fun _ => True := by
  have hstep := h.pursue hfresh (flush_final (d.common s)).pursues
  unfold Ends zoom
  cases hresult : flush (d.common s) with
  | error e c => exact trivial
  | ok a c =>
    rw [hresult, final_ok] at hstep
    dsimp only
    rw [hset]
    exact hstep

/-- Both roles keep what they make sure of when they serve packets of an exchange. -/
theorem Driver.Behaves.keeps_tracks (hd : d.Behaves P)
    (hfresh : ∀ k : KexInit, k.exchange.serverEphemeral = [] → F (.kexInit k))
    (hexchange : ∀ s buf, (d.common s).Sound → (d.common s).Tracks config F →
      (d.common s).InExchange buf →
      (∃ t, (d.common t).Tracks config F ∧
        (d.reply buf s = .ok () t ∨ d.reply buf s = zoom d.common d.setCommon flush t)) ∨
      ∃ e t, d.reply buf s = .error e t) :
    d.Keeps (fun s => (d.common s).Sound ∧ (d.common s).Tracks config F) fun _ => True := by
  have hkeeps := hd.keeps_sound
  constructor
  · exact fun _ _ => trivial
  · intro s enc decompress henc hs
    refine ⟨hkeeps.inflate s enc decompress henc hs.1, ?_⟩
    rw [hd.common_set]
    refine hs.2.pursue hfresh (.of_records rfl rfl ?_)
    rw [henc]
    exact .some ⟨rfl, rfl⟩
  · intro s buf hs
    refine ((hkeeps.reply s buf hs.1).and (?_ : Ends (d.reply buf) s
      (fun _ t => (d.common t).Tracks config F) fun _ => True)).mono (fun _ _ ht => ht)
        fun _ _ => trivial
    by_cases hin : (d.common s).InExchange buf
    · rcases hexchange s buf hs.1 hs.2 hin with ⟨t, ht, hreply | hreply⟩ | ⟨e, t, hreply⟩
      · unfold Ends
        rw [hreply]
        exact ht
      · have hflushed := flush_tracks hd.common_set ht hfresh
        unfold Ends at hflushed ⊢
        rw [hreply]
        exact hflushed
      · unfold Ends
        rw [hreply]
        exact trivial
    · have hserved := hs.2.pursue_all (fun _ _ => Turn.pursues) hfresh (hd.serve s buf hs.1 hin)
      have hends : Ends (d.reply buf) s (fun _ t => (d.common t).Tracks config F)
          fun t => (d.common t).Tracks config F := Ends.of_final hserved
      exact hends.mono (fun _ _ ht => ht) fun _ _ => trivial
  · intro s m hs
    have hserved := hs.2.pursue_all (fun _ _ => Local.pursues) hfresh (hd.message s m)
    have hends : Ends (d.message m) s (fun _ t => (d.common t).Tracks config F)
        fun t => (d.common t).Tracks config F := Ends.of_final hserved
    exact ((hkeeps.message s m hs.1).and hends).mono (fun _ _ ht => ht) fun _ _ => trivial
  · intro s hs
    refine ((hkeeps.flush s hs.1).and (flush_tracks hd.common_set hs.2 hfresh)).mono
      (fun _ t ht => ⟨ht.1, ?_⟩) fun _ _ => trivial
    unfold Loop.clearWrite
    rw [hd.common_set]
    exact ht.2.pursue hfresh (.same rfl rfl)
  · intro s hs
    exact ⟨hkeeps.settle s hs.1, hs.2.pursue hfresh (hd.settle s).pursues⟩

/-! ### Nothing is queued between two events -/

/-- Every turn ends with a flush. -/
theorem blank_invariant (P : Bytes → Prop) :
    Invariant (C := C) P (fun _ _ => True) CommonSession.Blank (fun _ => True)
      fun _ => True where
  enter _ _ := trivial
  leave _ _ := trivial
  inflate s enc decompress henc h enc' henc' := by
    cases henc'
    exact h enc henc
  advance _ _ _ _ _ _ _ := trivial
  seals _ _ _ _ _ _ := trivial
  turn _ _ _ _ _ _ := trivial
  message _ _ _ _ _ _ _ _ := trivial
  flush s t _ _ h enc henc := flush_ok_empty h henc
  settle s t h hstaged enc' henc' := by
    have henc := hstaged.encrypted
    rw [henc'] at henc
    cases hs : s.encrypted with
    | none =>
      rw [hs] at henc
      cases henc
    | some enc =>
      rw [hs] at henc
      cases henc with
      | some hsame =>
        rw [hsame.same]
        exact h enc hs

/-- What holds between two events holds of a session that is given a packet. -/
theorem Loop.given_holds {ready mid ended : CommonSession C → Prop}
    {allowed : Phase → Bytes → Prop} (hd : d.Behaves P)
    (hi : Invariant P allowed ready mid ended) {l : Loop S} (h : Loop.Holds d ready mid ended l)
    {e : Event M} {p : S × Bytes} (hp : p ∈ Loop.given d l e) : ready (d.common p.1) := by
  have hready := (h.running (Loop.given_running hp)).1
  have hgiven : ∀ b, p ∈ Loop.givenOf d l b → ready (d.common p.1) := by
    intro b hb
    unfold Loop.givenOf at hb
    by_cases hshort : b.buffer.length < 5
    · rw [if_pos hshort] at hb
      cases hb
    rw [if_neg hshort] at hb
    cases henc : (d.common l.session).encrypted with
    | none =>
      simp only [henc] at hb
      split at hb
      · cases hb
        exact hready
      · cases hb
    | some enc =>
      simp only [henc] at hb
      split at hb
      · split at hb
        · cases hb
          rw [hd.common_set]
          exact hi.inflate _ enc _ henc hready
        · cases hb
      · cases hb
  unfold Loop.given at hp
  split at hp
  · exact hgiven _ hp
  · split at hp
    · cases hp
    · exact hgiven _ hp
  · cases hp

/-- A session whose queue can be flushed can be. -/
theorem flush_returns {s : CommonSession C} {enc : Encrypted} (henc : s.encrypted = some enc)
    (h : ∃ p, enc.flush s.cipher (enc, s.writeBuffer) = .ok () p) : ∃ t, flush s = .ok () t := by
  obtain ⟨⟨enc', b⟩, h⟩ := h
  obtain ⟨due, t, hpackets⟩ : ∃ due t, flushPackets s = .ok due t := by
    unfold flushPackets
    simp only [run_bind, run_get, henc, run_modify, zoom, h, run_pure, now]
    exact ⟨_, _, rfl⟩
  unfold flush
  rw [run_bind, hpackets]
  dsimp only
  cases due with
  | false => exact ⟨t, rfl⟩
  | true =>
    rw [if_pos rfl]
    by_cases hstart : ∃ enc ex, t.encrypted = some enc ∧ enc.rekey = none ∧ enc.exchange = some ex
    · obtain ⟨enc, ex, henc, hrekey, hex⟩ := hstart
      exact ⟨_, initiateRekey_start henc hrekey hex⟩
    · refine ⟨t, initiateRekey_skip fun enc henc => ?_⟩
      by_cases hrekey : enc.rekey = none
      · right
        refine Option.eq_none_iff_forall_ne_some.mpr fun ex hex => ?_
        exact hstart ⟨enc, ex, henc, hrekey, hex⟩
      · exact .inl hrekey

/-- A flush of a session on which nothing is queued returns. -/
theorem flush_drained {s : CommonSession C} (h : s.Drained) : ∃ t, flush s = .ok () t := by
  cases henc : s.encrypted with
  | none =>
    refine ⟨s, ?_⟩
    unfold flush
    rw [run_bind, flushPackets_none henc]
    rfl
  | some enc =>
    refine flush_returns henc ?_
    unfold Encrypted.flush
    simp only [run_bind, h enc henc, List.length_nil, flushLoop, run_pure, run_modify]
    exact ⟨_, rfl⟩

end

end Thrussh
