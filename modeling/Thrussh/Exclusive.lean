import Mathlib.Data.List.Induction
import Thrussh.Concrete
import Thrussh.Roles

/-!
# The packets of an exchange in progress

Between the own KEXINIT and the own NEWKEYS a session seals nothing but
packets of the key exchange, as long as no flush finds packets queued while
the session waits for the peer's KEXINIT, and no KEXINIT drops an exchange
whose NEWKEYS is not sealed yet.
-/

namespace Thrussh

open Lib

/-- Whether a KEXINIT has been sealed and the NEWKEYS behind it has not. -/
def unfinished (sealed : List Origin) : Bool :=
  sealed.foldl (fun pending origin =>
    match origin with
    | .kexinit => true
    | .newkeys => false
    | _ => pending) false

/-- From a KEXINIT to the NEWKEYS behind it everything sealed belongs to the key exchange. -/
def Exclusive (sealed : List Origin) : Prop :=
  ∀ before between after origin, sealed = before ++ .kexinit :: between ++ origin :: after →
    Origin.newkeys ∉ between → origin.isKex = true

/-- Where the packets in the history of a buffer come from. -/
def SSHBuffer.origins (b : SSHBuffer) : List Origin := b.history.map PacketRecord.origin

theorem unfinished_append (sealed : List Origin) (origin : Origin) :
    unfinished (sealed ++ [origin]) =
      match origin with
      | .kexinit => true
      | .newkeys => false
      | _ => unfinished sealed := by
  simp only [unfinished, List.foldl_append, List.foldl_cons, List.foldl_nil]

/-- An exchange is unfinished when no NEWKEYS follows some KEXINIT. -/
theorem unfinished_iff (sealed : List Origin) : unfinished sealed = true ↔
    ∃ before between, sealed = before ++ .kexinit :: between ∧ Origin.newkeys ∉ between := by
  induction sealed using List.reverseRecOn with
  | nil => simp [unfinished]
  | append_singleton sealed origin ih =>
    constructor
    · intro h
      rw [unfinished_append] at h
      have hother : origin ≠ .newkeys → unfinished sealed = true → ∃ before between,
          sealed ++ [origin] = before ++ .kexinit :: between ∧ Origin.newkeys ∉ between := by
        intro hne hopen
        obtain ⟨before, between, rfl, hbetween⟩ := ih.mp hopen
        refine ⟨before, between ++ [origin], by simp, ?_⟩
        simpa [hbetween] using fun heq => hne heq.symm
      cases origin with
      | kexinit => exact ⟨sealed, [], rfl, by simp⟩
      | newkeys => cases h
      | ecdhInit => exact hother (by decide) h
      | ecdhReply => exact hother (by decide) h
      | service => exact hother (by decide) h
      | queued => exact hother (by decide) h
      | opened => exact hother (by decide) h
    · rintro ⟨before, between, heq, hbetween⟩
      rw [unfinished_append]
      rcases List.eq_nil_or_concat between with rfl | ⟨between, last, rfl⟩
      · obtain ⟨-, hlast⟩ := List.append_inj' heq rfl
        cases hlast
        rfl
      · rw [List.concat_eq_append, ← List.cons_append, ← List.append_assoc] at heq
        obtain ⟨rfl, hlast⟩ := List.append_inj' heq rfl
        cases hlast
        simp only [List.concat_eq_append, List.mem_append, List.mem_singleton, not_or] at hbetween
        have hopen := ih.mpr ⟨before, between, rfl, hbetween.1⟩
        cases origin with
        | kexinit => rfl
        | newkeys => exact absurd rfl hbetween.2
        | ecdhInit => exact hopen
        | ecdhReply => exact hopen
        | service => exact hopen
        | queued => exact hopen
        | opened => exact hopen

theorem exclusive_nil : Exclusive [] := by
  intro before between after origin h
  simp at h

/-- One more packet keeps the rule, if it belongs to an unfinished exchange. -/
theorem Exclusive.append {sealed : List Origin} (h : Exclusive sealed) {origin : Origin}
    (hlast : unfinished sealed = true → origin.isKex = true) : Exclusive (sealed ++ [origin]) := by
  intro before between after x heq hbetween
  rcases List.eq_nil_or_concat after with rfl | ⟨after, last, rfl⟩
  · obtain ⟨hsealed, hx⟩ := List.append_inj' heq rfl
    cases hx
    exact hlast ((unfinished_iff _).mpr ⟨before, between, hsealed, hbetween⟩)
  · rw [List.concat_eq_append, ← List.cons_append, ← List.append_assoc] at heq
    exact h before between after x (List.append_inj' heq rfl).1 hbetween

/-- Packets of the key exchange keep the rule. -/
theorem Exclusive.append_kex {sealed origins : List Origin} (h : Exclusive sealed)
    (hkex : ∀ origin ∈ origins, origin.isKex = true) : Exclusive (sealed ++ origins) := by
  induction origins generalizing sealed with
  | nil => simpa using h
  | cons origin origins ih =>
    have hhead := h.append fun _ => hkex origin List.mem_cons_self
    have hrest := ih hhead fun x hx => hkex x (List.mem_cons_of_mem _ hx)
    simpa using hrest

/-- Packets that are neither a KEXINIT nor a NEWKEYS leave an exchange where it is. -/
theorem unfinished_append_of {sealed origins : List Origin}
    (h : ∀ origin ∈ origins, origin ≠ .kexinit ∧ origin ≠ .newkeys) :
    unfinished (sealed ++ origins) = unfinished sealed := by
  induction origins generalizing sealed with
  | nil => rw [List.append_nil]
  | cons origin origins ih =>
    have hhead := h origin List.mem_cons_self
    have hrest : unfinished (sealed ++ [origin] ++ origins) = unfinished (sealed ++ [origin]) :=
      ih fun x hx => h x (List.mem_cons_of_mem _ hx)
    rw [List.append_assoc] at hrest
    rw [← List.singleton_append, hrest, unfinished_append]
    cases origin with
    | kexinit => exact absurd rfl hhead.1
    | newkeys => exact absurd rfl hhead.2
    | _ => rfl

/-- Outside an exchange packets of any other kind keep the rule. -/
theorem Exclusive.append_of {sealed origins : List Origin} (h : Exclusive sealed)
    (hdone : unfinished sealed = false)
    (horigins : ∀ origin ∈ origins, origin ≠ .kexinit ∧ origin ≠ .newkeys) :
    Exclusive (sealed ++ origins) := by
  induction origins generalizing sealed with
  | nil => simpa using h
  | cons origin origins ih =>
    have hone : ∀ x ∈ [origin], x ≠ Origin.kexinit ∧ x ≠ .newkeys := by
      simpa using horigins origin List.mem_cons_self
    have hhead : Exclusive (sealed ++ [origin]) := h.append fun hopen => by simp [hdone] at hopen
    have hrest := ih hhead ((unfinished_append_of hone).trans hdone)
      fun x hx => horigins x (List.mem_cons_of_mem _ hx)
    simpa using hrest

section
variable [Deps] {C : Type}

/-- What `sealAll` adds. -/
theorem sealAll_origins (b : SSHBuffer) (pair : CipherPair) (origin : Origin)
    (payloads : List Bytes) : (b.sealAll pair origin payloads).origins =
      b.origins ++ List.replicate payloads.length origin := by
  induction payloads generalizing b with
  | nil => simp [SSHBuffer.sealAll]
  | cons payload payloads ih =>
    have hrest := ih (b.sealed pair origin payload)
    rw [SSHBuffer.sealAll, List.foldl_cons]
    refine hrest.trans ?_
    simp [SSHBuffer.origins, SSHBuffer.sealed, List.replicate_succ]

/-- What `sealEach` adds. -/
theorem sealEach_origins (b : SSHBuffer) (pair : CipherPair) (packets : List (Origin × Bytes)) :
    (b.sealEach pair packets).origins = b.origins ++ packets.map Prod.fst := by
  induction packets generalizing b with
  | nil => simp [SSHBuffer.sealEach]
  | cons packet packets ih =>
    have hrest := ih (b.sealed pair packet.1 packet.2)
    rw [SSHBuffer.sealEach, List.foldl_cons]
    refine hrest.trans ?_
    simp [SSHBuffer.origins, SSHBuffer.sealed]

/-- The packets a session has sealed, by where they come from. -/
def CommonSession.sealed (s : CommonSession C) : List Origin := s.writeBuffer.origins

/-- No flush has found packets queued while the session waited for the peer's KEXINIT. -/
def CommonSession.Withholds (s : CommonSession C) : Prop :=
  ∀ f ∈ s.flushes, f.waiting = true → f.queued = []

/-- No KEXINIT comes between the peer's KEXINIT and the own NEWKEYS. -/
def noKexInitInDh (phase : Phase) (buf : Bytes) : Prop := buf.head? = some msg.KEXINIT → phase ≠ .dh

instance (s : CommonSession C) : Decidable s.Withholds :=
  inferInstanceAs (Decidable (∀ f ∈ s.flushes, _ → _))

instance (phase : Phase) (buf : Bytes) : Decidable (noKexInitInDh phase buf) :=
  inferInstanceAs (Decidable (_ → _))

/-- A session that shields its exchange: nothing else is sealed in it, and nothing is queued
behind the peer's KEXINIT. -/
structure CommonSession.Shielded (s : CommonSession C) : Prop where
  /-- Nothing else has been sealed. -/
  exclusive : Exclusive s.sealed
  /-- An unfinished exchange is in one of its first phases. -/
  phase : unfinished s.sealed = true → s.phase = .waiting ∨ s.phase = .dh
  /-- Nothing is queued in the Diffie-Hellman exchange. -/
  empty : s.phase = .dh → ∀ enc, s.encrypted = some enc → enc.write = []

namespace CommonSession.Shielded

variable {P : Bytes → Prop} {s t : CommonSession C}

/-- An exchange is finished in any phase but its first ones. -/
theorem finished (h : s.Shielded) (hwaiting : s.phase ≠ .waiting) (hdh : s.phase ≠ .dh) :
    unfinished s.sealed = false := by
  cases hopen : unfinished s.sealed with
  | false => rfl
  | true => exact ((h.phase hopen).elim hwaiting hdh).elim

/-- A step that seals nothing, stays in its phase and leaves the queue. -/
theorem of_same (h : s.Shielded) (hsealed : t.sealed = s.sealed) (hphase : t.phase = s.phase)
    (henc : t.phase = .dh → ∀ enc', t.encrypted = some enc' →
      ∃ enc, s.encrypted = some enc ∧ enc'.write = enc.write) : t.Shielded := by
  refine ⟨by rw [hsealed]; exact h.exclusive, ?_, fun hdh enc' henc' => ?_⟩
  · rw [hsealed, hphase]
    exact h.phase
  · obtain ⟨enc, hs, hwrite⟩ := henc hdh enc' henc'
    rw [hwrite]
    exact h.empty (hphase ▸ hdh) enc hs

theorem quiet (h : s.Shielded) (hstep : Quiet P s t) (hdh : s.phase ≠ .dh) : t.Shielded := by
  have hphase : t.phase = s.phase := phase_of_records hstep.records.1 hstep.records.2
  refine h.of_same ?_ hphase fun hin => absurd (hphase ▸ hin) hdh
  unfold CommonSession.sealed SSHBuffer.origins
  rw [hstep.same]

theorem staged (h : s.Shielded) (hstep : Staged s t) : t.Shielded := by
  refine h.of_same ?_ (phase_of_records hstep.records.1 hstep.records.2) fun _ enc' henc' => ?_
  · unfold CommonSession.sealed
    rw [hstep.same]
  · have henc := hstep.encrypted
    rw [henc'] at henc
    cases hs : s.encrypted with
    | none =>
      rw [hs] at henc
      cases henc
    | some enc =>
      rw [hs] at henc
      cases henc with
      | some henc => exact ⟨enc, rfl, by rw [henc.same]⟩

/-- A flush of the queue seals nothing in an exchange, where nothing is queued. -/
theorem flushed (h : s.Shielded) {enc enc' : Encrypted} (hstep : PacketsFlushed s t enc enc')
    (ht : t.Withholds) : t.Shielded := by
  obtain ⟨packets, outs, c, hprefix, hcomp, hbuffer⟩ := hstep.packets
  have hsealed : t.sealed = s.sealed ++ List.replicate outs.length .queued := by
    rw [CommonSession.sealed, hbuffer]
    exact sealAll_origins _ _ _ _
  have hphase : t.phase = s.phase := by
    refine phase_of_records (by rw [hstep.session]) ?_
    rw [hstep.encrypted, hstep.encrypted_eq]
    exact .some (by rw [hstep.same]; exact ⟨rfl, rfl⟩)
  have hleft : s.phase = .dh → enc'.write = enc.write := by
    intro hdh
    have hempty := h.empty hdh enc hstep.encrypted
    rcases hstep.write with hwrite | hwrite
    · exact hwrite
    · rw [hwrite, hempty]
  have hsame : enc.queued = [] → t.Shielded := by
    intro hqueued
    have hnone : outs.length = 0 := by
      rw [hqueued] at hprefix
      rw [hcomp.length_eq, List.prefix_nil.mp hprefix, List.length_nil]
    refine h.of_same ?_ hphase fun hdh enc1 henc1 => ⟨enc, hstep.encrypted, ?_⟩
    · rw [hsealed, hnone, List.replicate_zero, List.append_nil]
    · obtain rfl : enc' = enc1 := Option.some.inj (hstep.encrypted_eq.symm.trans henc1)
      exact hleft (hphase ▸ hdh)
  by_cases hwaiting : enc.waiting = true
  · refine hsame (ht ⟨enc.waiting, enc.queued⟩ ?_ hwaiting)
    rw [hstep.session]
    simp
  by_cases hdh : s.phase = .dh
  · refine hsame ?_
    unfold Encrypted.queued
    rw [h.empty hdh enc hstep.encrypted]
    rfl
  have hnot : s.phase ≠ .waiting := by
    intro heq
    refine hwaiting ?_
    simp only [CommonSession.phase, hstep.encrypted, Encrypted.phase] at heq
    unfold Encrypted.waiting
    cases hrekey : enc.rekey with
    | none =>
      simp only [hrekey] at heq
      split at heq <;> cases heq
    | some k =>
      simp only [hrekey] at heq
      cases k with
      | kexInit k => rfl
      | kexDh k => cases heq
      | kexDhDone k => cases heq
      | newKeys k => cases heq
  have hdone := h.finished hnot hdh
  have hqueued : ∀ origin ∈ List.replicate outs.length Origin.queued,
      origin ≠ .kexinit ∧ origin ≠ .newkeys := by
    intro origin horigin
    rw [List.eq_of_mem_replicate horigin]
    decide
  refine ⟨?_, fun hopen => ?_, fun hin => absurd (hphase ▸ hin) hdh⟩
  · rw [hsealed]
    exact h.exclusive.append_of hdone hqueued
  · rw [hsealed, unfinished_append_of hqueued, hdone] at hopen
    cases hopen

/-- A flush keeps the rule. -/
theorem flush [SessionConfig C] (h : s.Shielded) (hstep : FlushStep s t) (ht : t.Withholds) :
    t.Shielded := by
  cases hstep with
  | none hnone => exact h
  | packets hpackets => exact h.flushed hpackets ht
  | rekey hpackets hwrite hcursor hrekey hex =>
    rename_i u enc enc' ex
    have hu := h.flushed hpackets ht
    have hsealed : (u.startRekey enc' ex).sealed = u.sealed ++ [.kexinit] := by
      change (u.writeBuffer.sealed u.cipher .kexinit _).origins = _
      simp [SSHBuffer.origins, SSHBuffer.sealed, CommonSession.sealed]
    refine ⟨?_, fun _ => .inl rfl, fun hdh => ?_⟩
    · rw [hsealed]
      exact hu.exclusive.append_kex (by simp [Origin.isKex])
    · cases hdh

/-- Packets of the key exchange keep the rule. -/
theorem seals (h : s.Shielded) {packets : List (Origin × Bytes)} (hstep : Seals s t packets) :
    t.sealed = s.sealed ++ packets.map Prod.fst ∧ Exclusive t.sealed := by
  have hsealed : t.sealed = s.sealed ++ packets.map Prod.fst := by
    rw [CommonSession.sealed, hstep.same]
    exact sealEach_origins _ _ _
  refine ⟨hsealed, ?_⟩
  rw [hsealed]
  refine h.exclusive.append_kex fun origin horigin => ?_
  obtain ⟨p, hp, rfl⟩ := List.mem_map.mp horigin
  exact hstep.isKex p hp

/-- A packet of the key exchange keeps the rule, unless it drops an exchange. -/
theorem advance (h : s.Shielded) {buf : Bytes} (hstep : Advance buf s t)
    (hempty : ∀ enc, s.encrypted = some enc → enc.write = [])
    (hallowed : s.encrypted.isSome = true → noKexInitInDh s.phase buf) : t.Shielded := by
  have hleft : ∀ {packets}, Seals s t packets → ∀ enc', t.encrypted = some enc' →
      enc'.write = [] := by
    intro packets hseals enc' henc'
    have henc := hseals.encrypted
    rw [henc'] at henc
    cases hs : s.encrypted with
    | none =>
      rw [hs] at henc
      cases henc
    | some enc =>
      rw [hs] at henc
      cases henc with
      | some henc =>
        rw [henc]
        exact hempty enc hs
  cases hstep with
  | skip ht =>
    rw [ht]
    exact h
  | answer hs ht hseals hpackets =>
    exact ⟨(h.seals hseals).2, fun _ => .inr ht, fun _ => hleft hseals⟩
  | serve hs ht hseals => exact ⟨(h.seals hseals).2, fun _ => .inr ht, fun _ => hleft hseals⟩
  | guess hs ht hseals => exact ⟨(h.seals hseals).2, fun _ => .inr ht, fun _ => hleft hseals⟩
  | finish hs ht hseals hlast =>
    obtain ⟨hsealed, hexclusive⟩ := h.seals hseals
    obtain ⟨init, rfl⟩ := List.getLast?_eq_some_iff.mp hlast
    refine ⟨hexclusive, fun hopen => ?_, fun hdh => by rw [ht] at hdh; cases hdh⟩
    rw [hsealed, List.map_append, List.map_singleton, ← List.append_assoc,
      unfinished_append] at hopen
    cases hopen
  | install hs ht hinstalls =>
    rename_i bytes packets
    have hdone := h.finished (by rw [hs]; decide) (by rw [hs]; decide)
    have hsealed : t.sealed = s.sealed ++ packets.map Prod.fst := by
      rw [CommonSession.sealed, hinstalls.same]
      exact sealEach_origins _ _ _
    have hservice : ∀ origin ∈ packets.map Prod.fst, origin ≠ .kexinit ∧ origin ≠ .newkeys := by
      intro origin horigin
      obtain ⟨p, hp, rfl⟩ := List.mem_map.mp horigin
      rw [(hinstalls.service p hp).1]
      decide
    refine ⟨?_, fun hopen => ?_, fun hdh => by rw [ht] at hdh; cases hdh⟩
    · rw [hsealed]
      exact h.exclusive.append_of hdone hservice
    · rw [hsealed, unfinished_append_of hservice, hdone] at hopen
      cases hopen
  | drop henc hbuf hs ht hseals =>
    obtain ⟨hsealed, hexclusive⟩ := h.seals hseals
    have hnewKeys := hs.resolve_left (hallowed henc hbuf)
    have hdone := h.finished (by rw [hnewKeys]; decide) (by rw [hnewKeys]; decide)
    refine ⟨hexclusive, fun hopen => ?_, fun hdh => by rw [ht] at hdh; cases hdh⟩
    rw [hsealed, List.map_nil, List.append_nil, hdone] at hopen
    cases hopen

/-- Local messages keep the rule: they are received outside an exchange. -/
theorem message (h : s.Shielded) (hstep : Relation.ReflTransGen (Local P) s t)
    (hphase : s.phase ≠ .waiting ∧ s.phase ≠ .dh) : t.Shielded ∧ t.phase = s.phase := by
  induction hstep with
  | refl => exact ⟨h, rfl⟩
  | @tail u v _ hlocal ih =>
    obtain ⟨hu, hsame⟩ := ih
    rw [← hsame] at hphase ⊢
    cases hlocal with
    | quiet hquiet =>
      exact ⟨hu.quiet hquiet hphase.2, phase_of_records hquiet.records.1 hquiet.records.2⟩
    | staged hstaged =>
      exact ⟨hu.staged hstaged, phase_of_records hstaged.records.1 hstaged.records.2⟩
    | service hpayload hv =>
      rename_i payload
      have hdone := hu.finished hphase.1 hphase.2
      have hsealed : v.sealed = u.sealed ++ [.service] := by
        rw [hv]
        simp [CommonSession.sealed, SSHBuffer.origins, SSHBuffer.sealed]
      have hrecords : v.phase = u.phase := by rw [hv]; rfl
      refine ⟨⟨?_, fun hopen => ?_, fun hdh => absurd (hrecords ▸ hdh) hphase.2⟩, hrecords⟩
      · rw [hsealed]
        exact hu.exclusive.append_of hdone (by simp)
      · rw [hsealed, unfinished_append_of (by simp), hdone] at hopen
        cases hopen

end CommonSession.Shielded

/-- A flush is noted, and what has been noted stays. -/
theorem FlushStep.withholds [SessionConfig C] {s t : CommonSession C} (h : FlushStep s t)
    (ht : t.Withholds) : s.Withholds := by
  have hmono : s.flushes <+: t.flushes := by
    cases h with
    | none h => exact List.prefix_rfl
    | packets h =>
      rw [h.session]
      exact List.prefix_append _ _
    | rekey h =>
      rename_i u enc enc' ex hwrite hcursor hrekey hex
      change s.flushes <+: u.flushes
      rw [h.session]
      exact List.prefix_append _ _
  exact fun f hf => ht f (hmono.subset hf)

/-- A session without a re-exchange in progress is in neither of the first phases. -/
theorem phase_of_idle {s : CommonSession C} {enc : Encrypted} (henc : s.encrypted = some enc)
    (hrekey : enc.rekey = none) : s.phase ≠ .waiting ∧ s.phase ≠ .dh := by
  simp only [CommonSession.phase, henc, Encrypted.phase, hrekey]
  split <;> simp

/-- Steps that leave the flushes leave the condition on them. -/
theorem Withholds.of_flushes {s t : CommonSession C} (ht : t.Withholds)
    (h : t.flushes = s.flushes) : s.Withholds := fun f hf => ht f (h ▸ hf)

/-- As long as no flush finds packets where it should not, no exchange is interrupted. -/
theorem shielded_invariant [SessionConfig C] (P : Bytes → Prop) :
    Invariant (C := C) P noKexInitInDh
      (fun s => s.Withholds → s.Shielded ∧ ∀ enc, s.encrypted = some enc → enc.write = [])
      (fun s => s.Withholds → s.Shielded) fun s => s.Withholds → Exclusive s.sealed where
  enter _ h hw := (h hw).1
  leave _ h hw := (h hw).exclusive
  inflate s enc decompress henc h hw := by
    obtain ⟨hs, hempty⟩ := h hw
    refine ⟨hs.of_same rfl ?_ fun _ enc' henc' => ⟨enc, henc, ?_⟩, fun enc' henc' => ?_⟩
    · refine phase_of_records rfl ?_
      rw [henc]
      exact .some ⟨rfl, rfl⟩
    · cases henc'
      rfl
    · cases henc'
      exact hempty enc henc
  advance s t buf h _ hallowed hadvance hw := by
    have hflushes : t.flushes = s.flushes := by
      cases hadvance with
      | skip ht => rw [ht]
      | answer _ _ hseals _ => rw [hseals.same]
      | serve _ _ hseals => rw [hseals.same]
      | guess _ _ hseals => rw [hseals.same]
      | finish _ _ hseals _ => rw [hseals.same]
      | install _ _ hinstalls => rw [hinstalls.same]
      | drop _ _ _ _ hseals => rw [hseals.same]
    obtain ⟨hs, hempty⟩ := h (Withholds.of_flushes hw hflushes)
    exact hs.advance hadvance hempty hallowed
  seals s t packets h _ hseals hw := by
    obtain ⟨hs, -⟩ := h (Withholds.of_flushes hw (by rw [hseals.same]))
    exact (hs.seals hseals).2
  turn s t h _ hlate hturn hw := by
    cases hturn with
    | busy hbusy =>
      cases hbusy with
      | quiet hquiet =>
        have hs := h (Withholds.of_flushes hw (by rw [hquiet.same]))
        by_cases hdh : s.phase = .dh
        · exact hs.flush (hlate (.inl hdh)) hw
        · exact hs.quiet hquiet hdh
      | flush hflush => exact (h (hflush.withholds hw)).flush hflush hw
    | staged hstaged => exact (h (Withholds.of_flushes hw (by rw [hstaged.same]))).staged hstaged
  message s t enc h _ henc hrekey hlocals hw := by
    have hflushes : t.flushes = s.flushes := by
      clear hw
      induction hlocals with
      | refl => rfl
      | tail _ hlocal ih =>
        rw [← ih]
        cases hlocal with
        | quiet hquiet => rw [hquiet.same]
        | staged hstaged => rw [hstaged.same]
        | service hpayload ht => rw [ht]
    obtain ⟨hs, -⟩ := h (Withholds.of_flushes hw hflushes)
    exact (hs.message hlocals (phase_of_idle henc hrekey)).1
  flush s t h _ hflush hw := by
    have hstep := flush_final s
    rw [hflush] at hstep
    have ht := (h (hstep.withholds hw)).flush hstep hw
    refine ⟨ht.of_same rfl rfl fun _ enc henc => ⟨enc, henc, rfl⟩, fun enc henc => ?_⟩
    exact flush_ok_write hflush henc
  settle s t h hstaged hw := by
    obtain ⟨hs, hempty⟩ := h (Withholds.of_flushes hw (by rw [hstaged.same]))
    refine ⟨hs.staged hstaged, fun enc' henc' => ?_⟩
    have henc := hstaged.encrypted
    rw [henc'] at henc
    cases hse : s.encrypted with
    | none =>
      rw [hse] at henc
      cases henc
    | some enc =>
      rw [hse] at henc
      cases henc with
      | some henc =>
        rw [henc.same]
        exact hempty enc hse

/-- The own KEXINIT of a session before its first turn begins its first exchange. -/
theorem CommonSession.Initial.shielded {s : CommonSession C} (h : s.Initial) : s.Shielded := by
  obtain ⟨payload, buffer, hbuffer⟩ := h.writeBuffer
  have hsealed : s.sealed = [.kexinit] := by
    rw [CommonSession.sealed, hbuffer]
    rfl
  refine ⟨?_, fun _ => .inl h.phase_eq, fun _ enc henc => ?_⟩
  · rw [hsealed]
    exact exclusive_nil.append fun _ => rfl
  · rw [h.encrypted] at henc
    cases henc

/-- Along the runs of a role that meet the condition no exchange is interrupted. -/
theorem Loop.run_exclusive {S M : Type} [SessionConfig C] {d : Driver C S M}
    (hd : d.Behaves fun _ => True) {s : S} (hs : (d.common s).Initial) (output : Bytes)
    (events : List (Event M))
    (hallowed : Along (iterate d) (Allows d noKexInitInDh) (start d s output) events)
    (hw : (d.common ((start d s output).run d events).session).Withholds) :
    Exclusive (d.common ((start d s output).run d events).session).sealed := by
  have hinv := shielded_invariant (C := C) fun _ => True
  have hstart := start_holds hd hinv (fun _ => hs.shielded) hs.sound output
  exact (run_holds hd hinv hstart events hallowed).ended hw

/-- In every run of either role in which no flush finds packets queued while
the session waits for the peer's KEXINIT, and no KEXINIT is served between
the peer's KEXINIT and the own NEWKEYS, a session seals nothing but packets of the
key exchange between its KEXINIT and its NEWKEYS. -/
theorem exchange_exclusive :
    (∀ config handler sshid world l, Server.runStream config handler sshid world = .ok l →
      ∀ events, Loop.Along (Loop.iterate (Server.driver handler))
          (Loop.Allows (Server.driver handler) noKexInitInDh) l events →
        (l.run (Server.driver handler) events).session.common.Withholds →
        Exclusive (l.run (Server.driver handler) events).session.common.sealed) ∧
    ∀ config app sshid world l, Client.connectStream config app sshid world = .ok l →
      ∀ events, Loop.Along (Loop.iterate (Client.driver app))
          (Loop.Allows (Client.driver app) noKexInitInDh) l events →
        (l.run (Client.driver app) events).session.common.Withholds →
        Exclusive (l.run (Client.driver app) events).session.common.sealed := by
  refine ⟨fun config handler sshid world l hl events hallowed hw => ?_,
    fun config app sshid world l hl events hallowed hw => ?_⟩
  · obtain ⟨s, output, hs, rfl⟩ := Server.runStream_start hl
    have hd := Server.driver_behaves (P := fun _ => True) (fun _ _ => trivial) handler
    exact Loop.run_exclusive hd hs output events hallowed hw
  · obtain ⟨s, output, hs, rfl⟩ := Client.connectStream_start hl
    have hd := Client.driver_behaves (P := fun _ => True) (fun _ _ => trivial) app
      fun _ _ _ _ => trivial
    exact Loop.run_exclusive hd hs output events hallowed hw

end

/-- An impatient server through its first exchange and the re-exchange it starts behind it, and
a client in its first exchange. -/
theorem exchange_exclusive_rekey :
    letI := Concrete.deps
    Exclusive (Concrete.impatient.run (Server.driver Concrete.handler) (Concrete.handshake ++
      [.arrive (Concrete.sealed Concrete.kexinit), .read,
        .arrive (Concrete.sealed (msg.KEX_ECDH_INIT :: sshString (zeros 32))), .read,
        .arrive (Concrete.sealed [msg.NEWKEYS]), .read])).session.common.sealed ∧
    Exclusive (Concrete.client.run (Client.driver Concrete.application)
      [.arrive (Concrete.clear Concrete.kexinit), .read]).session.common.sealed := by
  obtain ⟨hserver, hclient⟩ := @exchange_exclusive Concrete.deps
  exact ⟨hserver _ _ _ _ _ Concrete.impatient_eq _ (by decide +kernel) (by decide +kernel),
    hclient _ _ _ _ _ Concrete.connectStream_eq _ (by decide +kernel) (by decide +kernel)⟩

/-- An impatient server whose client had a service request in flight: it answers it between its
KEXINIT and the client's. -/
def inFlight {M : Type} : List (Event M) :=
  Concrete.handshake ++
    [.arrive (Concrete.sealed (msg.SERVICE_REQUEST :: sshString (ascii "ssh-userauth"))), .read]

/-- The answer to a packet in flight is sealed between the own KEXINIT and the own NEWKEYS. -/
theorem exchange_interrupted :
    letI := Concrete.deps
    (Concrete.impatient.run (Server.driver Concrete.handler) inFlight).stage = .running ∧
    (Concrete.impatient.run (Server.driver Concrete.handler) inFlight).session.common.sealed =
      [.kexinit, .ecdhReply, .newkeys, .kexinit, .queued] ∧
    ¬ Exclusive
      (Concrete.impatient.run (Server.driver Concrete.handler) inFlight).session.common.sealed := by
  have hsealed : letI := Concrete.deps
      (Concrete.impatient.run (Server.driver Concrete.handler) inFlight).session.common.sealed =
        [.kexinit, .ecdhReply, .newkeys, .kexinit, .queued] := by
    decide +kernel
  refine ⟨by decide +kernel, hsealed, fun hexclusive => ?_⟩
  rw [hsealed] at hexclusive
  have hqueued := hexclusive [.kexinit, .ecdhReply, .newkeys] [] [] .queued rfl (by simp)
  cases hqueued

end Thrussh
