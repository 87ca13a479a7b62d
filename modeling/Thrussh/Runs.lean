import Thrussh.Client.Exchange
import Thrussh.Dispatch
import Thrussh.Server.Exchange

/-!
# Invariants of the loops

What both roles have in common as far as their common session goes, and the
rule that carries an invariant of the common session through every run of a
loop: it is kept by the steps of a session, apart from a condition on the
payloads that are handed to `reply` and on the phase in which they are.
-/

namespace Thrussh

open Lib

variable [Deps] {C S M : Type} [SessionConfig C]

section
variable {P : Bytes → Prop} {s t : CommonSession C}

/-- Steps that leave the records of the exchange leave a session sound. -/
theorem CommonSession.Sound.of_records (hs : s.Sound) (hkex : t.kex = s.kex)
    (henc : Option.Rel (fun e e' => e'.rekey = e.rekey ∧ e'.exchange = e.exchange)
      s.encrypted t.encrypted) : t.Sound := by
  obtain ⟨fits, exclusive, first⟩ := hs
  unfold CommonSession.exchanging at fits
  generalize s.encrypted = a at fits exclusive first henc
  cases hb : t.encrypted with
  | none =>
    rw [hb] at henc
    cases henc
    refine ⟨fun k hk => fits k ?_, ?_, ?_⟩
    · rw [exchanging_none hb, hkex] at hk
      exact hk
    · intro enc henc
      rw [hb] at henc
      cases henc
    · intro h
      rw [hb] at h
      cases h
  | some enc' =>
    rw [hb] at henc
    cases henc with
    | some h =>
      refine ⟨fun k hk => fits k ?_, ?_, ?_⟩
      · rw [exchanging_some hb, h.1] at hk
        exact hk
      · intro enc henc hrekey
        rw [hb] at henc
        cases henc
        rw [h.2]
        rw [h.1] at hrekey
        exact exclusive _ rfl hrekey
      · intro _
        rw [hkex]
        exact first rfl

omit [SessionConfig C] in
theorem Quiet.records (h : Quiet P s t) :
    t.kex = s.kex ∧ Option.Rel (fun e e' => e'.rekey = e.rekey ∧ e'.exchange = e.exchange)
      s.encrypted t.encrypted := by
  refine ⟨by rw [h.same], ?_⟩
  have henc := h.encrypted
  generalize s.encrypted = a at henc
  generalize t.encrypted = b at henc
  cases henc with
  | none => exact .none
  | some henc => exact .some (by rw [henc.same]; exact ⟨rfl, rfl⟩)

omit [SessionConfig C] in
theorem Staged.records (h : Staged s t) :
    t.kex = s.kex ∧ Option.Rel (fun e e' => e'.rekey = e.rekey ∧ e'.exchange = e.exchange)
      s.encrypted t.encrypted := by
  refine ⟨by rw [h.same], ?_⟩
  have henc := h.encrypted
  generalize s.encrypted = a at henc
  generalize t.encrypted = b at henc
  cases henc with
  | none => exact .none
  | some henc => exact .some (by rw [henc.same]; exact ⟨rfl, rfl⟩)

theorem FlushStep.sound (h : FlushStep s t) (hs : s.Sound) : t.Sound := by
  cases h with
  | none h => exact hs
  | packets h =>
    refine hs.of_records (by rw [h.session]) ?_
    rw [h.encrypted, h.encrypted_eq]
    exact .some (by rw [h.same]; exact ⟨rfl, rfl⟩)
  | rekey h hwrite hcursor hrekey hex =>
    rename_i u enc enc' ex
    refine ⟨?_, ?_, fun _ => ?_⟩
    · intro k hk
      cases hk
      cases SessionConfig.role C <;> exact ⟨rfl, rfl⟩
    · intro e he _
      cases he
      rfl
    · change u.kex = Option.none
      rw [h.session]
      exact hs.first (by rw [h.encrypted]; rfl)

theorem Turn.sound (h : Turn P s t) (hs : s.Sound) : t.Sound := by
  cases h with
  | busy h =>
    cases h with
    | quiet h => exact hs.of_records h.records.1 h.records.2
    | flush h => exact h.sound hs
  | staged h => exact hs.of_records h.records.1 h.records.2

omit [SessionConfig C] in
/-- Two sessions with the same records are in the same phase. -/
theorem phase_of_records (hkex : t.kex = s.kex)
    (henc : Option.Rel (fun e e' => e'.rekey = e.rekey ∧ e'.exchange = e.exchange)
      s.encrypted t.encrypted) : t.phase = s.phase := by
  unfold CommonSession.phase
  generalize s.encrypted = a at henc
  generalize t.encrypted = b at henc
  cases henc with
  | none => rw [hkex]
  | some h =>
    dsimp only [Encrypted.phase]
    rw [h.1, h.2]

/-- A flush leaves the phase, or starts a re-exchange from the idle phase. -/
theorem FlushStep.phase_cases (h : FlushStep s t) :
    t.phase = s.phase ∨ s.phase = .idle ∧ t.phase = .waiting := by
  cases h with
  | none h => exact .inl rfl
  | packets h =>
    refine .inl (phase_of_records (by rw [h.session]) ?_)
    rw [h.encrypted, h.encrypted_eq]
    exact .some (by rw [h.same]; exact ⟨rfl, rfl⟩)
  | rekey h hwrite hcursor hrekey hex =>
    refine .inr ⟨?_, rfl⟩
    simp only [CommonSession.phase, h.encrypted, Encrypted.phase, hrekey, hex]
    rfl

/-- Outside the last steps of an exchange the session stays outside of them. -/
theorem Turn.phase_ne (h : Turn P s t) (hs : s.phase ≠ .dh ∧ s.phase ≠ .newKeys) :
    t.phase ≠ .dh ∧ t.phase ≠ .newKeys := by
  cases h with
  | busy h =>
    cases h with
    | quiet h => rwa [phase_of_records h.records.1 h.records.2]
    | flush h =>
      rcases h.phase_cases with hphase | ⟨-, hphase⟩
      · rwa [hphase]
      · rw [hphase]
        decide
  | staged h => rwa [phase_of_records h.records.1 h.records.2]

theorem Local.sound (h : Local P s t) (hs : s.Sound) : t.Sound := by
  cases h with
  | quiet h => exact hs.of_records h.records.1 h.records.2
  | staged h => exact hs.of_records h.records.1 h.records.2
  | service hpayload h =>
    subst h
    exact hs.of_records rfl (by
      cases s.encrypted with
      | none => exact .none
      | some e => exact .some ⟨rfl, rfl⟩)

end

/-- What the two roles have in common, as far as their common session goes. -/
structure Driver.Behaves (d : Driver C S M) (P : Bytes → Prop) : Prop where
  /-- The common part that was put is the one that is found. -/
  common_set : ∀ c s, d.common (d.setCommon c s) = c
  /-- A packet of a key exchange. -/
  exchange : ∀ s buf, (d.common s).Sound → (d.common s).InExchange buf →
    (∃ t, Advance buf (d.common s) (d.common t) ∧ (d.common t).Sound ∧
      (d.reply buf s = .ok () t ∨ d.reply buf s = zoom d.common d.setCommon flush t)) ∨
    ∃ e t packets, d.reply buf s = .error e t ∧ Seals (d.common s) (d.common t) packets
  /-- Any other packet. -/
  serve : ∀ s buf, (d.common s).Sound → ¬ (d.common s).InExchange buf →
    Relation.ReflTransGen (Turn P) (d.common s) (d.common (final (d.reply buf s)))
  /-- A local message. -/
  message : ∀ s m,
    Relation.ReflTransGen (Local P) (d.common s) (d.common (final (d.message m s)))
  /-- The end of a turn. -/
  settle : ∀ s, Staged (d.common s) (d.common (d.settle s))

/-- An invariant of the common session along the runs of a role. `allowed`
is the condition on the payloads handed to `reply` of an encrypted session,
and on the phase they find; `ready` holds between two events of a running loop, `mid` within a
turn, and `ended` in the end, also after a failure. -/
structure Invariant (P : Bytes → Prop) (allowed : Phase → Bytes → Prop)
    (ready mid ended : CommonSession C → Prop) : Prop where
  /-- A turn starts in a state of the turn. -/
  enter : ∀ s, ready s → mid s
  /-- A turn may end in any state of it. -/
  leave : ∀ s, mid s → ended s
  /-- A packet is decompressed. -/
  inflate : ∀ s enc decompress, s.encrypted = some enc → ready s →
    ready { s with encrypted := some { enc with decompress := decompress } }
  /-- A packet of a key exchange is served. -/
  advance : ∀ s t buf, ready s → s.Sound → (s.encrypted.isSome = true → allowed s.phase buf) →
    Advance buf s t → mid t
  /-- A packet of a key exchange fails. -/
  seals : ∀ s t packets, ready s → s.Sound → Seals s t packets → ended t
  /-- A step of the session in a turn; in the last steps of an exchange it can only be a flush. -/
  turn : ∀ s t, mid s → s.Sound → (s.phase = .dh ∨ s.phase = .newKeys → FlushStep s t) →
    Turn P s t → mid t
  /-- A local message is served. -/
  message : ∀ s t enc, ready s → s.Sound → s.encrypted = some enc → enc.rekey = none →
    Relation.ReflTransGen (Local P) s t → mid t
  /-- The turn ends with a flush, and what it has sealed is written. -/
  flush : ∀ s t, mid s → s.Sound → Thrussh.flush s = .ok () t →
    ready { t with writeBuffer := t.writeBuffer.clear }
  /-- The session settles. -/
  settle : ∀ s t, ready s → Staged s t → ready t

namespace Loop

variable {d : Driver C S M}

/-- The payload that a turn hands to `reply` when a read has left a buffer. -/
def payloadOf (d : Driver C S M) (l : Loop S) (b : SSHBuffer) : Option Bytes :=
  if b.buffer.length < 5 then none
  else match (d.common l.session).encrypted with
    | some enc =>
      match enc.decompress.decompress (b.buffer.drop 5) with
      | .ok (buf, _) => if served buf then some buf else none
      | .error _ => none
    | none => if served (b.buffer.drop 5) then some (b.buffer.drop 5) else none

/-- The payload that an event hands to `reply`. -/
def handed (d : Driver C S M) (l : Loop S) (e : Event M) : Option Bytes :=
  match e, l.stage, l.nextRead d with
  | .read, .running, .ok _ buffer _ => payloadOf d l buffer
  | .read, .running, .err _ buffer _ => if d.checksRead then none else payloadOf d l buffer
  | _, _, _ => none

/-- Whether what an event hands to `reply` of an encrypted session is allowed
in the phase it finds. -/
def Allows (d : Driver C S M) (allowed : Phase → Bytes → Prop) (l : Loop S) (e : Event M) : Prop :=
  ∀ buf ∈ handed d l e, (d.common l.session).encrypted.isSome = true →
    allowed (d.common l.session).phase buf

instance (d : Driver C S M) (allowed : Phase → Bytes → Prop)
    [∀ phase buf, Decidable (allowed phase buf)] (l : Loop S) (e : Event M) :
    Decidable (Allows d allowed l e) :=
  inferInstanceAs (Decidable (∀ buf ∈ handed d l e, _ → _))

omit [Deps] [SessionConfig C] in
/-- A running loop has not failed. -/
theorem alive_of_running {l : Loop S} (h : l.stage = .running) :
    ∀ e, l.stage ≠ .finished (.error e) := by
  intro e
  rw [h]
  simp

/-- What an invariant says of a loop between two events. -/
structure Holds (d : Driver C S M) (ready mid ended : CommonSession C → Prop) (l : Loop S) :
    Prop where
  /-- While it runs. -/
  running : l.stage = .running → ready (d.common l.session) ∧ (d.common l.session).Sound
  /-- As long as it has not failed. -/
  alive : (∀ e, l.stage ≠ .finished (.error e)) →
    mid (d.common l.session) ∧ (d.common l.session).Sound
  /-- In the end. -/
  ended : ended (d.common l.session)

variable {P : Bytes → Prop} {allowed : Phase → Bytes → Prop}
  {ready mid ended : CommonSession C → Prop}

/-- What each step keeps, finitely many of them keep. -/
theorem mid_of_turns (hi : Invariant P allowed ready mid ended) {s t : CommonSession C}
    (h : Relation.ReflTransGen (Turn P) s t) (hs : mid s) (hsound : s.Sound)
    (hphase : s.phase ≠ .dh ∧ s.phase ≠ .newKeys) : mid t ∧ t.Sound := by
  have hall : mid t ∧ t.Sound ∧ t.phase ≠ .dh ∧ t.phase ≠ .newKeys := by
    induction h with
    | refl => exact ⟨hs, hsound, hphase⟩
    | tail _ h ih =>
      obtain ⟨hmid, hsound, hphase⟩ := ih
      refine ⟨hi.turn _ _ hmid hsound (fun hlate => ?_) h, h.sound hsound, h.phase_ne hphase⟩
      exact (hlate.elim hphase.1 hphase.2).elim
  exact ⟨hall.1, hall.2.1⟩

theorem sound_of_locals {s t : CommonSession C}
    (h : Relation.ReflTransGen (Local P) s t) (hsound : s.Sound) : t.Sound := by
  induction h with
  | refl => exact hsound
  | tail _ h ih => exact h.sound ih

theorem leave_holds (hi : Invariant P allowed ready mid ended) {l : Loop S}
    (h : mid (d.common l.session)) (hsound : (d.common l.session).Sound) :
    Holds d ready mid ended (l.leave d) := by
  refine ⟨fun hrunning => ?_, fun _ => ⟨h, hsound⟩, hi.leave _ h⟩
  unfold leave at hrunning
  dsimp only at hrunning
  split at hrunning <;> cases hrunning

theorem fail_holds {l : Loop S} {s : S} {e : Fault} (h : ended (d.common s)) :
    Holds d ready mid ended (l.fail s e) := by
  refine ⟨fun hrunning => ?_, fun halive => ?_, h⟩
  · cases hrunning
  · exact absurd rfl (halive e)

/-- The end of a turn makes a state of the turn ready again. -/
theorem endTurn_holds (hd : d.Behaves P) (hi : Invariant P allowed ready mid ended) {l : Loop S}
    (hmid : mid (d.common l.session)) (hsound : (d.common l.session).Sound) :
    Holds d ready mid ended (endTurn d l) := by
  have hstep := flush_final (d.common l.session)
  unfold endTurn zoom
  cases hflush : flush (d.common l.session) with
  | error e t =>
    rw [hflush] at hstep
    refine fail_holds ?_
    rw [hd.common_set]
    exact hi.leave _ (hi.turn _ _ hmid hsound (fun _ => hstep) (.busy (.flush hstep)))
  | ok u t =>
    rw [hflush] at hstep
    have hready := hi.flush _ t hmid hsound hflush
    have hclear : d.common (clearWrite d (d.setCommon t l.session)) =
        { t with writeBuffer := t.writeBuffer.clear } := by
      unfold clearWrite
      rw [hd.common_set, hd.common_set]
    have hstaged := hd.settle (clearWrite d (d.setCommon t l.session))
    have hready' := hi.settle _ _ (by rw [hclear]; exact hready) hstaged
    have hsound' : (d.common (d.settle (clearWrite d (d.setCommon t l.session)))).Sound := by
      refine CommonSession.Sound.of_records ?_ hstaged.records.1 hstaged.records.2
      rw [hclear]
      have ht := hstep.sound hsound
      exact ⟨ht.fits, ht.exclusive, ht.first⟩
    dsimp only
    split
    · exact leave_holds hi (hi.enter _ hready') hsound'
    · have hmid' := hi.enter _ hready'
      exact ⟨fun _ => ⟨hready', hsound'⟩, fun _ => ⟨hmid', hsound'⟩, hi.leave _ hmid'⟩

/-- What `reply` leaves when it returns, and when it fails. -/
theorem reply_mid (hd : d.Behaves P) (hi : Invariant P allowed ready mid ended) {s : S}
    (buf : Bytes) (hready : ready (d.common s)) (hsound : (d.common s).Sound)
    (hallowed : (d.common s).encrypted.isSome = true → allowed (d.common s).phase buf) :
    match d.reply buf s with
    | .ok _ t => mid (d.common t) ∧ (d.common t).Sound
    | .error _ t => ended (d.common t) := by
  by_cases hin : (d.common s).InExchange buf
  · rcases hd.exchange s buf hsound hin with ⟨t, hadvance, ht, hreply | hreply⟩ |
      ⟨e, t, packets, hreply, hseals⟩
    · rw [hreply]
      exact ⟨hi.advance _ _ buf hready hsound hallowed hadvance, ht⟩
    · have hmid := hi.advance _ _ buf hready hsound hallowed hadvance
      have hstep := flush_final (d.common t)
      rw [hreply]
      unfold zoom
      cases hflush : flush (d.common t) with
      | ok u c =>
        rw [hflush] at hstep
        dsimp only
        rw [hd.common_set]
        exact ⟨hi.turn _ _ hmid ht (fun _ => hstep) (.busy (.flush hstep)), hstep.sound ht⟩
      | error e c =>
        rw [hflush] at hstep
        dsimp only
        rw [hd.common_set]
        exact hi.leave _ (hi.turn _ _ hmid ht (fun _ => hstep) (.busy (.flush hstep)))
    · rw [hreply]
      exact hi.seals _ _ packets hready hsound hseals
  · have hphase : (d.common s).phase ≠ .dh ∧ (d.common s).phase ≠ .newKeys :=
      ⟨fun h => hin (.inr (.inr (.inl h))), fun h => hin (.inr (.inr (.inr h)))⟩
    have hturns := mid_of_turns hi (hd.serve s buf hsound hin) (hi.enter _ hready) hsound hphase
    cases hreply : d.reply buf s with
    | ok u t =>
      rw [hreply] at hturns
      exact hturns
    | error e t =>
      rw [hreply] at hturns
      exact hi.leave _ hturns.1

/-- Handing a payload on keeps what an invariant says. -/
theorem serve_holds (hd : d.Behaves P) (hi : Invariant P allowed ready mid ended) {l : Loop S}
    (hstage : l.stage = .running) (h : Holds d ready mid ended l) {buf : Bytes}
    (hallowed : served buf = true → (d.common l.session).encrypted.isSome = true →
      allowed (d.common l.session).phase buf) :
    Holds d ready mid ended (serve d l buf) := by
  obtain ⟨hready, hsound⟩ := h.running hstage
  unfold serve
  cases buf with
  | nil => exact h
  | cons m rest =>
    dsimp only
    by_cases hdisconnect : m = msg.DISCONNECT
    · rw [if_pos hdisconnect]
      exact leave_holds hi (hi.enter _ hready) hsound
    rw [if_neg hdisconnect]
    by_cases hsmall : m ≤ 4
    · rw [if_pos hsmall]
      exact h
    rw [if_neg hsmall]
    have hserved : served (m :: rest) = true := by simp [served, hdisconnect, hsmall]
    have hreply := reply_mid hd hi _ hready hsound (hallowed hserved)
    cases hresult : d.reply (m :: rest) l.session with
    | ok u s =>
      rw [hresult] at hreply
      exact endTurn_holds hd hi hreply.1 hreply.2
    | error e s =>
      rw [hresult] at hreply
      exact fail_holds hreply

/-- The read branch keeps what an invariant says. -/
theorem handle_holds (hd : d.Behaves P) (hi : Invariant P allowed ready mid ended) {l : Loop S}
    (hstage : l.stage = .running) (h : Holds d ready mid ended l) (fresh : Bool)
    (hallowed : ∀ buf, payloadOf d l l.buffer = some buf →
      (d.common l.session).encrypted.isSome = true → allowed (d.common l.session).phase buf) :
    Holds d ready mid ended (handle d l fresh) := by
  obtain ⟨hready, hsound⟩ := h.running hstage
  unfold handle
  unfold payloadOf at hallowed
  by_cases hshort : l.buffer.buffer.length < 5
  · rw [if_pos hshort]
    exact leave_holds hi (hi.enter _ hready) hsound
  rw [if_neg hshort]
  simp only [if_neg hshort] at hallowed
  cases henc : (d.common l.session).encrypted with
  | none =>
    simp only [henc] at hallowed
    dsimp only
    have hpass : ∀ l' : Loop S, l'.session = l.session → l'.stage = .running →
        Holds d ready mid ended (serve d l' (l.buffer.buffer.drop 5)) := by
      intro l' hsession hstage'
      refine serve_holds hd hi hstage' ⟨fun _ => ?_, fun _ => ?_, ?_⟩ fun hserved => ?_
      · rw [hsession]
        exact ⟨hready, hsound⟩
      · rw [hsession]
        exact ⟨hi.enter _ hready, hsound⟩
      · rw [hsession]
        exact h.ended
      · rw [hsession, henc]
        exact hallowed _ (if_pos hserved)
    split
    · exact hpass _ rfl hstage
    · exact hpass _ rfl hstage
  | some enc =>
    simp only [henc] at hallowed
    dsimp only
    cases hdecompress : enc.decompress.decompress (l.buffer.buffer.drop 5) with
    | error e =>
      cases e with
      | error e => exact leave_holds hi (hi.enter _ hready) hsound
      | panic => exact fail_holds h.ended
      | overflow => exact fail_holds h.ended
      | diverge => exact fail_holds h.ended
    | ok res =>
      obtain ⟨buf, decompress⟩ := res
      simp only [hdecompress] at hallowed
      have hready' := hi.inflate _ enc decompress henc hready
      dsimp only
      have hsound' : CommonSession.Sound { d.common l.session with
          encrypted := some { enc with decompress := decompress } } := by
        refine hsound.of_records rfl ?_
        rw [henc]
        exact .some ⟨rfl, rfl⟩
      refine serve_holds hd hi (by exact hstage) ⟨fun _ => ?_, fun _ => ?_, ?_⟩ fun hserved => ?_
      · dsimp only [pass]
        rw [hd.common_set]
        exact ⟨hready', hsound'⟩
      · dsimp only [pass]
        rw [hd.common_set]
        exact ⟨hi.enter _ hready', hsound'⟩
      · dsimp only [pass]
        rw [hd.common_set]
        exact hi.leave _ (hi.enter _ hready')
      · dsimp only [pass]
        rw [hd.common_set]
        have hphase : CommonSession.phase { d.common l.session with
            encrypted := some { enc with decompress := decompress } } =
            (d.common l.session).phase := by
          simp only [CommonSession.phase, henc]
          rfl
        rw [hphase]
        exact fun _ => hallowed buf (if_pos hserved) rfl

/-- One event keeps what an invariant says, if its payload is allowed. -/
theorem iterate_holds (hd : d.Behaves P) (hi : Invariant P allowed ready mid ended) {l : Loop S}
    (h : Holds d ready mid ended l) (e : Event M) (hallowed : Allows d allowed l e) :
    Holds d ready mid ended (iterate d l e) := by
  have hsame : ∀ l' : Loop S, l'.session = l.session → (l'.stage = .running → l.stage = .running) →
      ((∀ e, l'.stage ≠ .finished (.error e)) → ∀ e, l.stage ≠ .finished (.error e)) →
      Holds d ready mid ended l' := by
    intro l' hsession hstage halive
    refine ⟨fun hrunning => ?_, fun hnone => ?_, ?_⟩
    · rw [hsession]
      exact h.running (hstage hrunning)
    · rw [hsession]
      exact h.alive (halive hnone)
    · rw [hsession]
      exact h.ended
  cases e with
  | arrive bytes =>
    unfold iterate
    dsimp only
    split
    · exact h
    · exact hsame _ rfl id id
  | close => exact hsame _ rfl id id
  | timeout =>
    unfold iterate
    dsimp only
    split
    · rename_i hrunning
      exact leave_holds hi (hi.enter _ (h.running hrunning.1).1) (h.running hrunning.1).2
    · exact h
  | message m taken =>
    unfold iterate
    dsimp only
    by_cases hstage : l.stage = .running
    · rw [if_pos hstage]
      obtain ⟨hready, hsound⟩ := h.running hstage
      unfold turnMessage
      by_cases hcannot : (l.isRekeying d || !l.canHaveTaken d taken) = true
      · rw [if_pos hcannot]
        exact h
      rw [if_neg hcannot]
      have hidle : l.isRekeying d = false := by
        simp only [Bool.or_eq_true, not_or, Bool.not_eq_true] at hcannot
        exact hcannot.1
      obtain ⟨enc, henc, hrekey⟩ : ∃ enc, (d.common l.session).encrypted = some enc ∧
          enc.rekey = none := by
        unfold isRekeying at hidle
        cases henc : (d.common l.session).encrypted with
        | none => simp [henc] at hidle
        | some enc => exact ⟨enc, rfl, by simpa [henc] using hidle⟩
      have hlocals := hd.message l.session m
      have hmid := hi.message _ _ enc hready hsound henc hrekey hlocals
      have hsound' := sound_of_locals hlocals hsound
      dsimp only
      cases hmessage : d.message m l.session with
      | error e s =>
        rw [hmessage] at hmid
        exact fail_holds (hi.leave _ hmid)
      | ok b s =>
        rw [hmessage] at hmid hsound'
        cases b with
        | true => exact leave_holds hi hmid hsound'
        | false => exact endTurn_holds hd hi hmid hsound'
    · rw [if_neg hstage]
      exact h
  | read =>
    cases hstage : l.stage with
    | running =>
      have hnot : ∀ e, l.stage ≠ .finished (.error e) := by simp [hstage]
      simp only [iterate, hstage, turnRead]
      cases hread : l.nextRead d with
      | pending => exact h
      | panic => exact fail_holds h.ended
      | ok n buffer rest =>
        dsimp only
        refine handle_holds (l := { l with
            buffer := buffer, stream := rest, stage := .running }) hd hi rfl
          (hsame _ rfl (fun _ => hstage) fun _ => hnot) true fun buf hbuf => ?_
        refine hallowed buf ?_
        simp only [handed, hstage, hread]
        exact hbuf
      | err e buffer rest =>
        dsimp only
        by_cases hchecks : d.checksRead = true
        · rw [if_pos hchecks]
          exact leave_holds hi (hi.enter _ (h.running hstage).1) (h.running hstage).2
        · rw [if_neg hchecks]
          refine handle_holds (l := { l with
              buffer := buffer, stream := rest, stage := .running }) hd hi rfl
            (hsame _ rfl (fun _ => hstage) fun _ => hnot) false fun buf hbuf => ?_
          refine hallowed buf ?_
          simp only [handed, hstage, hread, if_neg hchecks]
          exact hbuf
    | draining =>
      have hnot : ∀ e, l.stage ≠ .finished (.error e) := by simp [hstage]
      simp only [iterate, hstage, drain]
      split
      · exact h
      · exact fail_holds h.ended
      · split
        · exact hsame _ rfl (fun hrunning => by cases hrunning) fun _ => hnot
        · exact hsame _ rfl (fun hrunning => by cases hrunning) fun _ => hnot
      · exact hsame _ rfl (fun hrunning => by cases hrunning) fun _ => hnot
    | finished result =>
      simp only [iterate, hstage]
      exact h

/-- Every run whose payloads are allowed keeps what an invariant says. -/
theorem run_holds (hd : d.Behaves P) (hi : Invariant P allowed ready mid ended) {l : Loop S}
    (h : Holds d ready mid ended l) (events : List (Event M))
    (hallowed : Along (iterate d) (Allows d allowed) l events) :
    Holds d ready mid ended (run d l events) := by
  induction events generalizing l with
  | nil => exact h
  | cons e events ih => exact ih (iterate_holds hd hi h e hallowed.1) hallowed.2

/-- An invariant whose turn can begin in a session holds before the first turn. -/
theorem start_holds (hd : d.Behaves P) (hi : Invariant P allowed ready mid ended) {s : S}
    (hmid : mid (d.common s)) (hsound : (d.common s).Sound) (output : Bytes) :
    Holds d ready mid ended (start d s output) := by
  have hstep := flush_final (d.common s)
  unfold start zoom
  dsimp only
  cases hflush : flush (d.common s) with
  | error e t =>
    rw [hflush] at hstep
    dsimp only
    refine fail_holds ?_
    rw [hd.common_set]
    exact hi.leave _ (hi.turn _ _ hmid hsound (fun _ => hstep) (.busy (.flush hstep)))
  | ok u t =>
    rw [hflush] at hstep
    have hclear : d.common (clearWrite d (d.setCommon t s)) =
        { t with writeBuffer := t.writeBuffer.clear } := by
      unfold clearWrite
      rw [hd.common_set, hd.common_set]
    have hready : ready (d.common (clearWrite d (d.setCommon t s))) := by
      rw [hclear]
      exact hi.flush _ t hmid hsound hflush
    have hsound' : (d.common (clearWrite d (d.setCommon t s))).Sound := by
      rw [hclear]
      have ht := hstep.sound hsound
      exact ⟨ht.fits, ht.exclusive, ht.first⟩
    dsimp only
    split
    · exact leave_holds hi (hi.enter _ hready) hsound'
    · have hmid' := hi.enter _ hready
      exact ⟨fun _ => ⟨hready, hsound'⟩, fun _ => ⟨hmid', hsound'⟩, hi.leave _ hmid'⟩

end Loop

end Thrussh
