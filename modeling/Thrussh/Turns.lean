import Thrussh.Hearing
import Thrussh.Written

/-!
# Where a side of a connection stands along its run

A loop that runs stands at a place of its script, has nothing left to write,
and has heard what it has opened. What it has told its peer is the transcript of
some place it has stood at: a loop that is left, also by an error, has
written nothing since.
-/

namespace Thrussh

open Lib

variable [Deps] {C S M : Type} [SessionConfig C]

/-! ### What is sealed stays so -/

section
variable {P : Bytes → Prop} {s t : CommonSession C}

/-- What is sealed and what is queued is only appended to. -/
structure CommonSession.Grows (s t : CommonSession C) : Prop where
  /-- What is sealed. -/
  sealed : s.writeBuffer.history <+: t.writeBuffer.history
  /-- What is queued. -/
  queued : s.emitted <+: t.emitted

omit [SessionConfig C] in
theorem CommonSession.Grows.refl (s : CommonSession C) : s.Grows s :=
  ⟨List.prefix_refl _, List.prefix_refl _⟩

omit [SessionConfig C] in
theorem CommonSession.Grows.trans {u : CommonSession C} (h : s.Grows t) (h' : t.Grows u) :
    s.Grows u :=
  ⟨h.sealed.trans h'.sealed, h.queued.trans h'.queued⟩

omit [SessionConfig C] in
/-- A step that leaves what the session stands at. -/
theorem grows_of_standing (hsealed : s.writeBuffer.history <+: t.writeBuffer.history)
    (hstanding : t.standing = s.standing) : s.Grows t := by
  have hemitted : t.emitted = s.emitted := by rw [CommonSession.emitted, CommonSession.emitted, hstanding]
  exact ⟨hsealed, hemitted ▸ List.prefix_refl _⟩

omit [SessionConfig C] in
theorem Carries.grows {role : Role} (h : Carries role s t) :
    s.writeBuffer.history <+: t.writeBuffer.history := by
  cases h with
  | same _ _ hhistory => exact hhistory
  | begins _ _ _ _ _ hhistory _ => exact hhistory

omit [SessionConfig C] in
theorem Seals.grows {packets : List (Origin × Bytes)} (h : Seals s t packets) : s.Grows t := by
  refine grows_of_standing ?_ h.standing_eq
  rw [h.same]
  exact sealEach_grows _ _ _

omit [SessionConfig C] in
theorem Installs.grows {bytes : Nat} {packets : List (Origin × Bytes)}
    (h : Installs s t bytes packets) : s.Grows t := by
  have hrel := h.encrypted
  constructor
  · rw [h.same]
    exact sealEach_grows { s.writeBuffer with bytes := bytes } _ _
  · cases hs : s.encrypted with
    | none =>
      rw [emitted_none hs]
      exact List.nil_prefix
    | some enc =>
      rw [hs] at hrel
      obtain ⟨enc', henc', hsame⟩ := hrel
      have hemitted : t.emitted = s.emitted := by rw [emitted_some hs, emitted_some henc', hsame]
      exact hemitted ▸ List.prefix_refl _

omit [SessionConfig C] in
theorem Advance.grows {buf : Bytes} (h : Advance buf s t) : s.Grows t := by
  cases h with
  | skip h =>
    rw [h]
    exact .refl _
  | answer _ _ h => exact h.grows
  | serve _ _ h => exact h.grows
  | guess _ _ h => exact h.grows
  | finish _ _ h => exact h.grows
  | install _ _ h => exact h.grows
  | drop _ _ _ _ h => exact h.grows

theorem FlushStep.grows (h : FlushStep s t) : s.Grows t :=
  grows_of_standing h.carries.grows h.standing_eq

omit [SessionConfig C] in
/-- What each step only appends to, finitely many of them only append to. -/
theorem grows_all {R : CommonSession C → CommonSession C → Prop} (hR : ∀ s t, R s t → s.Grows t)
    (h : Relation.ReflTransGen R s t) : s.Grows t := by
  induction h with
  | refl => exact .refl _
  | tail _ hstep ih => exact ih.trans (hR _ _ hstep)

variable {d : Driver C S M}

/-- A packet only adds to what is sealed. -/
theorem Driver.Behaves.reply_grows (hd : d.Behaves P) {s : S} (hs : (d.common s).Sound)
    (buf : Bytes) : (d.common s).Grows (d.common (final (d.reply buf s))) := by
  by_cases hin : (d.common s).InExchange buf
  · rcases hd.exchange s buf hs hin with
      ⟨t, hadvance, hsound, hreply | hreply⟩ | ⟨e, t, packets, hreply, hseals⟩
    · rw [hreply, final_ok]
      exact hadvance.grows
    · have hstep := (flush_final (d.common t)).grows
      have hfinal : d.common (final (d.reply buf s)) = final (flush (d.common t)) := by
        rw [hreply]
        unfold zoom
        cases flush (d.common t) with
        | ok a c => exact hd.common_set c t
        | error e c => exact hd.common_set c t
      rw [hfinal]
      exact hadvance.grows.trans hstep
    · rw [hreply, final_error]
      exact hseals.grows
  · exact grows_all (fun _ _ h => ⟨h.carries.grows, h.emitted_grows⟩) (hd.serve s buf hs hin)

/-- So does a local message. -/
theorem Driver.Behaves.message_grows (hd : d.Behaves P) (s : S) (m : Option M) :
    (d.common s).Grows (d.common (final (d.message m s))) :=
  grows_all (fun _ _ h => ⟨h.carries.grows, h.emitted_grows⟩) (hd.message s m)

end

namespace Loop

variable (d : Driver C S M) (x : Script C) (line : Bytes)

/-- What a loop has told its peer: behind the line, the transcript of a place. -/
structure Told (v : Progress) (history : List PacketRecord) (l : Loop S) : Prop where
  /-- What has been written. -/
  written : ∃ before b, l.output = line ++ before ∧ b.buffer = [] ∧ b.history = history ∧
    Transcript x v before b
  /-- It has been sealed. -/
  sealed : history <+: (d.common l.session).writeBuffer.history
  /-- What is ordinary of it has been queued. -/
  queued : ordinaries (history.map PacketRecord.payload) <+: ordinaries (d.common l.session).emitted

/-- Where a loop that runs stands. -/
structure Stands (v : Progress) (l : Loop S) : Prop where
  /-- The place. -/
  place : ∃ before, l.output = line ++ before ∧ Standing x v before (d.common l.session)
  /-- Everything sealed is written. -/
  cleared : (d.common l.session).writeBuffer.buffer = []
  /-- The session is sound. -/
  sound : (d.common l.session).Sound
  /-- Nothing is queued. -/
  drained : (d.common l.session).Drained

/-- What an event leaves of a loop that has told a history and hears something: where it
stands then, or where it stood when it wrote for the last time. -/
def Outcome (v : Progress) (heard : List Bytes) (history : List PacketRecord) (l : Loop S) : Prop :=
  ∃ v' history', Told d x line v' history' l ∧ history <+: history' ∧ v.past <+: v'.past ∧
    (v'.heard = v.heard ∨ v'.heard = heard) ∧
    (l.stage = .running → Stands d x line v' l ∧
      history' = (d.common l.session).writeBuffer.history ∧ v'.heard = heard)

variable {d x line} {E : CommonSession C → Bytes → CommonSession C → Prop} {v : Progress}
  {heard : List Bytes} {history : List PacketRecord} {l l' : Loop S}

/-- A loop that runs has told everything that it has sealed. -/
theorem Stands.told (h : Stands d x line v l) :
    Told d x line v (d.common l.session).writeBuffer.history l := by
  obtain ⟨before, houtput, hstanding⟩ := h.place
  exact ⟨⟨before, _, houtput, h.cleared, rfl, hstanding.transcript⟩, List.prefix_refl _,
    hstanding.ordinaries_leads⟩

/-- A loop that has written nothing more has told the same. -/
theorem Told.stop (h : Told d x line v history l) (houtput : l'.output = l.output)
    (hgrows : (d.common l.session).Grows (d.common l'.session)) : Told d x line v history l' := by
  obtain ⟨before, b, hwritten, hbuffer, hhistory, htranscript⟩ := h.written
  exact ⟨⟨before, b, houtput.trans hwritten, hbuffer, hhistory, htranscript⟩,
    h.sealed.trans hgrows.sealed, h.queued.trans (ordinaries_mono hgrows.queued)⟩

/-- A loop that is left without having written more. -/
theorem Stands.left (h : Stands d x line v l) (l' : Loop S) (hstage : l'.stage ≠ .running)
    (houtput : l'.output = l.output) (hgrows : (d.common l.session).Grows (d.common l'.session))
    (heard : List Bytes) :
    Outcome d x line v heard (d.common l.session).writeBuffer.history l' :=
  ⟨v, _, h.told.stop houtput hgrows, List.prefix_refl _, List.prefix_refl _, .inl rfl,
    fun hrunning => absurd hrunning hstage⟩

/-- A loop whose session and output are the same. -/
theorem Stands.stays (h : Stands d x line v l) (houtput : l'.output = l.output)
    (hcommon : d.common l'.session = d.common l.session) :
    Outcome d x line v v.heard (d.common l.session).writeBuffer.history l' := by
  have hgrows : (d.common l.session).Grows (d.common l'.session) := by
    rw [hcommon]
    exact .refl _
  refine ⟨v, _, h.told.stop houtput hgrows, List.prefix_refl _, List.prefix_refl _, .inl rfl,
    fun _ => ⟨⟨?_, ?_, ?_, ?_⟩, ?_, rfl⟩⟩
  · rw [houtput, hcommon]
    exact h.place
  · rw [hcommon]
    exact h.cleared
  · rw [hcommon]
    exact h.sound
  · rw [hcommon]
    exact h.drained
  · rw [hcommon]

/-- The end of a turn queues nothing. -/
theorem endTurn_emitted {P : Bytes → Prop} (hd : d.Behaves P) (l : Loop S) :
    (d.common (Loop.endTurn d l).session).emitted = (d.common l.session).emitted := by
  have hstep := flush_final (d.common l.session)
  have hset := hd.common_set
  unfold Loop.endTurn zoom
  cases hresult : flush (d.common l.session) with
  | error e t =>
    rw [hresult, final_error] at hstep
    change (d.common (d.setCommon t l.session)).emitted = _
    rw [hset, CommonSession.emitted, CommonSession.emitted, hstep.standing_eq]
  | ok _ t =>
    rw [hresult, final_ok] at hstep
    have hsettled : (d.common (d.settle (clearWrite d (d.setCommon t l.session)))).emitted =
        (d.common l.session).emitted := by
      rw [(hd.settle _).emitted_eq]
      unfold clearWrite
      rw [hset, hset, CommonSession.emitted, CommonSession.emitted, ← hstep.standing_eq]
      rfl
    dsimp only
    split
    · exact hsettled
    · exact hsettled

/-- The session at the end of a turn whose flush returns. -/
theorem settled (hd : d.Performs x E) {t : S} {c : CommonSession C} {before : Bytes}
    (hstanding : Standing x v before (d.common t)) (hsound : (d.common t).Sound)
    (hflush : flush (d.common t) = .ok () c) {u : S}
    (hu : u = d.settle (clearWrite d (d.setCommon c t))) (hroomy : (d.common u).Roomy) :
    (∃ own, Standing x { v with own := own } (before ++ c.writeBuffer.buffer) (d.common u)) ∧
      (d.common u).writeBuffer = c.writeBuffer.clear ∧ (d.common u).Sound ∧
      (d.common u).Drained := by
  have hset := hd.behaves.common_set
  have hstep := flush_final (d.common t)
  rw [hflush, final_ok] at hstep
  have hcommon : d.common (clearWrite d (d.setCommon c t)) =
      { c with writeBuffer := c.writeBuffer.clear } := by
    unfold clearWrite
    rw [hset, hset]
  have hstaged := hd.behaves.settle (clearWrite d (d.setCommon c t))
  rw [← hu, hcommon] at hstaged
  have hemitted : (d.common u).emitted = (d.common t).emitted := by
    rw [hstaged.emitted_eq, CommonSession.emitted, CommonSession.emitted, ← hstep.standing_eq]
    rfl
  refine ⟨?_, by rw [hstaged.same], ?_, ?_⟩
  · have hroomy' : (d.common t).Roomy := hroomy.of_later (hemitted ▸ List.prefix_refl _)
    obtain ⟨own, hown⟩ := hstanding.flush hstep hroomy'
    exact ⟨own, hown.cleared.staged hstaged⟩
  · refine CommonSession.Sound.of_records ?_ hstaged.records.1 hstaged.records.2
    have hc := hstep.sound hsound
    exact ⟨hc.fits, hc.exclusive, hc.first⟩
  · have hblank : c.Blank := fun enc henc => flush_ok_empty hflush henc
    have hsettled := (blank_invariant (C := C) fun _ => True).settle _ _ (by exact hblank) hstaged
    exact hsettled.drained

/-- A turn ends: what is sealed is written, unless the flush fails. -/
theorem Stands.endTurn (h : Stands d x line v l) (hd : d.Performs x E) (l₁ : Loop S)
    (houtput : l₁.output = l.output) {v₁ : Progress}
    (hplace : ∃ before, l.output = line ++ before ∧ Standing x v₁ before (d.common l₁.session))
    (hsound : (d.common l₁.session).Sound)
    (hgrows : (d.common l.session).Grows (d.common l₁.session))
    (hpast : v.past <+: v₁.past) (hroomy : (d.common (Loop.endTurn d l₁).session).Roomy) :
    Outcome d x line v v₁.heard (d.common l.session).writeBuffer.history (Loop.endTurn d l₁) := by
  have hset := hd.behaves.common_set
  have hflushGrows := (flush_final (d.common l₁.session)).grows
  unfold Loop.endTurn at hroomy ⊢
  unfold zoom at hroomy ⊢
  cases hresult : flush (d.common l₁.session) with
  | error e t =>
    rw [hresult, final_error] at hflushGrows
    refine h.left (l₁.fail (d.setCommon t l₁.session) e) (by simp [fail]) houtput ?_ _
    change (d.common l.session).Grows (d.common (d.setCommon t l₁.session))
    rw [hset]
    exact hgrows.trans hflushGrows
  | ok _ t =>
    rw [hresult, final_ok] at hflushGrows
    rw [hresult] at hroomy
    obtain ⟨before, hbefore, hstanding⟩ := hplace
    have hroomy' : (d.common (d.settle (clearWrite d (d.setCommon t l₁.session)))).Roomy := by
      dsimp only at hroomy
      split at hroomy <;> exact hroomy
    obtain ⟨⟨own, hown⟩, hbuffer, hsound', hdrained⟩ :=
      settled hd hstanding hsound hresult rfl hroomy'
    have houtcome : ∀ l' : Loop S, l'.session = d.settle (clearWrite d (d.setCommon t l₁.session)) →
        l'.output = l₁.output ++ (d.common (d.setCommon t l₁.session)).writeBuffer.buffer →
        Outcome d x line v v₁.heard (d.common l.session).writeBuffer.history l' := by
      intro l' hsession hwritten
      rw [← hsession] at hown hbuffer hsound' hdrained
      rw [hset, houtput, hbefore, List.append_assoc] at hwritten
      have hlast : Stands d x line { v₁ with own := own } l' :=
        ⟨⟨_, hwritten, hown⟩, by rw [hbuffer]; rfl, hsound', hdrained⟩
      refine ⟨_, _, hlast.told, ?_, hpast, .inr rfl, fun _ => ⟨hlast, rfl, rfl⟩⟩
      rw [hbuffer]
      exact hgrows.sealed.trans hflushGrows.sealed
    dsimp only
    split
    · exact houtcome _ rfl rfl
    · exact houtcome _ rfl rfl

omit [Deps] in
/-- A packet of an exchange is served. -/
theorem served_of_exchange {buf : Bytes} (h : ExchangePacket buf) : served buf = true := by
  obtain ⟨m, hm, hexchange⟩ := h
  cases buf with
  | nil => cases hm
  | cons first rest =>
    cases hm
    rcases hexchange with rfl | rfl | rfl | rfl
    · rfl
    · rfl
    · rfl
    · rfl

/-- A packet that is expected is served. -/
theorem Stands.serve (h : Stands d x line v l) (hd : d.Performs x E) {l₁ : Loop S}
    (houtput : l₁.output = l.output) (hcommon : d.common l₁.session = d.common l.session)
    {buf : Bytes} (hexpects : x.Expects v buf)
    (hroomy : (d.common (Loop.serve d l₁ buf).session).Roomy) :
    Outcome d x line v (v.heard ++ exchanges [buf]) (d.common l.session).writeBuffer.history
      (Loop.serve d l₁ buf) := by
  have hstays : served buf = false → Outcome d x line v (v.heard ++ exchanges [buf])
      (d.common l.session).writeBuffer.history l₁ := by
    intro hnot
    have hother : exchanges [buf] = [] := exchanges_other fun hexchange => by
      rw [served_of_exchange hexchange] at hnot
      cases hnot
    rw [hother, List.append_nil]
    exact h.stays houtput hcommon
  have hgrows : (d.common l.session).Grows (d.common l₁.session) := by
    rw [hcommon]
    exact .refl _
  unfold Loop.serve at hroomy ⊢
  cases buf with
  | nil => exact hstays rfl
  | cons m rest =>
    dsimp only at hroomy ⊢
    by_cases hdisconnect : m = msg.DISCONNECT
    · rw [if_pos hdisconnect]
      exact h.left (l₁.leave d) (leave_stage l₁) houtput hgrows _
    · rw [if_neg hdisconnect] at hroomy ⊢
      by_cases hsmall : m ≤ 4
      · rw [if_pos hsmall]
        exact hstays (by simp [served, hsmall])
      · rw [if_neg hsmall] at hroomy ⊢
        have hsound : (d.common l₁.session).Sound := by
          rw [hcommon]
          exact h.sound
        have hreply := hgrows.trans (hd.behaves.reply_grows hsound (m :: rest))
        cases hresult : d.reply (m :: rest) l₁.session with
        | error e t =>
          rw [hresult, final_error] at hreply
          exact h.left (l₁.fail t e) (by simp [fail]) houtput hreply _
        | ok _ t =>
          rw [hresult, final_ok] at hreply
          rw [hresult] at hroomy
          have hsound' : (d.common t).Sound := by
            have hends := hd.behaves.keeps_sound.reply l₁.session (m :: rest) hsound
            unfold Ends at hends
            rw [hresult] at hends
            exact hends
          obtain ⟨before, hbefore, hstanding⟩ := h.place
          rw [← hcommon] at hstanding
          have hdrained : (d.common l₁.session).Drained := by
            rw [hcommon]
            exact h.drained
          have hemitted := endTurn_emitted hd.behaves { l₁ with session := t }
          obtain ⟨v', hheard, hcount, hpast⟩ := hd.reply hsound hstanding hdrained hexpects hresult
            (hroomy.of_later (hemitted ▸ List.prefix_refl _))
          have hend := h.endTurn hd { l₁ with session := t } houtput
            ⟨before, hbefore, hheard⟩ hsound' hreply hpast hroomy
          rw [hcount] at hend
          exact hend

/-- A packet that is read and expected is handled. -/
theorem Stands.handle (h : Stands d x line v l) (hd : d.Performs x E) (b : SSHBuffer)
    (rest : Bytes) {head payload : Bytes} (hbuffer : b.buffer = head ++ payload) (hhead : head.length = 5)
    (hexpects : x.Expects v payload)
    (hroomy : (d.common (Loop.handle d { l with buffer := b, stream := rest } true).session).Roomy) :
    Outcome d x line v (v.heard ++ exchanges [payload]) (d.common l.session).writeBuffer.history
      (Loop.handle d { l with buffer := b, stream := rest } true) := by
  have hlong : ¬ b.buffer.length < 5 := by
    rw [hbuffer, List.length_append, hhead]
    omega
  have hpayload : b.buffer.drop 5 = payload := by
    rw [hbuffer, List.drop_left' hhead]
  unfold Loop.handle at hroomy ⊢
  rw [if_neg hlong] at hroomy ⊢
  dsimp only at hroomy ⊢
  rw [hpayload] at hroomy ⊢
  cases henc : (d.common l.session).encrypted with
  | none =>
    rw [henc] at hroomy
    refine h.serve hd ?_ ?_ hexpects hroomy
    · split <;> rfl
    · split <;> rfl
  | some enc =>
    obtain ⟨before, -, hstanding⟩ := h.place
    have hnone : enc.decompress = .none := (hstanding.encrypted enc henc).2.decompress
    have hsame : { d.common l.session with encrypted := some enc } = d.common l.session := by
      rw [← henc]
    have hdecompress : enc.decompress.decompress payload = .ok (payload, enc.decompress) := by
      rw [hnone]
      rfl
    rw [henc] at hroomy
    simp only [hdecompress] at hroomy ⊢
    refine h.serve hd ?_ ?_ hexpects hroomy
    · rfl
    · exact (hd.behaves.common_set _ _).trans hsame

/-- A local message is served. -/
theorem Stands.message (h : Stands d x line v l) (hd : d.Performs x E) (m : Option M) (taken : Nat)
    (hroomy : (d.common (Loop.turnMessage d l m taken).session).Roomy) :
    Outcome d x line v v.heard (d.common l.session).writeBuffer.history
      (Loop.turnMessage d l m taken) := by
  unfold Loop.turnMessage at hroomy ⊢
  by_cases hcannot : (l.isRekeying d || !l.canHaveTaken d taken) = true
  · rw [if_pos hcannot]
    exact h.stays rfl rfl
  · rw [if_neg hcannot] at hroomy ⊢
    dsimp only at hroomy ⊢
    have hidle : l.isRekeying d = false := by
      rw [Bool.or_eq_true, not_or, Bool.not_eq_true] at hcannot
      exact hcannot.1
    obtain ⟨enc, henc, hrekey⟩ := idle_of_not_rekeying hidle
    have hphase : (d.common l.session).phase ≠ .newKeys := by
      simp only [CommonSession.phase, henc, Encrypted.phase, hrekey]
      split <;> simp
    obtain ⟨before, hbefore, hstanding⟩ := h.place
    have hspoken := hstanding.speaks (by rw [henc]; rfl) hphase (hd.speaks l.session m)
    have hgrows := hd.behaves.message_grows l.session m
    have hends := hd.behaves.keeps_sound.message l.session m h.sound
    unfold Ends at hends
    cases hresult : d.message m l.session with
    | error e t =>
      rw [hresult, final_error] at hgrows
      exact h.left ({ l with stream := l.stream.drop taken }.fail t e) (by simp [fail]) rfl
        hgrows _
    | ok leaves t =>
      rw [hresult, final_ok] at hgrows hspoken
      rw [hresult] at hends
      cases leaves with
      | true =>
        exact h.left (leave d { l with session := t, stream := l.stream.drop taken })
          (leave_stage _) rfl hgrows _
      | false =>
        rw [hresult] at hroomy
        exact h.endTurn hd { l with session := t, stream := l.stream.drop taken } rfl
          ⟨before, hbefore, hspoken⟩ hends hgrows (List.prefix_refl _) hroomy

omit [Deps] [SessionConfig C] in
/-- Equal streams have equal packets opened. -/
theorem opened_of_inbound (h : l'.inbound = l.inbound) : l'.opened = l.opened := by
  simp only [inbound, Prod.mk.injEq] at h
  rw [opened, opened, h.2.2.2]

/-- A local message opens nothing. -/
theorem turnMessage_opened (d : Driver C S M) (l : Loop S) (m : Option M) (taken : Nat) :
    (Loop.turnMessage d l m taken).opened = l.opened := by
  unfold Loop.turnMessage
  split
  · rfl
  · dsimp only
    split
    · rfl
    · rfl
    · exact (opened_of_inbound (endTurn_inbound d _)).trans rfl

omit [Deps] [SessionConfig C] in
theorem eof_of_inbound (h : l'.inbound = l.inbound) : l'.eof = l.eof := by
  simp only [inbound, Prod.mk.injEq] at h
  exact h.2.1

/-- What a loop does on its own leaves its stream open. -/
theorem iterate_eof (d : Driver C S M) (l : Loop S) {e : Event M} (hclose : e ≠ .close) :
    (Loop.iterate d l e).eof = l.eof := by
  have hhandle : ∀ (b : SSHBuffer) (rest : Bytes) (fresh : Bool),
      (Loop.handle d { l with buffer := b, stream := rest } fresh).eof = l.eof :=
    fun b rest fresh => (eof_of_inbound (handle_inbound d _ fresh)).trans rfl
  cases e with
  | close => exact absurd rfl hclose
  | arrive bytes =>
    simp only [Loop.iterate]
    split <;> rfl
  | timeout =>
    simp only [Loop.iterate]
    split <;> rfl
  | message m taken =>
    simp only [Loop.iterate]
    split
    · unfold Loop.turnMessage
      split
      · rfl
      · dsimp only
        split
        · rfl
        · rfl
        · exact (eof_of_inbound (endTurn_inbound d _)).trans rfl
    · rfl
  | read =>
    simp only [Loop.iterate]
    split
    · unfold Loop.turnRead
      split
      · rfl
      · rfl
      · exact hhandle _ _ true
      · dsimp only
        split
        · rfl
        · exact hhandle _ _ false
    · unfold Loop.drain
      split
      · rfl
      · rfl
      · split <;> rfl
      · rfl
    · rfl

/-- The next packet is read. -/
theorem Stands.read (h : Stands d x line v l) (hd : d.Performs x E)
    (hheard : exchanges l.opened = v.heard) {after : List SentPacket}
    (hreads : ReadsNext (d.common l.session).cipher l.buffer after l.stream false (l.nextRead d))
    (hexpects : ∀ p ∈ after.head?, x.Expects v p.payload)
    (hroomy : (d.common (Loop.turnRead d l).session).Roomy) :
    Outcome d x line v (exchanges (Loop.turnRead d l).opened)
      (d.common l.session).writeBuffer.history (Loop.turnRead d l) := by
  unfold Loop.turnRead at hroomy ⊢
  cases hresult : l.nextRead d with
  | pending =>
    dsimp only
    rw [hheard]
    exact h.stays rfl rfl
  | panic =>
    rw [hresult] at hreads
    cases hreads
  | err e b rest =>
    rw [hresult] at hreads
    cases hreads.of_err.1
  | ok n b rest =>
    rw [hresult] at hreads hroomy
    obtain ⟨p, later, head, hsent, hstream, hhead, rfl⟩ := hreads.of_ok
    have hexpected := hexpects p (by rw [hsent]; rfl)
    have hhandle := h.handle hd (l.buffer.opened (d.common l.session).cipher head p.payload)
      rest rfl hhead hexpected hroomy
    dsimp only
    rw [opened_of_inbound (handle_inbound d _ true)]
    have hopened : opened { l with
        buffer := l.buffer.opened (d.common l.session).cipher head p.payload
        stream := rest } = l.opened ++ [p.payload] :=
      List.map_append
    rw [hopened, exchanges_append, hheard]
    exact hhandle

/-- Every event that finds what is expected, if it reads, leaves a running loop at a place. -/
theorem Stands.iterate (h : Stands d x line v l) (hd : d.Performs x E) (hrunning : l.stage = .running)
    (hheard : exchanges l.opened = v.heard) (e : Event M) {after : List SentPacket}
    (hreads : ReadsNext (d.common l.session).cipher l.buffer after l.stream false (l.nextRead d))
    (hexpects : ∀ p ∈ after.head?, x.Expects v p.payload)
    (hroomy : (d.common (Loop.iterate d l e).session).Roomy) :
    Outcome d x line v (exchanges (Loop.iterate d l e).opened)
      (d.common l.session).writeBuffer.history (Loop.iterate d l e) := by
  cases e with
  | arrive bytes =>
    simp only [Loop.iterate]
    split
    · rw [hheard]
      exact h.stays rfl rfl
    · change Outcome d x line v (exchanges l.opened) _ _
      rw [hheard]
      exact h.stays rfl rfl
  | close =>
    change Outcome d x line v (exchanges l.opened) _ _
    rw [hheard]
    exact h.stays rfl rfl
  | timeout =>
    simp only [Loop.iterate]
    split
    · exact h.left (l.leave d) (leave_stage l) rfl (.refl _) _
    · rw [hheard]
      exact h.stays rfl rfl
  | message m taken =>
    have hturn : Loop.iterate d l (.message m taken) = Loop.turnMessage d l m taken := by
      simp only [Loop.iterate, if_pos hrunning]
    rw [hturn] at hroomy ⊢
    rw [turnMessage_opened, hheard]
    exact h.message hd m taken hroomy
  | read =>
    have hturn : Loop.iterate d l (.read : Event M) = Loop.turnRead d l := by
      simp only [Loop.iterate, hrunning]
    rw [hturn] at hroomy ⊢
    exact h.read hd hheard hreads hexpects hroomy

end Loop

end Thrussh
