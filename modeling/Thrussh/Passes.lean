import Thrussh.Limited

/-!
# What takes an exchange on

The record of an exchange moves on with the messages of the protocol: out of
`KexInit` with a KEXINIT, out of `KexDh` and `KexDhDone` with the message of
the Diffie-Hellman exchange, behind one ignored packet at most, and out of
`NewKeys` with NEWKEYS. Two packets are served otherwise: in its first
exchange the client takes any packet for the server's KEXINIT, and on an
encrypted session a KEXINIT that comes too late drops the exchange.
-/

namespace Thrussh

open Lib

/-- Whether the next packet is to be ignored, since the peer has guessed wrong. -/
def Kex.ignores : Kex → Bool
  | .kexDh k => k.names.ignoreGuessed
  | .kexDhDone k => k.names.ignoreGuessed
  | .kexInit _ | .newKeys _ => false

/-- The exchange behind the ignored packet. -/
def Kex.ignored : Kex → Kex
  | .kexDh k => .kexDh { k with names := { k.names with ignoreGuessed := false } }
  | .kexDhDone k => .kexDhDone { k with names := { k.names with ignoreGuessed := false } }
  | .kexInit k => .kexInit k
  | .newKeys k => .newKeys k

/-- The message of the Diffie-Hellman exchange that a role waits for. -/
def Role.dhMessage : Role → UInt8
  | .server => msg.KEX_ECDH_INIT
  | .client => msg.KEX_ECDH_REPLY

/-- What becomes of the exchange without a packet: a re-exchange may begin. -/
inductive Rests : Option Kex → Option Kex → Prop where
  /-- It stays as it is. -/
  | same (k : Option Kex) : Rests k k
  /-- The own KEXINIT is sent. -/
  | begins (k : KexInit) : Rests none (some (.kexInit k))

/-- What a packet makes of the exchange, in the order of the protocol. -/
inductive Passes (role : Role) (buf : Bytes) : Option Kex → Option Kex → Prop where
  /-- No exchange is in progress, and none is begun. -/
  | idle : Passes role buf none none
  /-- Any packet, while the peer's KEXINIT is awaited. -/
  | waits (k : KexInit) : Passes role buf (some (.kexInit k)) (some (.kexInit k))
  /-- The peer's KEXINIT. -/
  | answer {k : KexInit} {k' : Kex} (hhead : buf.head? = some msg.KEXINIT) (hk' : k'.phase = .dh) :
    Passes role buf (some (.kexInit k)) (some k')
  /-- The peer's KEXINIT, which begins a re-exchange. -/
  | serve {k' : Kex} (hhead : buf.head? = some msg.KEXINIT) (hk' : k'.phase = .dh) :
    Passes role buf none (some k')
  /-- The packet that is ignored; the next one is not. -/
  | guess {k : Kex} (hk : k.phase = .dh) (hignores : k.ignores = true) :
    Passes role buf (some k) (some k.ignored)
  /-- The message of the Diffie-Hellman exchange. -/
  | finish {k : Kex} {n : NewKeys} (hk : k.phase = .dh) (hignores : k.ignores = false)
    (hhead : buf.head? = some role.dhMessage) : Passes role buf (some k) (some (.newKeys n))
  /-- The peer's NEWKEYS. -/
  | install {n : NewKeys} (hhead : buf.head? = some msg.NEWKEYS) :
    Passes role buf (some (.newKeys n)) none

/-- What a list of packets makes of the exchange, one after the other. -/
inductive Leads (role : Role) : List Bytes → Option Kex → Option Kex → Prop where
  /-- Without a packet. -/
  | rests {k k' : Option Kex} (h : Rests k k') : Leads role [] k k'
  /-- With one more. -/
  | packet {buf : Bytes} {bufs : List Bytes} {k k₁ k₂ k' : Option Kex}
    (hbefore : Leads role bufs k k₁) (h : Passes role buf k₁ k₂) (hafter : Rests k₂ k') :
    Leads role (bufs ++ [buf]) k k'

section
variable {role : Role} {buf : Bytes} {bufs : List Bytes} {k k' k'' : Option Kex}

theorem Rests.trans (h : Rests k k') (h' : Rests k' k'') : Rests k k'' := by
  cases h with
  | same => exact h'
  | begins x =>
    cases h' with
    | same => exact .begins x

theorem Leads.rest (h : Leads role bufs k k') (h' : Rests k' k'') : Leads role bufs k k'' := by
  cases h with
  | rests h => exact .rests (h.trans h')
  | packet hbefore h hafter => exact .packet hbefore h (hafter.trans h')

/-- An exchange in progress rests only as it is. -/
theorem Rests.eq_of_some {x : Kex} (h : Rests (some x) k') : k' = some x := by
  cases h with
  | same => rfl

/-- Without a packet the exchange rests. -/
theorem Leads.of_nil (h : Leads role bufs k k') (hnil : bufs = []) : Rests k k' := by
  cases h with
  | rests h => exact h
  | packet _ _ _ => exact absurd hnil (List.append_ne_nil_of_right_ne_nil _ (List.cons_ne_nil _ _))

/-- One packet, by what it makes of an exchange in progress. -/
theorem Leads.of_some {x : Kex} (h : Leads role bufs (some x) k') (hone : bufs = [buf]) :
    ∃ k, Passes role buf (some x) k ∧ Rests k k' := by
  cases h with
  | rests h => cases hone
  | @packet buf' before _ k₁ k₂ _ hbefore hpasses hafter =>
    obtain ⟨hnil, hlast⟩ := List.append_inj' (hone.trans (List.nil_append _).symm) rfl
    have hrests := hbefore.of_nil hnil
    cases hrests.eq_of_some
    cases hlast
    exact ⟨_, hpasses, hafter⟩

/-- While the peer's KEXINIT is awaited, nothing but a KEXINIT moves the exchange. -/
theorem Leads.kexInit {x : KexInit} (h : Leads role [buf] (some (.kexInit x)) k') :
    k' = some (.kexInit x) ∨
      buf.head? = some msg.KEXINIT ∧ ∃ y, k' = some y ∧ y.phase = .dh := by
  obtain ⟨k, hpasses, hrests⟩ := h.of_some rfl
  cases hpasses with
  | waits => exact .inl hrests.eq_of_some
  | answer hhead hk' => exact .inr ⟨hhead, _, hrests.eq_of_some, hk'⟩
  | guess hk hignores => cases hk
  | finish hk hignores hhead => cases hk

/-- In the Diffie-Hellman exchange one packet is ignored at most, and nothing
but the message of that exchange moves it. -/
theorem Leads.dh {x : Kex} (hx : x.phase = .dh) (h : Leads role [buf] (some x) k') :
    x.ignores = true ∧ k' = some x.ignored ∨
      x.ignores = false ∧ buf.head? = some role.dhMessage ∧ ∃ n, k' = some (.newKeys n) := by
  obtain ⟨k, hpasses, hrests⟩ := h.of_some rfl
  cases hpasses with
  | waits => cases hx
  | answer hhead hk' => cases hx
  | guess hk hignores => exact .inl ⟨hignores, hrests.eq_of_some⟩
  | finish hk hignores hhead => exact .inr ⟨hignores, hhead, _, hrests.eq_of_some⟩
  | install hhead => cases hx

/-- Nothing but NEWKEYS ends the exchange. -/
theorem Leads.newKeys {n : NewKeys} (h : Leads role [buf] (some (.newKeys n)) k') :
    buf.head? = some msg.NEWKEYS := by
  obtain ⟨k, hpasses, hrests⟩ := h.of_some rfl
  cases hpasses with
  | guess hk hignores => cases hk
  | finish hk hignores hhead => cases hk
  | install hhead => exact hhead

end

/-! ### Steps of a session -/

section
variable [Deps] {C S M : Type} {P : Bytes → Prop} {s t : CommonSession C}

/-- Equal records are the same exchange. -/
theorem rests_of_records (hkex : t.kex = s.kex)
    (henc : Option.Rel (fun e e' => e'.rekey = e.rekey ∧ e'.exchange = e.exchange)
      s.encrypted t.encrypted) : Rests s.exchanging t.exchanging := by
  have hsame : t.exchanging = s.exchanging := by
    unfold CommonSession.exchanging
    generalize s.encrypted = a at henc
    generalize t.encrypted = b at henc
    cases henc with
    | none => exact hkex
    | some henc => exact henc.1
  rw [hsame]
  exact .same _

variable [SessionConfig C]

theorem FlushStep.rests (h : FlushStep s t) : Rests s.exchanging t.exchanging := by
  cases h with
  | none h => exact .same _
  | packets h =>
    refine rests_of_records (by rw [h.session]) ?_
    rw [h.encrypted, h.encrypted_eq]
    exact .some (by rw [h.same]; exact ⟨rfl, rfl⟩)
  | @rekey u enc enc' ex h hwrite hcursor hrekey hex =>
    have hs : s.exchanging = Option.none := (exchanging_some h.encrypted).trans hrekey
    rw [hs]
    exact .begins _

theorem Small.rests (h : Small s t) : Rests s.exchanging t.exchanging := by
  cases h with
  | quiet h => exact rests_of_records h.records.1 h.records.2
  | staged h => exact rests_of_records h.records.1 h.records.2
  | service h =>
    subst h
    exact .same _
  | call h =>
    rw [h]
    exact (flush_final s).rests

theorem outside_rests :
    Outside (fun s t : CommonSession C => Rests s.exchanging t.exchanging) where
  small _ _ h := h.rests
  inflate s enc decompress henc := by
    rw [exchanging_some henc]
    exact .same _
  clear s := .same _

/-- Small steps leave an exchange in progress, or begin one. -/
theorem rests_of_small (h : Relation.ReflTransGen Small s t) :
    Rests s.exchanging t.exchanging := by
  induction h with
  | refl => exact .same _
  | tail _ hstep ih => exact ih.trans hstep.rests

/-! ### Packets in time -/

/-- A packet comes in time: on an encrypted session it is no late KEXINIT, and
a client that awaits the server's first KEXINIT does not take it for one
unless it is. -/
def CommonSession.InTime (s : CommonSession C) (buf : Bytes) : Prop :=
  (s.encrypted.isSome = true → noLateKexInit s.phase buf) ∧
  (SessionConfig.role C = .client → s.encrypted.isNone = true → s.phase = .waiting →
    buf.head? = some msg.KEXINIT ∨
      (readKex .client buf (SessionConfig.preferred s.config)).isOk = false)

instance (s : CommonSession C) (buf : Bytes) : Decidable (s.InTime buf) :=
  inferInstanceAs (Decidable ((_ → _) ∧ (_ → _ → _ → _)))

/-- The packet of an act. -/
def Act.packet {S M : Type} : Act S M → Option Bytes
  | .reply _ buf => some buf
  | .message _ _ => none

/-- An act whose packet, if it has one, comes in time. -/
def Driver.Punctual (d : Driver C S M) : Act S M → Prop
  | .reply s buf => (d.common s).InTime buf
  | .message _ _ => True

variable {d : Driver C S M} {E : CommonSession C → Bytes → CommonSession C → Prop}

omit [SessionConfig C] in
/-- A packet outside of the exchange leaves it waiting, or begins none. -/
theorem passes_of_serve {buf : Bytes} (role : Role) (hs : ¬ s.InExchange buf) :
    Passes role buf s.exchanging s.exchanging := by
  have hdh : s.phase ≠ .dh := fun h => hs (.inr (.inr (.inl h)))
  have hnewKeys : s.phase ≠ .newKeys := fun h => hs (.inr (.inr (.inr h)))
  cases hk : s.exchanging with
  | none => exact .idle
  | some k =>
    have hphase := phase_of_exchanging hk
    cases k with
    | kexInit k => exact .waits k
    | kexDh k => exact absurd hphase hdh
    | kexDhDone k => exact absurd hphase hdh
    | newKeys k => exact absurd hphase hnewKeys

/-- What an act makes of the exchange, on every session of its course. -/
theorem Driver.Course.leads
    (hE : ∀ s buf t, (d.common s).Sound → (d.common s).InTime buf → E (d.common s) buf t →
      Passes (SessionConfig.role C) buf (d.common s).exchanging t.exchanging)
    {act : Act S M} {u : CommonSession C} (hs : (d.common act.session).Sound)
    (hact : d.Punctual act) (h : d.Course E act u) {bufs : List Bytes} {k : Option Kex}
    (hk : Leads (SessionConfig.role C) bufs k (d.common act.session).exchanging) :
    Leads (SessionConfig.role C) (bufs ++ act.packet.toList) k u.exchanging := by
  cases h with
  | exchange hin hexchange hsteps =>
    exact .packet hk (hE _ _ _ hs hact hexchange) (rests_of_small hsteps)
  | serve hout hsteps =>
    exact .packet hk (passes_of_serve _ hout) (rests_of_small hsteps)
  | message hsteps =>
    have hall := hk.rest (rests_of_small hsteps)
    simp only [Act.packet, Option.toList_none, List.append_nil]
    exact hall

/-- What becomes of the exchange in the events of a role. -/
theorem Driver.Courses.follows_leads (hd : d.Courses E) (hbehaves : d.Behaves fun _ => True)
    (hE : ∀ s buf t, (d.common s).Sound → (d.common s).InTime buf → E (d.common s) buf t →
      Passes (SessionConfig.role C) buf (d.common s).exchanging t.exchanging) (k : Option Kex) :
    d.Follows (fun acts act => acts ++ [act])
      (fun acts t => (d.common t).Sound ∧ ((∀ act ∈ acts, d.Punctual act) →
        Leads (SessionConfig.role C) (acts.flatMap fun act => act.packet.toList) k
          (d.common t).exchanging)) fun _ _ => True := by
  refine hd.follows hbehaves outside_rests (fun acts act => acts ++ [act])
    (fun acts t => (∀ act ∈ acts, d.Punctual act) →
      Leads (SessionConfig.role C) (acts.flatMap fun act => act.packet.toList) k t.exchanging) ?_ ?_
  · intro acts act u hsound hcourse hleads hall
    have hbefore := hleads fun a ha => hall a (List.mem_append_left _ ha)
    have hact := hall act (List.mem_append_right _ (List.mem_singleton.mpr rfl))
    rw [List.flatMap_append, List.flatMap_singleton]
    exact hcourse.leads hE hsound hact hbefore
  · intro acts t u hrests hleads hall
    exact (hleads hall).rest hrests

namespace Loop

/-- The packet that an event hands to `reply`, and one at most. -/
def packets (d : Driver C S M) (l : Loop S) (e : Event M) : List Bytes :=
  ((given d l e).map Prod.snd).toList

/-- An event hands over no packet but one in time. -/
def Punctual (d : Driver C S M) (l : Loop S) (e : Event M) : Prop :=
  ∀ p ∈ given d l e, (d.common p.1).InTime p.2

instance (d : Driver C S M) (l : Loop S) (e : Event M) : Decidable (l.Punctual d e) :=
  inferInstanceAs (Decidable (∀ p ∈ given d l e, _))

/-- An event takes the exchange on in the order of the protocol, or ends the session. -/
def Ordered (d : Driver C S M) (l : Loop S) (e : Event M) : Prop :=
  (l.iterate d e).stage = .running →
    Leads (SessionConfig.role C) (l.packets d e) (d.common l.session).exchanging
      (d.common (l.iterate d e).session).exchanging

omit [SessionConfig C] in
/-- An act has the packet of its event. -/
theorem acted_packets (l : Loop S) (e : Event M) :
    (acted d l e).elim [] (fun act => act.packet.toList) = l.packets d e := by
  unfold packets
  cases e with
  | message m taken =>
    simp only [acted, given, Option.map_none, Option.toList_none]
    split
    · rfl
    · rfl
  | arrive bytes => rfl
  | close => rfl
  | timeout => rfl
  | read =>
    simp only [acted]
    cases given d l .read with
    | none => rfl
    | some p => rfl

/-- The acts of an event whose packet comes in time are punctual. -/
theorem Punctual.acted {l : Loop S} {e : Event M} (h : l.Punctual d e) :
    ∀ act ∈ acted d l e, d.Punctual act := by
  have hgiven : ∀ e', l.Punctual d e' →
      ∀ act ∈ (given d l e').map fun p => (.reply p.1 p.2 : Act S M), d.Punctual act := by
    intro e' h' act hact
    obtain ⟨p, hp, rfl⟩ := Option.map_eq_some_iff.mp hact
    exact h' p hp
  cases e with
  | message m taken =>
    intro act hact
    unfold Loop.acted at hact
    dsimp only at hact
    split at hact
    · cases hact
      exact trivial
    · cases hact
  | arrive bytes => exact hgiven _ h
  | close => exact hgiven _ h
  | read => exact hgiven _ h
  | timeout => exact hgiven _ h

end Loop

/-- A packet in time takes the exchange on in order. -/
theorem Driver.Courses.iterate_ordered (hd : d.Courses E) (hbehaves : d.Behaves fun _ => True)
    (hE : ∀ s buf t, (d.common s).Sound → (d.common s).InTime buf → E (d.common s) buf t →
      Passes (SessionConfig.role C) buf (d.common s).exchanging t.exchanging)
    {l : Loop S} (hs : l.stage = .running → (d.common l.session).Sound) {e : Event M}
    (h : l.Punctual d e) : l.Ordered d e := by
  intro hrunning
  have hstage := (Loop.iterate_running hrunning).1
  have hfollows := hd.follows_leads hbehaves hE (d.common l.session).exchanging
  have hl : Loop.Kept (fun s => (d.common s).Sound ∧ ((∀ act ∈ ([] : List (Act S M)),
      d.Punctual act) → Leads (SessionConfig.role C) [] (d.common l.session).exchanging
        (d.common s).exchanging)) (fun _ => True) l :=
    ⟨fun _ => ⟨hs hstage, fun _ => .rests (.same _)⟩, trivial⟩
  have hkept := ((Loop.iterate_follows hfollows (h := []) hl e).running hrunning).2
  have hacts := h.acted
  have hpackets := Loop.acted_packets (d := d) l e
  cases hacted : Loop.acted d l e with
  | none =>
    rw [hacted] at hkept hpackets
    rw [← hpackets]
    exact hkept fun act hact => by cases hact
  | some act =>
    rw [hacted] at hkept hpackets hacts
    rw [← hpackets]
    have hall : ∀ a ∈ [act], d.Punctual a := by
      intro a ha
      rw [List.mem_singleton.mp ha]
      exact hacts act rfl
    have hleads := hkept hall
    rw [Option.elim_some, List.nil_append, List.flatMap_singleton] at hleads
    exact hleads

/-- An event that takes an exchange out of `KexInit` with another packet than a KEXINIT. -/
theorem Loop.not_ordered_kexInit {l : Loop S} {e : Event M} {buf : Bytes}
    (hrunning : (l.iterate d e).stage = .running) (hbuf : l.packets d e = [buf])
    (hhead : buf.head? ≠ some msg.KEXINIT)
    (hbefore : (d.common l.session).exchanging.map Kex.phase = some .waiting)
    (hafter : (d.common (l.iterate d e).session).exchanging.map Kex.phase ≠ some .waiting) :
    ¬ l.Ordered d e := by
  intro hordered
  have hleads := hordered hrunning
  obtain ⟨k, hk, hphase⟩ := Option.map_eq_some_iff.mp hbefore
  rw [hbuf, hk] at hleads
  cases k with
  | kexInit k =>
    rcases hleads.kexInit with hsame | ⟨hkexInit, -⟩
    · rw [hsame] at hafter
      exact hafter rfl
    · exact hhead hkexInit
  | kexDh k => cases hphase
  | kexDhDone k => cases hphase
  | newKeys k => cases hphase

/-- An event that drops an exchange past `KexInit` with its packet. -/
theorem Loop.not_ordered_dh {l : Loop S} {e : Event M} {buf : Bytes}
    (hrunning : (l.iterate d e).stage = .running) (hbuf : l.packets d e = [buf])
    (hbefore : (d.common l.session).exchanging.map Kex.phase = some .dh)
    (hafter : (d.common (l.iterate d e).session).exchanging.isNone = true) :
    ¬ l.Ordered d e := by
  intro hordered
  have hleads := hordered hrunning
  obtain ⟨k, hk, hphase⟩ := Option.map_eq_some_iff.mp hbefore
  rw [hbuf, hk] at hleads
  rcases hleads.dh hphase with ⟨-, hsome⟩ | ⟨-, -, n, hsome⟩
  · rw [hsome] at hafter
    cases hafter
  · rw [hsome] at hafter
    cases hafter

/-- So it does along every run whose packets come in time. -/
theorem Driver.Courses.run_ordered (hd : d.Courses E) (hbehaves : d.Behaves fun _ => True)
    (hE : ∀ s buf t, (d.common s).Sound → (d.common s).InTime buf → E (d.common s) buf t →
      Passes (SessionConfig.role C) buf (d.common s).exchanging t.exchanging)
    {s : S} (hs : (d.common s).Initial) (output : Bytes) {events : List (Event M)}
    (h : Loop.Along (Loop.iterate d) (Loop.Punctual d) (Loop.start d s output) events) :
    Loop.Along (Loop.iterate d) (Loop.Ordered d) (Loop.start d s output) events := by
  have hkeeps := hbehaves.keeps_sound
  refine h.imp (I := Loop.Kept (fun s => (d.common s).Sound) fun _ => True)
    (fun l e hkept _ => Loop.iterate_kept hkeeps hkept e)
    (fun l e hkept hpunctual => hd.iterate_ordered hbehaves hE hkept.running hpunctual)
    (Loop.start_kept hkeeps hs.sound output)

/-- A KEXINIT in time drops no exchange. -/
theorem CommonSession.InTime.not_late {buf : Bytes} (h : s.InTime buf) {enc : Encrypted} {k : Kex}
    (henc : s.encrypted = some enc) (hrekey : enc.rekey = some k) (hphase : k.phase ≠ .waiting)
    (hhead : buf.head? = some msg.KEXINIT) : False := by
  have hlate := h.1 (by rw [henc]; rfl) hhead
  have hk := phase_of_exchanging ((exchanging_some henc).trans hrekey)
  rw [hk] at hlate
  rcases k.phase_cases with hwaiting | hdh | hnewKeys
  · exact hphase hwaiting
  · exact hlate.1 hdh
  · exact hlate.2 hnewKeys

omit [SessionConfig C] in
/-- A session whose exchange is lost has none in progress. -/
theorem exchanging_of_lost (h : s.phase = .lost) : s.exchanging = none := by
  cases hk : s.exchanging with
  | none => rfl
  | some k =>
    have hphase := (phase_of_exchanging hk).symm.trans h
    cases k <;> cases hphase

end

/-! ### The roles -/

section
variable [Deps]

/-- What a packet in time makes of the server's exchange. -/
theorem Server.Exchanged.passes {s t : CommonSession Server.Config} {buf : Bytes}
    (h : Server.Exchanged s buf t) (htime : s.InTime buf) :
    Passes .server buf s.exchanging t.exchanging := by
  cases h with
  | skip h =>
    rcases h with hlost | ⟨hnone, hwaiting, -⟩
    · rw [exchanging_of_lost hlost]
      exact .idle
    · cases hk : s.exchanging with
      | none => exact .idle
      | some k =>
        have hphase := (phase_of_exchanging hk).symm.trans hwaiting
        cases k with
        | kexInit k => exact .waits k
        | kexDh k => cases hphase
        | kexDhDone k => cases hphase
        | newKeys k => cases hphase
  | answer hk hhead hread hkey =>
    rw [hk, exchanging_setExchanging]
    exact .answer hhead rfl
  | serve henc hrekey hex hhead hread hkey =>
    rw [exchanging_some henc, hrekey]
    exact .serve hhead rfl
  | guess hk hhead hguess =>
    rw [hk, exchanging_setExchanging]
    exact .guess rfl hguess
  | finish hk hreplies =>
    rw [hk, exchanging_setExchanging]
    cases hreplies with
    | mk hguess hhead hephemeral hdh hkey hreply hkeys => exact .finish rfl hguess hhead
  | first henc hk hhead =>
    rw [exchanging_none henc, hk]
    exact .install hhead
  | install henc hrekey hhead =>
    rw [exchanging_some henc, hrekey]
    exact .install hhead
  | drop henc hrekey hphase hhead => exact (htime.not_late henc hrekey hphase hhead).elim

/-- What a packet in time makes of the client's exchange. -/
theorem Client.Exchanged.passes {s t : CommonSession Client.Config} {buf : Bytes}
    (h : Client.Exchanged s buf t) (htime : s.InTime buf) :
    Passes .client buf s.exchanging t.exchanging := by
  cases h with
  | skip h =>
    rw [exchanging_of_lost h]
    exact .idle
  | answer hk hhead hread =>
    have hkexInit : buf.head? = some msg.KEXINIT := by
      cases henc : s.encrypted with
      | some enc => exact hhead (by rw [henc]; rfl)
      | none =>
        rcases htime.2 rfl (by rw [henc]; rfl) (phase_of_exchanging hk) with hkexInit | hfails
        · exact hkexInit
        · have hok : (readKex .client buf (SessionConfig.preferred s.config)).isOk = true := by
            change (readKex .client buf s.config.preferred).isOk = true
            rw [hread]
            rfl
          rw [hok] at hfails
          cases hfails
    rw [hk, exchanging_setExchanging]
    exact .answer hkexInit rfl
  | guess hk hhead hguess =>
    rw [hk, exchanging_setExchanging]
    exact .guess rfl hguess
  | finish hk hguess hhead hchecks =>
    rw [hk, exchanging_setExchanging]
    exact .finish rfl hguess hhead
  | first henc hk hhead =>
    rw [exchanging_none henc, hk]
    exact .install hhead
  | install henc hrekey hhead =>
    rw [exchanging_some henc, hrekey]
    exact .install hhead
  | drop henc hrekey hphase hhead => exact (htime.not_late henc hrekey hphase hhead).elim

end

/-- In every run of either role whose packets come in time, each event takes
the exchange on in the order of the protocol, or ends the session. -/
theorem ordered_of_punctual [Deps] :
    (∀ (config : Server.Config) (handler : Server.Handler) (sshid : Bytes) (world : World)
      (l : Loop Server.Session) (events : List (Event (UInt32 × ChannelMsg))),
      Server.runStream config handler sshid world = .ok l →
      Loop.Along (Loop.iterate (Server.driver handler)) (Loop.Punctual (Server.driver handler)) l
        events →
      Loop.Along (Loop.iterate (Server.driver handler)) (Loop.Ordered (Server.driver handler)) l
        events) ∧
    ∀ (config : Client.Config) (app : Client.Application) (sshid : Bytes) (world : World)
      (l : Loop Client.Session) (events : List (Event Client.Msg)),
      Client.connectStream config app sshid world = .ok l →
      Loop.Along (Loop.iterate (Client.driver app)) (Loop.Punctual (Client.driver app)) l events →
      Loop.Along (Loop.iterate (Client.driver app)) (Loop.Ordered (Client.driver app)) l
        events := by
  constructor
  · intro config handler sshid world l events hl hpunctual
    obtain ⟨s, output, hs, rfl⟩ := Server.runStream_start hl
    have hbehaves := Server.driver_behaves (P := fun _ => True) (fun _ _ => trivial) handler
    exact (Server.driver_courses handler).run_ordered hbehaves
      (fun s buf t _ htime hexchanged => hexchanged.passes htime) hs output hpunctual
  · intro config app sshid world l events hl hpunctual
    obtain ⟨s, output, hs, rfl⟩ := Client.connectStream_start hl
    have hbehaves := Client.driver_behaves (P := fun _ => True) (fun _ _ => trivial) app
      fun _ _ _ _ => trivial
    exact (Client.driver_courses app).run_ordered hbehaves
      (fun s buf t _ htime hexchanged => hexchanged.passes htime) hs output hpunctual

/-- A server through its first exchange, the start of a re-exchange and its
end, and a client through its first. -/
theorem ordered_of_punctual_handshake :
    letI := Concrete.deps
    Loop.Along (Loop.iterate (Server.driver Concrete.handler))
        (Loop.Ordered (Server.driver Concrete.handler)) Concrete.server
        (Concrete.handshake ++ [.arrive (Concrete.sealed Concrete.kexinit), .read]) ∧
      Loop.Along (Loop.iterate (Client.driver Concrete.application))
        (Loop.Ordered (Client.driver Concrete.application)) Concrete.client Concrete.answers := by
  have hordered := @ordered_of_punctual Concrete.deps
  have hserver := hordered.1 Concrete.serverConfig Concrete.handler Concrete.clientConfig.clientId
    Concrete.world Concrete.server
    (Concrete.handshake ++ [.arrive (Concrete.sealed Concrete.kexinit), .read])
    (Concrete.runStream_eq _)
  have hclient := hordered.2 Concrete.clientConfig Concrete.application
    Concrete.serverConfig.serverId Concrete.world Concrete.client Concrete.answers
    Concrete.connectStream_eq
  exact ⟨hserver (by decide +kernel), hclient (by decide +kernel)⟩

/-- A NEWKEYS whose content can be read as a KEXINIT. -/
def Concrete.disguised : Bytes := msg.NEWKEYS :: kexinit.drop 1

/-- The client takes that packet for the server's KEXINIT, and a server drops
a re-exchange with a second KEXINIT. -/
theorem ordered_fails :
    letI := Concrete.deps
    ¬ Loop.Ordered (Client.driver Concrete.application)
        (Concrete.client.run (Client.driver Concrete.application)
          [.arrive (Concrete.clear Concrete.disguised)]) .read ∧
      ¬ Loop.Ordered (Server.driver Concrete.handler)
        (Concrete.server.run (Server.driver Concrete.handler) (Concrete.handshake ++
          [.arrive (Concrete.sealed Concrete.kexinit), .read,
            .arrive (Concrete.sealed Concrete.kexinit)])) .read := by
  constructor
  · refine @Loop.not_ordered_kexInit Concrete.deps Client.Config (@Client.Session Concrete.deps)
      Client.Msg _ (@Client.driver Concrete.deps Concrete.application) _ _ Concrete.disguised
      ?_ ?_ ?_ ?_ ?_
    all_goals decide +kernel
  · refine @Loop.not_ordered_dh Concrete.deps Server.Config (@Server.Session Concrete.deps)
      (UInt32 × ChannelMsg) _ (@Server.driver Concrete.deps Concrete.handler) _ _ Concrete.kexinit
      ?_ ?_ ?_ ?_
    all_goals decide +kernel

end Thrussh
