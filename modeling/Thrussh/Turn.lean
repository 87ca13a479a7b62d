import Thrussh.Flush

/-!
# Steps outside the key exchange

What a session does between two steps of a key exchange: quiet steps and
flushes, as a handler or a local message can cause them, and the steps of
the authentication.
-/

namespace Thrussh

open Lib

variable [Deps] {C : Type} [SessionConfig C]

/-- What an encrypted session stands at: its stage, the packets it has ever
queued, its channels and what has been done to them. -/
def Encrypted.standing (enc : Encrypted) :
    EncryptedState × List Bytes × (UInt32 → Option Channel) × List Deed :=
  (enc.state, enc.emitted, enc.channels, enc.deeds)

/-- What a session stands at, once it is encrypted. -/
def CommonSession.standing {C : Type} (s : CommonSession C) :
    Option (EncryptedState × List Bytes × (UInt32 → Option Channel) × List Deed) :=
  s.encrypted.map Encrypted.standing

/-- Every packet ever queued on a session. -/
def CommonSession.emitted {C : Type} (s : CommonSession C) : List Bytes :=
  s.standing.elim [] fun standing => standing.2.1

/-- Whether a session has an entry for a channel. -/
def CommonSession.Knows {C : Type} (s : CommonSession C) (id : UInt32) : Prop :=
  ∃ enc ch, s.encrypted = some enc ∧ enc.channels id = some ch

omit [SessionConfig C] in
/-- Sessions with the same table know the same channels. -/
theorem knows_congr {s t : CommonSession C}
    (h : t.standing.map Prod.snd = s.standing.map Prod.snd) (id : UInt32) :
    t.Knows id ↔ s.Knows id := by
  have hiff : ∀ u : CommonSession C,
      u.Knows id ↔ ∃ x ch, u.standing.map Prod.snd = some x ∧ x.2.1 id = some ch := by
    intro u
    unfold CommonSession.Knows CommonSession.standing
    cases u.encrypted with
    | none => simp
    | some enc => simp [Encrypted.standing]
  rw [hiff t, hiff s, h]

omit [SessionConfig C] in
/-- Sessions with the same table have the same histories, too. -/
theorem rel_of_standing {s t : CommonSession C}
    (h : t.standing.map Prod.snd = s.standing.map Prod.snd) :
    Option.Rel (fun e e' : Encrypted => e'.channels = e.channels ∧ e'.emitted = e.emitted ∧
      e'.deeds = e.deeds) s.encrypted t.encrypted := by
  unfold CommonSession.standing at h
  cases hs : s.encrypted with
  | none =>
    rw [hs, Option.map_none, Option.map_none, Option.map_map, Option.map_eq_none_iff] at h
    rw [h]
    exact .none
  | some enc =>
    cases ht : t.encrypted with
    | none =>
      rw [hs, ht] at h
      cases h
    | some enc' =>
      rw [hs, ht] at h
      have hsame := Option.some.inj h
      exact .some ⟨congrArg (fun x => x.2.1) hsame, congrArg Prod.fst hsame,
        congrArg (fun x => x.2.2) hsame⟩

/-- What a handler can make a session do. -/
inductive Busy (P : Bytes → Prop) (s t : CommonSession C) : Prop where
  /-- Packets are queued, or channels change. -/
  | quiet (h : Quiet P s t)
  /-- The session is flushed. -/
  | flush (h : FlushStep s t)

/-- What a packet outside the key exchange can make a session do. -/
inductive Turn (P : Bytes → Prop) (s t : CommonSession C) : Prop where
  /-- As a handler can make it. -/
  | busy (h : Busy P s t)
  /-- A step of the authentication. -/
  | staged (h : Staged s t)

/-- What a local message can make a session do. -/
inductive Local (P : Bytes → Prop) (s t : CommonSession C) : Prop where
  /-- Packets are queued, or channels change. -/
  | quiet (h : Quiet P s t)
  /-- A step of the authentication. -/
  | staged (h : Staged s t)
  /-- The client's service request is sealed. -/
  | service {payload : Bytes} (hpayload : payload ≠ [])
    (h : t = { s with writeBuffer := s.writeBuffer.sealed s.cipher .service payload })

/-- A relation that contains the quiet steps. -/
class Quietly (P : outParam (Bytes → Prop)) (q : CommonSession C → CommonSession C → Prop) :
    Prop where
  /-- Every quiet step is one of the relation. -/
  quiet {s t : CommonSession C} : Quiet P s t → q s t

/-- A relation that also contains the flushes. -/
class Flushing (P : outParam (Bytes → Prop)) (q : CommonSession C → CommonSession C → Prop) : Prop
    extends Quietly P q where
  /-- Every flush is a step of the relation. -/
  flush {s t : CommonSession C} : FlushStep s t → q s t

/-- A relation that contains what every call of `Session::flush` comes to. -/
class Calling (P : outParam (Bytes → Prop)) (q : CommonSession C → CommonSession C → Prop) : Prop
    extends Quietly P q where
  /-- Every call is a step of the relation. -/
  call {s : CommonSession C} : q s (final (Thrussh.flush s))

/-- A relation that also contains the steps of the authentication. -/
class Staging (P : outParam (Bytes → Prop)) (q : CommonSession C → CommonSession C → Prop) : Prop
    extends Quietly P q where
  /-- Every staged step is one of the relation. -/
  staged {s t : CommonSession C} : Staged s t → q s t

instance {P : Bytes → Prop} : Quietly P (Quiet P : CommonSession C → CommonSession C → Prop) where
  quiet := id

instance {P : Bytes → Prop} : Flushing P (Busy P : CommonSession C → CommonSession C → Prop) where
  quiet := .quiet
  flush := .flush

instance {P : Bytes → Prop} : Flushing P (Turn P : CommonSession C → CommonSession C → Prop) where
  quiet h := .busy (.quiet h)
  flush h := .busy (.flush h)

instance {P : Bytes → Prop} {q : CommonSession C → CommonSession C → Prop} [h : Flushing P q] :
    Calling P q where
  call := h.flush (flush_final _)

instance {P : Bytes → Prop} : Staging P (Turn P : CommonSession C → CommonSession C → Prop) where
  quiet h := .busy (.quiet h)
  staged := .staged

instance {P : Bytes → Prop} : Staging P (Local P : CommonSession C → CommonSession C → Prop) where
  quiet := .quiet
  staged := .staged

variable {P : Bytes → Prop} {s t : CommonSession C}

omit [SessionConfig C] in
/-- A flush of the queue leaves an encrypted session. -/
theorem PacketsFlushed.encrypted_eq {enc enc' : Encrypted} (h : PacketsFlushed s t enc enc') :
    t.encrypted = some enc' := by
  rw [h.session]

/-- A flush needs no user and leaves the one there is. -/
theorem FlushStep.authUser_eq (h : FlushStep s t) : t.authUser = s.authUser := by
  cases h with
  | none h => rfl
  | packets h => rw [h.session]
  | rekey h =>
    rename_i u enc enc' ex hwrite hcursor hrekey hex
    change u.authUser = s.authUser
    rw [h.session]

/-- A flush leaves the method. -/
theorem FlushStep.authMethod_eq (h : FlushStep s t) : t.authMethod = s.authMethod := by
  cases h with
  | none h => rfl
  | packets h => rw [h.session]
  | rekey h =>
    rename_i u enc enc' ex hwrite hcursor hrekey hex
    change u.authMethod = s.authMethod
    rw [h.session]

/-- A flush leaves what a session stands at. -/
theorem FlushStep.standing_eq (h : FlushStep s t) : t.standing = s.standing := by
  unfold CommonSession.standing
  cases h with
  | none h => rfl
  | packets h =>
    rw [h.encrypted, h.encrypted_eq, Option.map_some, Option.map_some, h.same]
    rfl
  | rekey h =>
    rename_i u enc enc' ex hwrite hcursor hrekey hex
    rw [h.encrypted]
    change some enc'.standing = some enc.standing
    rw [h.same]
    rfl

omit [SessionConfig C] in
/-- Sessions that stand at the same have the same stage. -/
theorem state_of_standing (h : t.standing = s.standing) :
    t.encrypted.map (·.state) = s.encrypted.map (·.state) := by
  have hmap := congrArg (Option.map Prod.fst) h
  simp only [CommonSession.standing, Option.map_map] at hmap
  exact hmap

/-- A flush leaves the stage. -/
theorem FlushStep.state_eq (h : FlushStep s t) :
    t.encrypted.map (·.state) = s.encrypted.map (·.state) :=
  state_of_standing h.standing_eq

omit [SessionConfig C] in
/-- A quiet step leaves the stage. -/
theorem Quiet.state_eq (h : Quiet P s t) :
    t.encrypted.map (·.state) = s.encrypted.map (·.state) := by
  have henc := h.encrypted
  generalize s.encrypted = a at henc
  generalize t.encrypted = b at henc
  cases henc with
  | none => rfl
  | some henc => rw [Option.map_some, Option.map_some, henc.same]

omit [SessionConfig C] in
theorem emitted_some {enc : Encrypted} (h : s.encrypted = some enc) : s.emitted = enc.emitted := by
  simp only [CommonSession.emitted, CommonSession.standing, h]
  rfl

omit [SessionConfig C] in
theorem emitted_none (h : s.encrypted = none) : s.emitted = [] := by
  simp only [CommonSession.emitted, CommonSession.standing, h]
  rfl

omit [SessionConfig C] in
/-- A step of the authentication queues nothing. -/
theorem Staged.emitted_eq (h : Staged s t) : t.emitted = s.emitted := by
  have henc := h.encrypted
  cases hs : s.encrypted with
  | none =>
    rw [hs] at henc
    cases ht : t.encrypted with
    | none => rw [emitted_none hs, emitted_none ht]
    | some enc' =>
      rw [ht] at henc
      cases henc
  | some enc =>
    rw [hs] at henc
    cases ht : t.encrypted with
    | none =>
      rw [ht] at henc
      cases henc
    | some enc' =>
      rw [ht] at henc
      cases henc with
      | some hsame => rw [emitted_some hs, emitted_some ht, hsame.same]

/-- What a handler can queue. -/
theorem Busy.emits (h : Busy P s t) :
    ∃ bodies, (∀ b ∈ bodies, P b) ∧ t.emitted = s.emitted ++ bodies := by
  cases h with
  | flush h =>
    refine ⟨[], by simp, ?_⟩
    rw [CommonSession.emitted, h.standing_eq, List.append_nil]
    rfl
  | quiet h =>
    have henc := h.encrypted
    cases hs : s.encrypted with
    | none =>
      rw [hs] at henc
      cases ht : t.encrypted with
      | none => exact ⟨[], by simp, by rw [emitted_none hs, emitted_none ht]; rfl⟩
      | some enc' =>
        rw [ht] at henc
        cases henc
    | some enc =>
      rw [hs] at henc
      cases ht : t.encrypted with
      | none =>
        rw [ht] at henc
        cases henc
      | some enc' =>
        rw [ht] at henc
        cases henc with
        | some henc =>
          obtain ⟨bodies, hbodies, -, hemitted⟩ := henc.pushed
          exact ⟨bodies, hbodies, by rw [emitted_some hs, emitted_some ht, hemitted]⟩

/-- Neither a handler nor a local message changes the stage. -/
theorem Busy.state_eq (h : Busy P s t) :
    t.encrypted.map (·.state) = s.encrypted.map (·.state) := by
  cases h with
  | quiet h => exact h.state_eq
  | flush h => exact h.state_eq

/-- Neither a handler nor a local message changes the user. -/
theorem Busy.authUser_eq (h : Busy P s t) : t.authUser = s.authUser := by
  cases h with
  | quiet h => rw [h.same]
  | flush h => exact h.authUser_eq

/-- A step outside the key exchange leaves an encrypted session encrypted. -/
theorem Turn.isSome_eq (h : Turn P s t) : t.encrypted.isSome = s.encrypted.isSome := by
  cases h with
  | busy h =>
    cases h with
    | quiet h => exact isSome_of_rel h.encrypted
    | flush h =>
      have hstanding := congrArg Option.isSome h.standing_eq
      simpa only [CommonSession.standing, Option.isSome_map] using hstanding
  | staged h => exact isSome_of_rel h.encrypted

omit [SessionConfig C] in
theorem Local.isSome_eq (h : Local P s t) : t.encrypted.isSome = s.encrypted.isSome := by
  cases h with
  | quiet h => exact isSome_of_rel h.encrypted
  | staged h => exact isSome_of_rel h.encrypted
  | service hpayload h => rw [h]

end Thrussh
