import Thrussh.ChannelData
import Thrussh.Provenance

/-!
# Data that are handed over

Either role records what it asks its handler, and some of the questions hand over
data of a channel. If a packet hands over at most the data in it and nothing else
hands over any, then in every run the data that were handed over are those of the packets
that the session was given, each once and in order.
-/

namespace Thrussh

open Lib

section
variable {Q A : Type}

/-- The data that were handed over on a channel, in order. -/
def handedOver (dataOn : UInt32 → Q → Option (Option UInt32 × Bytes)) (id : UInt32)
    (callbacks : List (Q × A)) : List (Option UInt32 × Bytes) :=
  callbacks.filterMap fun p => dataOn id p.1

/-- Whether a question hands over no data. -/
def Bare (dataOn : UInt32 → Q → Option (Option UInt32 × Bytes)) (q : Q) : Prop :=
  ∀ id, dataOn id q = none

/-- What is asked after some questions hands over at most the data in a packet. -/
def HandsOver (dataOn : UInt32 → Q → Option (Option UInt32 × Bytes)) (buf : Bytes)
    (before after : List (Q × A)) : Prop :=
  ∃ asked, after = before ++ asked ∧
    ∀ id, (handedOver dataOn id asked).Sublist ([buf].filterMap (readData id))

variable {dataOn : UInt32 → Q → Option (Option UInt32 × Bytes)} {before asked : List (Q × A)}
  {buf : Bytes}

/-- Other questions hand over nothing. -/
theorem handedOver_bare (h : ∀ p ∈ asked, Bare dataOn p.1) (id : UInt32) :
    handedOver dataOn id asked = [] :=
  List.filterMap_eq_nil_iff.mpr fun p hp => h p hp id

theorem HandsOver.of_bare (h : ∀ p ∈ asked, Bare dataOn p.1) :
    HandsOver dataOn buf before (before ++ asked) := by
  refine ⟨asked, rfl, fun id => ?_⟩
  rw [handedOver_bare h]
  exact List.nil_sublist _

/-- Data are handed over after other questions. -/
theorem HandsOver.after {q : Q} {answer : A} (h : ∀ p ∈ asked, Bare dataOn p.1)
    (hq : ∀ id, dataOn id q = readData id buf) :
    HandsOver dataOn buf before (before ++ asked ++ [(q, answer)]) := by
  refine ⟨asked ++ [(q, answer)], List.append_assoc .., fun id => ?_⟩
  have hlast : handedOver dataOn id [(q, answer)] = [buf].filterMap (readData id) := by
    simp only [handedOver, List.filterMap_cons, List.filterMap_nil, hq]
  rw [handedOver, List.filterMap_append]
  change (handedOver dataOn id asked ++ handedOver dataOn id [(q, answer)]).Sublist _
  rw [handedOver_bare h, List.nil_append, hlast]

end

section
variable [Deps] {C S M Q A : Type} [SessionConfig C]
  {dataOn : UInt32 → Q → Option (Option UInt32 × Bytes)} {callbacks : S → List (Q × A)}

/-- The data that were handed over on each channel are in the packets of some acts, in order. -/
def Conveys (dataOn : UInt32 → Q → Option (Option UInt32 × Bytes)) (acts : List (Act S M))
    (asked : List (Q × A)) : Prop :=
  ∀ id, (handedOver dataOn id asked).Sublist ((heard acts).filterMap (readData id))

omit [Deps] in
/-- More acts may hold more data. -/
theorem Conveys.mono {acts acts' : List (Act S M)} {asked : List (Q × A)}
    (h : Conveys dataOn acts asked) (hacts : heard acts <+: heard acts') :
    Conveys dataOn acts' asked := fun id => (h id).trans (hacts.sublist.filterMap _)

omit [Deps] in
/-- A packet is given, and hands over at most what is in it. -/
theorem Conveys.reply {acts : List (Act S M)} {s : S} {buf : Bytes} {asked asked' : List (Q × A)}
    (h : Conveys dataOn acts asked) (hhands : HandsOver dataOn buf asked asked') :
    Conveys dataOn (acts ++ [.reply s buf]) asked' := by
  obtain ⟨more, rfl, hmore⟩ := hhands
  intro id
  rw [heard_append, handedOver, List.filterMap_append, List.filterMap_append]
  exact (h id).append (hmore id)

/-- The programs of a role hand over only the data in the packets that they were given. -/
theorem Driver.Behaves.conveys {d : Driver C S M} {P : Bytes → Prop} (hd : d.Behaves P)
    (hset : ∀ c s, callbacks (d.setCommon c s) = callbacks s)
    (hsettle : ∀ s, callbacks (d.settle s) = callbacks s)
    (hreply : ∀ s buf, (d.common s).Sound →
      HandsOver dataOn buf (callbacks s) (callbacks (final (d.reply buf s))))
    (hmessage : ∀ s m, callbacks (final (d.message m s)) = callbacks s) :
    d.Follows (fun acts act => acts ++ [act])
      (fun acts s => (d.common s).Sound ∧ Conveys dataOn acts (callbacks s))
      fun acts s => Conveys dataOn acts (callbacks s) := by
  have hkeeps := hd.keeps_sound
  refine ⟨fun acts s hs => hs.2, fun acts s enc decompress henc hs => ⟨?_, ?_⟩,
    fun acts s buf hs => ?_, fun acts s m enc hs _ _ => ?_, fun acts s hs => ?_,
    fun acts s hs => ⟨hkeeps.settle s hs.1, ?_⟩⟩
  · exact hkeeps.inflate s enc decompress henc hs.1
  · rw [hset]
    exact hs.2
  · have hconveys : Conveys dataOn (acts ++ [.reply s buf]) (callbacks (final (d.reply buf s))) :=
      hs.2.reply (hreply s buf hs.1)
    exact ((hkeeps.reply s buf hs.1).and (Ends.of_final hconveys)).mono (fun _ _ ht => ht)
      fun _ ht => ht.2
  · have hconveys : Conveys dataOn (acts ++ [.message s m])
        (callbacks (final (d.message m s))) := by
      rw [hmessage]
      exact hs.2.mono (heard_append acts _ ▸ List.prefix_append _ _)
    exact ((hkeeps.message s m hs.1).and (Ends.of_final hconveys)).mono (fun _ _ ht => ht)
      fun _ ht => ht.2
  · refine ((hkeeps.flush s hs.1).and (?_ : Ends _ s (fun _ t =>
      Conveys dataOn acts (callbacks (Loop.clearWrite d t))) fun t =>
        Conveys dataOn acts (callbacks t))).mono (fun _ _ ht => ht) fun _ ht => ht.2
    unfold Ends zoom
    cases flush (d.common s) with
    | error e t =>
      dsimp only
      rw [hset]
      exact hs.2
    | ok u t =>
      dsimp only
      unfold Loop.clearWrite
      rw [hset, hset]
      exact hs.2
  · rw [hsettle]
    exact hs.2

end

end Thrussh
