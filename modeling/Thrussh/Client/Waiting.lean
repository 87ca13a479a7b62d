import Thrussh.Client.Signature
import Thrussh.Keeps

/-!
# The wait for a signature

For a key that the application signs with, USERAUTH_PK_OK makes the session
take messages off its queue until it finds `Msg::Signed`. The messages it
finds before are dropped, and once all senders are gone it finds nothing and
goes on. So the wait ends and loses nothing exactly when the first message is
the signature.
-/

namespace Thrussh.Client

open Lib

/-- Whether a message is `Msg::Signed`. -/
def Msg.isSigned : Msg → Bool
  | .signed _ => true
  | _ => false

/-- The data that the wait breaks out with, and the messages that it leaves in
the queue. A wait without a `Msg::Signed` has emptied the queue and goes on,
whether senders are left or not. -/
def receiveSigned : List Msg → Option (Bytes × List Msg)
  | [] => none
  | .signed data :: rest => some (data, rest)
  | _ :: rest => receiveSigned rest

/-- The messages that the session still finds in its queue, and acts on, behind the wait. -/
def leftInQueue (queue : List Msg) : List Msg := (receiveSigned queue).elim [] Prod.snd

/-- The application, with the messages that the session receives in the wait. -/
def Application.receiving [Deps] (app : Application) (queue : List Msg) : Application :=
  { app with awaited := fun _ _ => queue }

/-- The wait ends when it should, and leaves all other messages to be acted on in their order. -/
structure WaitServes [Deps] (app : Application) (s : Session) (buf : Bytes) (queue : List Msg)
    (closed : Bool) : Prop where
  /-- It ends once the signature has arrived or the senders are gone. -/
  ends : queue.any Msg.isSigned = true ∨ closed = true →
    ∀ t, reply (app.receiving queue) buf s ≠ .error .diverge t
  /-- No other message is dropped. -/
  keeps : leftInQueue queue = queue.eraseP Msg.isSigned

section
variable {queue rest : List Msg} {data : Bytes}

/-- The wait breaks out at the first signature. -/
theorem receiveSigned_split (h : receiveSigned queue = some (data, rest)) :
    ∃ before, (∀ m ∈ before, m.isSigned = false) ∧ queue = before ++ .signed data :: rest := by
  induction queue with
  | nil => cases h
  | cons m queue ih =>
    by_cases hsigned : m.isSigned = true
    · cases m with
      | signed data' =>
        cases h
        exact ⟨[], by simp, rfl⟩
      | _ => cases hsigned
    · have hnext : receiveSigned (m :: queue) = receiveSigned queue := by
        cases m with
        | signed data' => exact absurd rfl hsigned
        | _ => rfl
      rw [hnext] at h
      obtain ⟨before, hbefore, hqueue⟩ := ih h
      refine ⟨m :: before, ?_, by rw [hqueue, List.cons_append]⟩
      intro m' hm'
      rcases List.mem_cons.mp hm' with heq | hmem
      · rw [heq]
        simpa using hsigned
      · exact hbefore m' hmem

/-- The wait goes on when there is no signature. -/
theorem receiveSigned_none : receiveSigned queue = none ↔ queue.any Msg.isSigned = false := by
  induction queue with
  | nil => simp [receiveSigned]
  | cons m queue ih =>
    cases m with
    | signed data => simp [receiveSigned, Msg.isSigned]
    | _ => simpa [receiveSigned, Msg.isSigned] using ih

/-- The wait in terms of what it receives. -/
theorem awaitSigned_eq (queue : List Msg) : awaitSigned queue =
    match receiveSigned queue with
    | some (data, _) => .ok data
    | none => .error .diverge := by
  induction queue with
  | nil => rfl
  | cons m queue ih =>
    cases m with
    | signed data => rfl
    | _ => exact ih

/-- A wait that drops nothing finds the signature first, or nothing at all. -/
theorem leftInQueue_eq_iff : leftInQueue queue = queue.eraseP Msg.isSigned ↔
    (∃ data rest, queue = .signed data :: rest) ∨ queue = [] := by
  constructor
  · intro h
    unfold leftInQueue at h
    cases hreceived : receiveSigned queue with
    | none =>
      have hnone := receiveSigned_none.mp hreceived
      have herase : queue.eraseP Msg.isSigned = queue := by
        refine List.eraseP_of_forall_not fun m hm => ?_
        simpa using List.any_eq_false.mp hnone m hm
      rw [hreceived, herase] at h
      exact .inr h.symm
    | some found =>
      obtain ⟨data, rest⟩ := found
      obtain ⟨before, hbefore, hqueue⟩ := receiveSigned_split hreceived
      have herase : queue.eraseP Msg.isSigned = before ++ rest := by
        rw [hqueue, List.eraseP_append_right _ (fun m hm => by simp [hbefore m hm]),
          List.eraseP_cons_of_pos rfl]
      rw [hreceived, herase] at h
      have hnil : before = [] := by
        have hlength := congrArg List.length h
        simp only [Option.elim_some, List.length_append] at hlength
        exact List.length_eq_zero_iff.mp (by omega)
      rw [hnil, List.nil_append] at hqueue
      exact .inl ⟨data, rest, hqueue⟩
  · rintro (⟨data, rest, rfl⟩ | rfl)
    · rfl
    · rfl

end

section
variable [Deps] {app : Application} {s : Session} {buf : Bytes} {enc : Encrypted} {key : PublicKey}

/-- What the session makes of the buffer it gets back: `n` bytes were sent to
be signed, the first `i` of which do not belong to the request. -/
def sendSigned (i n : Nat) (data : Bytes) : M Unit := do
  setBuffer data
  if data.length ≠ n then do
    let body ← lift (slice data i data.length)
    modifyEnc (·.pushSigned body)
  else pure ()

/-- Behind the wait the session does not wait any more. -/
theorem sendSigned_ends (i n : Nat) (data : Bytes) (s t : Session) :
    sendSigned i n data s ≠ .error .diverge t := by
  unfold sendSigned slice
  rw [run_bind]
  simp only [setBuffer, run_modify]
  by_cases hlength : data.length ≠ n
  · rw [if_pos hlength, run_bind]
    by_cases hslice : i ≤ data.length ∧ data.length ≤ data.length
    · rw [if_pos hslice, run_lift_ok]
      intro h
      cases h
    · rw [if_neg hslice, run_lift_error]
      intro h
      cases h
  · rw [if_neg hlength]
    intro h
    cases h

/-- A session that nobody listens to sends no request to sign; for any other
the wait decides on what comes next. -/
theorem clientAwaitSignature_waits (app : Application) (key : PublicKey)
    (h : s.common.encrypted = some enc) :
    (final (clientAwaitSignature app key s)).replies = s.replies ∨
    ∃ (t : Session) (i n : Nat), ∀ queue, clientAwaitSignature (app.receiving queue) key s =
      match receiveSigned queue with
      | some (data, _) => sendSigned i n data t
      | none => .error .diverge t := by
  let data := toSign enc.sessionId s.common.authUser key.name key.pushTo
  let cleared : Session := { s with common := { s.common with buffer := [] } }
  have hrun : ∀ app' : Application, clientAwaitSignature app' key s = (do
      sendReply app' (.signRequest key data)
      let messages ← awaited app'
      let data' ← lift (awaitSigned messages)
      sendSigned (sshString enc.sessionId.toList).length data.length data' : M Unit) cleared := by
    intro app'
    have henc : getEnc s = .ok enc s := by simp only [getEnc, run_bind, run_get, h, run_pure]
    unfold clientAwaitSignature
    rw [run_bind, henc]
    rfl
  by_cases hlistening : app.listening cleared.common.tick cleared = true
  · let asked : Session := { cleared with
      common := { cleared.common with tick := cleared.common.tick + 1 }
      replies := cleared.replies ++ [.signRequest key data] }
    refine .inr ⟨{ asked with common := { asked.common with tick := asked.common.tick + 1 } },
      (sshString enc.sessionId.toList).length, data.length, fun queue => ?_⟩
    have hsent : sendReply (app.receiving queue) (.signRequest key data) cleared = .ok () asked :=
      if_pos hlistening
    have hawaited : awaited (app.receiving queue) asked = .ok queue
        { asked with common := { asked.common with tick := asked.common.tick + 1 } } := rfl
    rw [hrun, run_bind, hsent]
    dsimp only
    rw [run_bind, hawaited]
    dsimp only
    rw [run_bind, awaitSigned_eq]
    cases receiveSigned queue with
    | none => rfl
    | some found => rfl
  · have hunheard : sendReply app (.signRequest key data) cleared = .error (.error .sendError)
        { cleared with common := { cleared.common with tick := cleared.common.tick + 1 } } :=
      if_neg hlistening
    refine .inl ?_
    rw [hrun, run_bind, hunheard]
    rfl

/-- What a session that has asked for a signature makes of what it receives. -/
theorem Approved.waits (h : Approved s buf enc (.futurePublicKey key)) (hsound : s.common.Sound)
    (hasked : (final (reply app buf s)).replies ≠ s.replies) :
    ∃ (t : Session) (i n : Nat), ∀ queue, reply (app.receiving queue) buf s =
      match receiveSigned queue with
      | some (data, _) => sendSigned i n data t
      | none => .error .diverge t := by
  let u : Session := { s with common := { s.common with
    encrypted := some (notingPkOk enc), authMethod := none } }
  have hreply : ∀ app' : Application, reply app' buf s = clientAwaitSignature app' key u := by
    intro app'
    rw [h.reply_eq hsound, clientReadPkOk_run app' h.encrypted, h.method]
  have hnoted : u.common.encrypted = some (notingPkOk enc) := rfl
  rcases clientAwaitSignature_waits app key hnoted with hunheard | ⟨t, i, n, hwaits⟩
  · rw [hreply] at hasked
    exact absurd hunheard hasked
  · exact ⟨t, i, n, fun queue => (hreply _).trans (hwaits queue)⟩

/-- The wait serves the messages of a queue if and only if the first of them
is the signature, or there is none as yet. -/
theorem Approved.waitServes_iff (h : Approved s buf enc (.futurePublicKey key))
    (hsound : s.common.Sound) (hasked : (final (reply app buf s)).replies ≠ s.replies)
    (queue : List Msg) (closed : Bool) : WaitServes app s buf queue closed ↔
      (∃ data rest, queue = .signed data :: rest) ∨ queue = [] ∧ closed = false := by
  obtain ⟨t, i, n, hwaits⟩ := h.waits hsound hasked
  constructor
  · rintro ⟨hends, hkeeps⟩
    rcases leftInQueue_eq_iff.mp hkeeps with hsigned | hnil
    · exact .inl hsigned
    · refine .inr ⟨hnil, ?_⟩
      by_contra hclosed
      have hnever := hwaits queue
      rw [hnil] at hnever hends
      exact hends (.inr (by simpa using hclosed)) t hnever
  · intro hcases
    have hnil : (∃ data rest, queue = .signed data :: rest) ∨ queue = [] := by
      rcases hcases with hsigned | ⟨hnil, -⟩
      · exact .inl hsigned
      · exact .inr hnil
    refine ⟨fun harrived t' => ?_, leftInQueue_eq_iff.mpr hnil⟩
    rw [hwaits]
    rcases hcases with ⟨data, rest, rfl⟩ | ⟨rfl, hopen⟩
    · exact sendSigned_ends i n data t t'
    · rcases harrived with hany | hclosed
      · cases hany
      · rw [hopen] at hclosed
        cases hclosed

/-- In every run of the client, once it has asked the application for a
signature: the wait serves the messages of the queue if and only if the first
of them is the signature, or there is none as yet; and whatever comes before
the signature has no effect on the session. -/
theorem wait_serves_iff (config : Config) (app : Application) (sshid : Bytes) (world : World)
    (l : Loop Session) (hl : connectStream config app sshid world = .ok l)
    (events : List (Event Msg)) (e : Event Msg) (p : Session × Bytes)
    (hp : p ∈ Loop.given (driver app) (l.run (driver app) events) e)
    (happroved : Approved p.1 p.2 enc (.futurePublicKey key))
    (hasked : (final (reply app p.2 p.1)).replies ≠ p.1.replies) (queue : List Msg)
    (closed : Bool) :
    (WaitServes app p.1 p.2 queue closed ↔
      (∃ data rest, queue = .signed data :: rest) ∨ queue = [] ∧ closed = false) ∧
    ∀ data rest, receiveSigned queue = some (data, rest) →
      reply (app.receiving queue) p.2 p.1 = reply (app.receiving [.signed data]) p.2 p.1 := by
  have hkeeps := (driver_behaves (P := fun _ => True) (fun _ _ => trivial) app
    fun _ _ _ _ => trivial).keeps_sound
  obtain ⟨s, output, hs, rfl⟩ := connectStream_start hl
  have hkept := Loop.run_kept hkeeps (Loop.start_kept hkeeps hs.sound output) events
  have hsound : p.1.common.Sound := Loop.given_kept hkeeps hkept hp
  constructor
  · exact happroved.waitServes_iff hsound hasked queue closed
  · intro data rest hreceived
    obtain ⟨t, i, n, hwaits⟩ := happroved.waits hsound hasked
    rw [hwaits, hwaits, hreceived]
    rfl

end

/-- Whether a session awaits the answer to a request. -/
def waitsForAuth [Deps] (enc : Encrypted) : Bool :=
  match enc.state with
  | .waitingAuthRequest _ => true
  | _ => false

/-- What a session that is approved needs, in terms that can be computed. -/
theorem approved_of_waiting [Deps] {s : Session} {buf : Bytes} {method : Method}
    (hwaits : s.common.encrypted.map waitsForAuth = some true)
    (hserved : ¬ s.common.InExchange buf) (hhead : buf.head? = some msg.USERAUTH_PK_OK)
    (hmethod : s.common.authMethod = some method) : ∃ enc, Approved s buf enc method := by
  cases henc : s.common.encrypted with
  | none =>
    rw [henc] at hwaits
    cases hwaits
  | some enc =>
    rw [henc] at hwaits
    have hwaiting : waitsForAuth enc = true := Option.some.inj hwaits
    have hstate : ∃ auth, enc.state = .waitingAuthRequest auth := by
      unfold waitsForAuth at hwaiting
      split at hwaiting
      · exact ⟨_, ‹_›⟩
      · cases hwaiting
    exact ⟨enc, henc, hstate, hserved, hhead, hmethod⟩

/-- The key that the application signs with. -/
def signer : PublicKey := .ed25519 (Concrete.digest [1])

/-- A client that asks for that key, up to the approval of it. -/
def approving {M : Type} (ask : M) : List (Event M) :=
  Concrete.answers ++ [.message (some ask) 0] ++
    [.arrive (Concrete.sealed (msg.SERVICE_ACCEPT :: sshString (ascii "ssh-userauth"))), .read,
      .arrive (Concrete.sealed [msg.USERAUTH_PK_OK])]

/-- The loop of that client. -/
def approved : @Loop (@Session Concrete.deps) :=
  letI := Concrete.deps
  Concrete.client.run (driver Concrete.application)
    (approving (.authenticate [1] (.futurePublicKey signer)))

/-- The session that is given the approval, and the packet. -/
def approval : @Session Concrete.deps × Bytes :=
  letI := Concrete.deps
  (Loop.given (driver Concrete.application) approved .read).get (by decide +kernel)

theorem approval_given :
    letI := Concrete.deps
    approval ∈ Loop.given (driver Concrete.application) (Concrete.client.run
      (driver Concrete.application) (approving (.authenticate [1] (.futurePublicKey signer))))
      .read :=
  Option.get_mem _

theorem approval_approved :
    letI := Concrete.deps
    ∃ enc, Approved approval.1 approval.2 enc (.futurePublicKey signer) := by
  refine @approved_of_waiting Concrete.deps approval.1 approval.2 (.futurePublicKey signer) ?_ ?_ ?_ ?_
  all_goals decide +kernel

theorem approval_asked :
    letI := Concrete.deps
    (final (reply Concrete.application approval.2 approval.1)).replies ≠ approval.1.replies := by
  decide +kernel

/-- A client that gets its signature, with data behind it. -/
theorem wait_serves_signed :
    letI := Concrete.deps
    WaitServes Concrete.application approval.1 approval.2 [.signed [1], .data 2 [7]] false := by
  let _ := Concrete.deps
  obtain ⟨enc, happroved⟩ := approval_approved
  have hserves := @wait_serves_iff Concrete.deps enc signer Concrete.clientConfig
    Concrete.application Concrete.serverConfig.serverId Concrete.world Concrete.client
    Concrete.connectStream_eq (approving (.authenticate [1] (.futurePublicKey signer))) .read
    approval approval_given happroved approval_asked [.signed [1], .data 2 [7]] false
  exact hserves.1.mpr (.inl ⟨[1], [.data 2 [7]], rfl⟩)

/-- Data that another task sends in the wait are dropped, and a wait whose
senders are all gone does not end. -/
theorem wait_drops :
    letI := Concrete.deps
    connectStream Concrete.clientConfig Concrete.application Concrete.serverConfig.serverId
        Concrete.world = .ok Concrete.client ∧
      approval ∈ Loop.given (driver Concrete.application) (Concrete.client.run
        (driver Concrete.application) (approving (.authenticate [1] (.futurePublicKey signer))))
        .read ∧
      (∃ enc, Approved approval.1 approval.2 enc (.futurePublicKey signer)) ∧
      ¬ WaitServes Concrete.application approval.1 approval.2 [.data 2 [7], .signed [1]] false ∧
      ¬ WaitServes Concrete.application approval.1 approval.2 [] true := by
  let _ := Concrete.deps
  refine ⟨Concrete.connectStream_eq, approval_given, approval_approved, ?_, ?_⟩
  · intro h
    have hkeeps := h.keeps
    revert hkeeps
    decide
  · intro h
    have hdiverges : (match reply (Concrete.application.receiving []) approval.2 approval.1 with
        | .error .diverge _ => true
        | _ => false) = true := by decide +kernel
    split at hdiverges
    · rename_i t hreply
      exact h.ends (.inr rfl) t hreply
    · cases hdiverges

end Thrussh.Client
