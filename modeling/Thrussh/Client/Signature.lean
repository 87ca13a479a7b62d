import Thrussh.Client.Serving
import Thrussh.Roles

/-!
# The client's signature

What the client makes of USERAUTH_PK_OK: it signs the session id and its
request, or has the application sign them, and the packet that it sends is
what it has signed without the session id, with the signature behind it.
-/

namespace Thrussh.Client

open Deps Lib

variable [Deps]

/-- A session that has asked for its key, and the packet that approves of it. -/
structure Approved (s : Session) (buf : Bytes) (enc : Encrypted) (method : Method) : Prop where
  /-- The session is encrypted. -/
  encrypted : s.common.encrypted = some enc
  /-- It awaits the answer to a request. -/
  waiting : ∃ auth, enc.state = .waitingAuthRequest auth
  /-- The packet belongs to no key exchange. -/
  served : ¬ s.common.InExchange buf
  /-- The packet is a USERAUTH_PK_OK. -/
  head : buf.head? = some msg.USERAUTH_PK_OK
  /-- The method that has been asked for. -/
  method : s.common.authMethod = some method

/-- The bytes that the client signs. -/
def toSign (id : Bytes32) (user name blob : Bytes) : Bytes := (clientMakeToSign id user name blob).1

/-- How a session signs for a method when its key is approved of. -/
inductive Signs (app : Application) (s : Session) (buf : Bytes) (id : Bytes32) : Method → Prop where
  /-- It signs itself, and the request is sent with the signature. -/
  | signed {key : KeyPair} {signature : Bytes} {t : Session}
    (hsignature : addSelfSignature key (toSign id s.common.authUser key.name key.pushTo) =
      .ok signature)
    (hreply : reply app buf s = .ok () t)
    (hemitted : t.common.emitted = s.common.emitted ++
      [publickeyRequest s.common.authUser 1 key.name key.pushTo ++ signature]) :
    Signs app s buf id (.publicKey key)
  /-- The signature fails. -/
  | unsigned {key : KeyPair} {e : Error} {t : Session}
    (hsignature : addSelfSignature key (toSign id s.common.authUser key.name key.pushTo) =
      .error e)
    (hreply : reply app buf s = .error (.error e) t) : Signs app s buf id (.publicKey key)
  /-- The application is asked to sign. -/
  | asked {key : PublicKey}
    (hreplies : (final (reply app buf s)).replies = s.replies ++
      [.signRequest key (toSign id s.common.authUser key.name key.pushTo)]) :
    Signs app s buf id (.futurePublicKey key)
  /-- Nobody listens. -/
  | unheard {key : PublicKey} {t : Session} (hreply : reply app buf s = .error (.error .sendError) t)
    (hreplies : t.replies = s.replies) : Signs app s buf id (.futurePublicKey key)

section
variable {app : Application} {s : Session} {buf : Bytes} {enc : Encrypted} {method : Method}

omit [Deps] in
/-- What is signed is the session id as a string, and the request behind it. -/
theorem toSign_eq (id : Bytes32) (user name blob : Bytes) :
    toSign id user name blob = sshString id.toList ++ publickeyRequest user 1 name blob := rfl

/-- The packet is what has been signed without the session id. -/
theorem signaturePacket_eq (id : Bytes32) (user : Bytes) (key : KeyPair) :
    signaturePacket id user key =
      match addSelfSignature key (toSign id user key.name key.pushTo) with
      | .ok signature => .ok (publickeyRequest user 1 key.name key.pushTo ++ signature)
      | .error e => .error (.error e) := by
  unfold signaturePacket
  change (match addSelfSignature key (toSign id user key.name key.pushTo) with
    | .ok signature => _
    | .error e => _) = _
  cases addSelfSignature key (toSign id user key.name key.pushTo) with
  | error e => rfl
  | ok signature =>
    simp only [List.append_assoc, List.drop_left]

/-- USERAUTH_PK_OK is served by its branch. -/
theorem Approved.reply_eq (h : Approved s buf enc method) (hsound : s.common.Sound) :
    reply app buf s = clientReadPkOk app s := by
  obtain ⟨auth, hstate⟩ := h.waiting
  rw [reply_state app hsound h.served]
  unfold clientReadState
  rw [run_bind, run_get]
  simp only [h.encrypted, hstate]
  unfold clientReadWaitingAuth
  rw [if_neg (by rw [h.head]; decide), if_neg (by rw [h.head]; decide),
    if_neg (by rw [h.head]; decide), if_pos h.head]

/-- What the branch notes in `enc`. -/
def notingPkOk (enc : Encrypted) : Encrypted :=
  match enc.state with
  | .waitingAuthRequest auth =>
    match auth.current with
    | some (.publicKey key algo _) =>
      { enc with state :=
        .waitingAuthRequest { auth with current := some (.publicKey key algo true) } }
    | _ => enc
  | _ => enc

theorem notingPkOk_same (enc : Encrypted) :
    (notingPkOk enc).sessionId = enc.sessionId ∧ (notingPkOk enc).emitted = enc.emitted := by
  unfold notingPkOk
  split
  · split
    · exact ⟨rfl, rfl⟩
    · exact ⟨rfl, rfl⟩
  · exact ⟨rfl, rfl⟩

/-- The branch notes the approval, forgets the method and goes on with it. -/
theorem clientReadPkOk_run (app : Application) (h : s.common.encrypted = some enc) :
    let u : Session := { s with common := { s.common with
      encrypted := some (notingPkOk enc), authMethod := none } }
    clientReadPkOk app s = match s.common.authMethod with
      | some (.publicKey key) => (do
        let packet ← lift (signaturePacket enc.sessionId s.common.authUser key)
        push packet : M Unit) u
      | some (.futurePublicKey key) => clientAwaitSignature app key u
      | _ => .ok () u := by
  dsimp only
  have hstart : modifyEnc notingPkOk s = .ok () { s with common := { s.common with
      encrypted := some (notingPkOk enc) } } := by
    simp only [modifyEnc, run_modify, CommonSession.modifyEnc, h, Option.map_some]
  change (modifyEnc notingPkOk >>= fun _ => _) s = _
  rw [run_bind, hstart]
  simp only [run_bind, run_get, getEnc, run_pure, setAuthMethod, run_modify,
    (notingPkOk_same enc).1]
  cases s.common.authMethod with
  | none => rfl
  | some method => cases method <;> rfl

/-- A step that sends no reply. -/
def Unanswering (s t : Session) : Prop := t.replies = s.replies

/-- What the client makes of the application's answer sends no reply. -/
theorem awaitSignature_unanswering (app : Application) (i n : Nat) :
    Moves Unanswering (do
      let messages ← awaited app
      let data ← lift (awaitSigned messages)
      setBuffer data
      if data.length ≠ n then do
        let body ← lift (slice data i data.length)
        modifyEnc (·.pushSigned body)
      else pure () : M Unit) := by
  refine .bind (fun s => .single rfl) fun messages => .bind (.lift _) fun data => ?_
  refine .bind (fun s => .single rfl) fun _ => ?_
  split
  · exact .bind (.lift _) fun body => fun s => .single rfl
  · exact .pure _

/-- The application is asked to sign, if it listens. -/
theorem clientAwaitSignature_replies (app : Application) (key : PublicKey)
    (h : s.common.encrypted = some enc) :
    (∃ t, clientAwaitSignature app key s = .error (.error .sendError) t ∧ t.replies = s.replies) ∨
    (final (clientAwaitSignature app key s)).replies = s.replies ++
      [.signRequest key (toSign enc.sessionId s.common.authUser key.name key.pushTo)] := by
  let data := toSign enc.sessionId s.common.authUser key.name key.pushTo
  let cleared : Session := { s with common := { s.common with buffer := [] } }
  have hrun : clientAwaitSignature app key s = (do
      sendReply app (.signRequest key data)
      let messages ← awaited app
      let data' ← lift (awaitSigned messages)
      setBuffer data'
      if data'.length ≠ data.length then do
        let body ← lift (slice data' (sshString enc.sessionId.toList).length data'.length)
        modifyEnc (·.pushSigned body)
      else pure () : M Unit) cleared := by
    have henc : getEnc s = .ok enc s := by simp only [getEnc, run_bind, run_get, h, run_pure]
    unfold clientAwaitSignature
    rw [run_bind, henc]
    rfl
  rw [hrun, run_bind]
  by_cases hlistening : app.listening cleared.common.tick cleared = true
  · refine .inr ?_
    have hsent : sendReply app (.signRequest key data) cleared = .ok () { cleared with
        common := { cleared.common with tick := cleared.common.tick + 1 }
        replies := cleared.replies ++ [.signRequest key data] } := by
      unfold sendReply
      rw [if_pos hlistening]
    rw [hsent]
    have hrest := awaitSignature_unanswering app (sshString enc.sessionId.toList).length data.length
      { cleared with
        common := { cleared.common with tick := cleared.common.tick + 1 }
        replies := cleared.replies ++ [.signRequest key data] }
    refine Eq.trans ?_ (rfl : cleared.replies ++ [.signRequest key data] = _)
    dsimp only
    generalize final _ = t at hrest ⊢
    induction hrest with
    | refl => rfl
    | tail _ hstep ih => exact Eq.trans hstep ih
  · have hunheard : sendReply app (.signRequest key data) cleared = .error (.error .sendError)
        { cleared with common := { cleared.common with tick := cleared.common.tick + 1 } } := by
      unfold sendReply
      rw [if_neg hlistening]
    rw [hunheard]
    exact .inl ⟨_, rfl, rfl⟩

/-- The client signs over its session id. -/
theorem Approved.signs (h : Approved s buf enc method) (hsound : s.common.Sound)
    (hmethod : ∀ password, method ≠ .password password) : Signs app s buf enc.sessionId method := by
  have hreply : reply app buf s = clientReadPkOk app s := h.reply_eq hsound
  rw [clientReadPkOk_run app h.encrypted, h.method] at hreply
  cases method with
  | password password => exact absurd rfl (hmethod password)
  | publicKey key =>
    dsimp only at hreply
    rw [signaturePacket_eq] at hreply
    cases hsignature : addSelfSignature key
        (toSign enc.sessionId s.common.authUser key.name key.pushTo) with
    | error e =>
      rw [hsignature] at hreply
      exact .unsigned hsignature hreply
    | ok signature =>
      rw [hsignature] at hreply
      refine .signed hsignature hreply ?_
      rw [emitted_some h.encrypted, ← (notingPkOk_same enc).2]
      rfl
  | futurePublicKey key =>
    let u : Session := { s with common := { s.common with
      encrypted := some (notingPkOk enc), authMethod := none } }
    have hnoted : u.common.encrypted = some (notingPkOk enc) := rfl
    obtain ⟨t, hrun, ht⟩ | hreplies := clientAwaitSignature_replies app key hnoted
    · exact .unheard (hreply.trans hrun) ht
    · rw [(notingPkOk_same enc).1] at hreplies
      exact .asked (by rw [hreply]; exact hreplies)

end

end Thrussh.Client
