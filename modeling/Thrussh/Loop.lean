import Thrussh.Session

/-!
# The event loops

`server::run_stream` and the client's `Session::run` wait in `select!` for a
packet, a local message or a timeout. What differs between them is a
`Driver`; a `Loop` is the state between two turns, and an `Event` says which
branch wins. A branch that wins drops the pending `cipher::read`: the bytes
that call had taken are lost, and `Event.message` says how many they were.
`passed` is a history variable: the payloads handed on, and whether
`cipher::read` had returned `Ok` in that turn.
-/

namespace Thrussh

open Lib

/-- How far a loop has come. -/
inductive Stage where
  /-- In the main loop. -/
  | running
  /-- In the loop that drains the stream after a shutdown. -/
  | draining
  /-- The function has returned, or its task has panicked. -/
  | finished (result : Except Fault Unit)
  deriving DecidableEq, Repr

/-- History: a payload passed on to `decompress`, or to `reply` in the clear. -/
structure Passed where
  /-- `&buffer.buffer[5..]`. -/
  payload : Bytes
  /-- Whether `cipher::read` returned `Ok` in this turn. -/
  fresh : Bool
  deriving DecidableEq, Repr

/-- What happens next to a loop with local messages of type `M`. -/
inductive Event (M : Type) where
  /-- The transport delivers bytes. -/
  | arrive (bytes : Bytes)
  /-- The peer closes the stream. -/
  | close
  /-- The branch of `cipher::read` wins. -/
  | read
  /-- The branch of `session.receiver` wins, `none` when all senders are
  gone; the pending read had taken `taken` bytes. -/
  | message (m : Option M) (taken : Nat)
  /-- The timeout wins. -/
  | timeout

/-- The state of a loop on a session of type `S`. -/
structure Loop (S : Type) where
  /-- The session. -/
  session : S
  /-- The buffer of `cipher::read`. -/
  buffer : SSHBuffer
  /-- Bytes that have arrived and that no read has taken. -/
  stream : Bytes
  /-- Whether the peer has closed the stream. -/
  eof : Bool
  /-- Everything written to the stream. -/
  output : Bytes
  /-- How far the loop has come. -/
  stage : Stage
  /-- History: the payloads passed on. -/
  passed : List Passed

section
variable [Deps]

/-- What a role's loop does in its own way. -/
structure Driver (C S M : Type) where
  /-- The common part of the session. -/
  common : S → CommonSession C
  /-- Replace the common part. -/
  setCommon : CommonSession C → S → S
  /-- Whether the result of `cipher::read` is checked. -/
  checksRead : Bool
  /-- Whether there is a timeout. -/
  timeout : C → Bool
  /-- Serve a payload. -/
  reply : Bytes → EStateM Fault S Unit
  /-- Serve a local message; `true` breaks out of the loop. -/
  message : Option M → EStateM Fault S Bool
  /-- What is done to the session at the end of a turn. -/
  settle : S → S
  /-- Whether the stream is drained after the loop. -/
  drains : S → Bool

variable {C S M : Type} [SessionConfig C]

namespace Loop

/-- `break`. -/
def leave (d : Driver C S M) (l : Loop S) : Loop S :=
  { l with stage := if d.drains l.session then .draining else .finished (.ok ()) }

/-- An `Err` returned, or a panic. -/
def fail (l : Loop S) (s : S) (e : Fault) : Loop S :=
  { l with session := s, stage := .finished (.error e) }

/-- Clear the write buffer. -/
def clearWrite (d : Driver C S M) (s : S) : S :=
  d.setCommon { d.common s with writeBuffer := (d.common s).writeBuffer.clear } s

/-- The end of a turn: flush, write everything, clear both buffers, and look
whether the session has disconnected. -/
def endTurn (d : Driver C S M) (l : Loop S) : Loop S :=
  match zoom d.common d.setCommon flush l.session with
  | .error e s => l.fail s e
  | .ok _ s =>
    let l := { l with
      session := d.settle (clearWrite d s)
      output := l.output ++ (d.common s).writeBuffer.buffer
      buffer := l.buffer.clear }
    if (d.common l.session).disconnected then l.leave d else l

/-- Note a payload that is passed on. -/
def pass (l : Loop S) (payload : Bytes) (fresh : Bool) : Loop S :=
  { l with passed := l.passed ++ [⟨payload, fresh⟩] }

/-- The part of the read branch behind decompression. -/
def serve (d : Driver C S M) (l : Loop S) (buf : Bytes) : Loop S :=
  match buf with
  | [] => l -- `continue`
  | m :: _ =>
    if m = msg.DISCONNECT then l.leave d
    else if m ≤ 4 then l -- `continue`
    else match d.reply buf l.session with
      | .ok _ s => endTurn d { l with session := s }
      | .error e s => l.fail s e

/-- Whether `serve` hands a payload to `reply`. -/
def served (buf : Bytes) : Bool :=
  match buf with
  | [] => false
  | m :: _ => m ≠ msg.DISCONNECT && !(m ≤ 4)

/-- The read branch, once `cipher::read` has returned. -/
def handle (d : Driver C S M) (l : Loop S) (fresh : Bool) : Loop S :=
  if l.buffer.buffer.length < 5 then l.leave d
  else
    let payload := l.buffer.buffer.drop 5
    match (d.common l.session).encrypted with
    | some enc =>
      let l := l.pass payload fresh
      match enc.decompress.decompress payload with
      | .ok (buf, decompress) =>
        let common := d.common l.session
        let common := { common with encrypted := some { enc with decompress := decompress } }
        serve d { l with session := d.setCommon common l.session } buf
      | .error (.error _) => l.leave d
      | .error e => l.fail l.session e
    | none => serve d (if served payload then l.pass payload fresh else l) payload

/-- What `cipher::read` finds in the stream. -/
def nextRead (d : Driver C S M) (l : Loop S) : ReadResult :=
  Thrussh.read (d.common l.session).cipher l.buffer l.stream l.eof

/-- A turn in which `cipher::read` returns. -/
def turnRead (d : Driver C S M) (l : Loop S) : Loop S :=
  match l.nextRead d with
  | .pending => l
  | .panic => l.fail l.session .panic
  | .ok _ buffer rest => handle d { l with buffer := buffer, stream := rest } true
  | .err _ buffer rest =>
    let l := { l with buffer := buffer, stream := rest }
    if d.checksRead then l.leave d else handle d l false

/-- `is_rekeying`. -/
def isRekeying (d : Driver C S M) (l : Loop S) : Bool :=
  match (d.common l.session).encrypted with
  | some enc => enc.rekey.isSome
  | none => true

/-- Whether a pending `cipher::read` can have taken a number of bytes. -/
def canHaveTaken (d : Driver C S M) (l : Loop S) (taken : Nat) : Bool :=
  taken ≤ l.stream.length &&
    Thrussh.read (d.common l.session).cipher l.buffer (l.stream.take taken) false = .pending

/-- A turn in which a local message is received. -/
def turnMessage (d : Driver C S M) (l : Loop S) (m : Option M) (taken : Nat) : Loop S :=
  if l.isRekeying d || !l.canHaveTaken d taken then l
  else
    let l := { l with stream := l.stream.drop taken }
    match d.message m l.session with
    | .error e s => l.fail s e
    | .ok true s => leave d { l with session := s }
    | .ok false s => endTurn d { l with session := s }

/-- One repetition of the loop that drains the stream. -/
def drain (d : Driver C S M) (l : Loop S) : Loop S :=
  match l.nextRead d with
  | .pending => l
  | .panic => l.fail l.session .panic
  | .ok n buffer rest =>
    if n = 0 then { l with buffer := buffer, stream := rest, stage := .finished (.ok ()) }
    else { l with buffer := buffer.clear, stream := rest }
  | .err e buffer rest =>
    { l with buffer := buffer, stream := rest, stage := .finished (.error (.error e)) }

/-- One event. Events that cannot happen in a state leave it unchanged. -/
def iterate (d : Driver C S M) (l : Loop S) (e : Event M) : Loop S :=
  match e with
  | .arrive bytes => if l.eof then l else { l with stream := l.stream ++ bytes }
  | .close => { l with eof := true }
  | .read =>
    match l.stage with
    | .running => turnRead d l
    | .draining => drain d l
    | .finished _ => l
  | .message m taken => if l.stage = .running then turnMessage d l m taken else l
  | .timeout =>
    if l.stage = .running ∧ d.timeout (d.common l.session).config then l.leave d else l

/-- A run of events. -/
def run (d : Driver C S M) (l : Loop S) (events : List (Event M)) : Loop S :=
  events.foldl (iterate d) l

/-- The loop right before its first turn: what has been written so far goes
out, and a session that is already disconnected is left at once. -/
def start (d : Driver C S M) (s : S) (output : Bytes) : Loop S :=
  let l : Loop S := ⟨s, .new, [], false, output, .running, []⟩
  match zoom d.common d.setCommon flush l.session with
  | .error e s => l.fail s e
  | .ok _ s =>
    let l := { l with
      session := clearWrite d s
      output := l.output ++ (d.common s).writeBuffer.buffer }
    if (d.common l.session).disconnected then l.leave d else l

end Loop

end

end Thrussh
