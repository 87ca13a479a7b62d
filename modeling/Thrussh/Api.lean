import Thrussh.Session

/-!
# Values of the public interface

The enumerations that both roles pass to handlers and take from the
application: signals, reasons to refuse a channel, terminal modes and the
messages of a channel.
-/

namespace Thrussh

/-- `Sig`. -/
inductive Sig where
  | abrt | alrm | fpe | hup | ill | int | kill | pipe | quit | segv | term | usr1
  | custom (name : Bytes)
  deriving DecidableEq, Repr

/-- `Sig::name`. -/
def Sig.name : Sig → Bytes
  | .abrt => ascii "ABRT"
  | .alrm => ascii "ALRM"
  | .fpe => ascii "FPE"
  | .hup => ascii "HUP"
  | .ill => ascii "ILL"
  | .int => ascii "INT"
  | .kill => ascii "KILL"
  | .pipe => ascii "PIPE"
  | .quit => ascii "QUIT"
  | .segv => ascii "SEGV"
  | .term => ascii "TERM"
  | .usr1 => ascii "USR1"
  | .custom c => c

/-- The signals with a name of their own. -/
def Sig.standard : List Sig :=
  [.abrt, .alrm, .fpe, .hup, .ill, .int, .kill, .pipe, .quit, .segv, .term, .usr1]

/-- `Sig::from_name`. -/
def Sig.fromName (name : Bytes) : Except Fault Sig :=
  match Sig.standard.find? (·.name = name) with
  | some sig => .ok sig
  | none => do
    let c ← fromUtf8 name
    .ok (.custom c)

/-- `from_name` finds a signal of that name. -/
theorem Sig.fromName_ok {name : Bytes} {sig : Sig} (h : Sig.fromName name = .ok sig) :
    sig.name = name := by
  unfold Sig.fromName at h
  cases hfind : Sig.standard.find? (·.name = name) with
  | some found =>
    rw [hfind] at h
    cases h
    simpa using List.find?_some hfind
  | none =>
    rw [hfind] at h
    obtain ⟨c, hc, hsig⟩ := Lib.ok_of_bind h
    cases hsig
    unfold fromUtf8 at hc
    split at hc
    · cases hc
      rfl
    · cases hc

/-- `ChannelOpenFailure`. -/
inductive ChannelOpenFailure where
  | administrativelyProhibited | connectFailed | unknownChannelType | resourceShortage
  deriving DecidableEq, Repr

/-- `reason as u32`. -/
def ChannelOpenFailure.code : ChannelOpenFailure → UInt32
  | .administrativelyProhibited => 1
  | .connectFailed => 2
  | .unknownChannelType => 3
  | .resourceShortage => 4

/-- `ChannelOpenFailure::from_u32`. -/
def ChannelOpenFailure.fromU32 (x : UInt32) : Option ChannelOpenFailure :=
  if x = 1 then some .administrativelyProhibited
  else if x = 2 then some .connectFailed
  else if x = 3 then some .unknownChannelType
  else if x = 4 then some .resourceShortage
  else none

/-- The codes of the standard pseudo-terminal modes, `TTY_OP_END` first. -/
def ptyCodes : List UInt8 :=
  [0, 1, 2, 3, 4, 5, 6, 7, 8, 9, 10, 11, 12, 13, 14, 15, 16, 17, 18, 30, 31, 32, 33, 34, 35, 36,
    37, 38, 39, 40, 41, 50, 51, 52, 53, 54, 55, 56, 57, 58, 59, 60, 61, 62, 70, 71, 72, 73, 74,
    75, 90, 91, 92, 93, 128, 129]

/-- `Pty`, a standard mode, by its code. -/
structure Pty where
  /-- `code as u8`. -/
  code : UInt8
  /-- The code is one of the standard modes. -/
  standard : code ∈ ptyCodes
  deriving DecidableEq, Repr

/-- `Pty::TTY_OP_END`. -/
def Pty.ttyOpEnd : Pty := ⟨0, by decide⟩

/-- `Pty::from_u8`. -/
def Pty.fromU8 (x : UInt8) : Option Pty :=
  if x = 0 then none else if h : x ∈ ptyCodes then some ⟨x, h⟩ else none

/-- `ChannelMsg`. -/
inductive ChannelMsg where
  | data (data : Bytes)
  | extendedData (data : Bytes) (ext : UInt32)
  | eof
  | xonXoff (clientCanDo : Bool)
  | exitStatus (exitStatus : UInt32)
  | exitSignal (signalName : Sig) (coreDumped : Bool) (errorMessage langTag : Bytes)
  | windowAdjusted (newSize : UInt32)
  | success
  deriving DecidableEq, Repr

/-- The byte a flag is written as. -/
def flagByte (b : Bool) : UInt8 := if b then 1 else 0

/-- The body of a CHANNEL_REQUEST: the channel, the request name and the rest. -/
def channelRequest (recipient : UInt32) (name rest : Bytes) : Bytes :=
  msg.CHANNEL_REQUEST :: be32 recipient ++ sshString name ++ rest

/-- The body of a CHANNEL_OPEN_FAILURE. -/
def channelOpenFailurePacket (channel code : UInt32) (description language : Bytes) : Bytes :=
  msg.CHANNEL_OPEN_FAILURE :: be32 channel ++ be32 code ++ sshString description ++
    sshString language

/-- The body of a CHANNEL_OPEN: the type, our number, window and packet limit, and the rest. -/
def channelOpenPacket (typ : Bytes) (senderChannel windowSize maximumPacketSize : UInt32)
    (rest : Bytes) : Bytes :=
  msg.CHANNEL_OPEN :: sshString typ ++ be32 senderChannel ++ be32 windowSize ++
    be32 maximumPacketSize ++ rest

/-- The body of a CHANNEL_OPEN_CONFIRMATION, from `server_confirm_channel_open`
and `client_confirm_channel_open`. -/
def confirmChannelOpenPacket (remoteChannel localChannel windowSize maximumPacketSize : UInt32) :
    Bytes :=
  msg.CHANNEL_OPEN_CONFIRMATION :: be32 remoteChannel ++ be32 localChannel ++ be32 windowSize ++
    be32 maximumPacketSize

end Thrussh
