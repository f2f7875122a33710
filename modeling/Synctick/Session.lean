import Synctick.Codec

/-! # Session errors and status

The errors that end a session, with their texts, and the status that a session
publishes for presentation.
-/

namespace Synctick

/-- The kinds of I/O error the framework raises or tells apart. -/
inductive IoErrorKind
  | unexpectedEof
  | invalidData
  | alreadyExists
  | other
  deriving DecidableEq, Repr

structure IoError where
  kind : IoErrorKind
  message : String
  deriving DecidableEq, Repr

def IoError.display (error : IoError) : String := error.message

inductive SessionError
  | configuration (message : String)
  | compatibility (message : String)
  | codec (error : CodecError)
  | simulation (message : String)
  | io (error : IoError)
  | protocol (message : String)
  | transport (message : String)
  | inputDisconnected
  | worker (message : String)
  | desync (message : String)
  deriving DecidableEq, Repr

/-- The text of a session error. -/
def SessionError.display : SessionError → String
  | .configuration message => s!"configuration: {message}"
  | .compatibility message => s!"compatibility: {message}"
  | .codec error => error.display
  | .simulation message => s!"simulation: {message}"
  | .io error => s!"I/O: {error.display}"
  | .protocol message => s!"protocol: {message}"
  | .transport message => s!"transport: {message}"
  | .inputDisconnected => "simulation input channel disconnected"
  | .worker message => s!"worker: {message}"
  | .desync message => s!"desync: {message}"

/-- A divergence was reported. -/
def SessionError.isDesync : SessionError → Bool
  | .desync _ => true
  | _ => false

/-- The `{:#x}` form of an integer. -/
def hexadecimal (value : UInt64) : String := "0x" ++ String.ofList (Nat.toDigits 16 value.toNat)

/-- The result of a session operation that changes nothing. -/
abbrev SessionResult (α : Type) := Except SessionError α

/-- A session operation on the state `σ`. -/
abbrev SessionEffect (σ α : Type) := Effect SessionError σ α

/-- Tick durations range from one microsecond to one second. -/
def validateTickDuration (nanos : UInt64) : SessionResult Unit :=
  if nanos < 1_000 ∨ nanos > 1_000_000_000 then
    .error (.configuration "tick duration must be between 1 microsecond and 1 second")
  else .ok ()

inductive LoadingPhase
  | loadingSave
  | receivingSave
  | replayingSave
  deriving DecidableEq, Repr

inductive SessionStatus
  | connecting
  | loading (phase : LoadingPhase) (completed : UInt64)
  | waiting (ready expected : Nat)
  | awaitingStart
  | live
  | stopped
  | failed (message : String)
  deriving DecidableEq, Repr

/-- What the owners of a session share: its cancellation and its presentation status. -/
structure SessionControl where
  cancelled : Bool := false
  status : SessionStatus := .connecting
  deriving DecidableEq, Repr

namespace SessionControl

def cancel (control : SessionControl) : SessionControl := { control with cancelled := true }

def publish (status : SessionStatus) (control : SessionControl) : SessionControl :=
  { control with status }

end SessionControl

end Synctick
