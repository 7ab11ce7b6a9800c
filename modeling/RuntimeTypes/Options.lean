/-
How a session is set up.

Options bound the number of handles and the time a query waits at the gate, and say
whether placeholders are shared and whether ancestry records are verified.  A bound
of zero would make every query fail, so `Options.check` refuses it; a session
does not check again.
-/
import RuntimeTypes.Duration

namespace RuntimeTypes

/-- The settings of a session. -/
structure Options where
  /-- How many handles a session may hold. -/
  handleLimit : Option Nat := none
  /-- How many milliseconds a query waits at the gate, in 64 bits. -/
  waitMillis : Option UInt64 := none
  /-- Whether a name has one placeholder at most. -/
  sharePlaceholders : Bool := true
  /-- Whether ancestry records are verified. -/
  verifyRecords : Bool := true
  deriving DecidableEq, Repr

/-- A setting with a value that makes every query fail. -/
inductive OptionsFault
  | zeroHandles
  | zeroTimeout
  deriving DecidableEq, Repr

/-- The wording of a fault. -/
def OptionsFault.message : OptionsFault → String
  | zeroHandles => "max_handles must be greater than zero"
  | zeroTimeout => "scope_timeout_ms must be greater than zero"

/-- Why a file of options cannot be read. -/
inductive ReadFault
  | missing
  | isDirectory
  | notText
  deriving DecidableEq, Repr

/-- The wording of a fault. -/
def ReadFault.message : ReadFault → String
  | missing => "No such file or directory (os error 2)"
  | isDirectory => "Is a directory (os error 21)"
  | notText => "stream did not contain valid UTF-8"

/-- Why there are no options. -/
inductive OptionsError
  /-- The file could not be read. -/
  | unreadable (fault : ReadFault)
  /-- The text is no TOML, or a setting has no value of its type. -/
  | malformed
  /-- A setting makes no sense. -/
  | invalid (fault : OptionsFault)
  deriving DecidableEq, Repr

/-- The wording of an error.  What is wrong with a malformed text is not worked out. -/
def OptionsError.message : OptionsError → String
  | unreadable fault => "Failed to read oracle config: " ++ fault.message
  | malformed => "Failed to parse oracle config"
  | invalid fault => "Invalid oracle config: " ++ fault.message

namespace Options

/-- Options with a bound on the number of handles. -/
def limitedTo (limit : Nat) : Options :=
  { handleLimit := some limit }

/-- How many handles a session may hold: the largest number of 32 bits if there is no bound. -/
def handleBound (o : Options) : Nat := o.handleLimit.getD (UInt32.size - 1)

/-- Options with a bound on the time at the gate, in whole milliseconds as far as 64 bits hold
them. -/
def waitingFor (bound : Duration) : Options :=
  { waitMillis := some (UInt64.ofNat bound.totalMillis) }

/-- The bound on the time at the gate. -/
def waitBound (o : Options) : Option Duration :=
  o.waitMillis.map Duration.ofMillis

/-- Refuse settings that make every query fail. -/
def check (o : Options) : Except OptionsError Unit :=
  if o.handleLimit = some 0 then
    .error (.invalid .zeroHandles)
  else if o.waitMillis = some 0 then
    .error (.invalid .zeroTimeout)
  else
    .ok ()

end Options

end RuntimeTypes
