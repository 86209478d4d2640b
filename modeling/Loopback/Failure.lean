import Loopback.Text.Quoted

/-!
# Failures

Two kinds of error values, each of which can carry the other. A `Failure` is what channel and
message operations report; an `IoFailure` is what the byte-stream interface reports: an error kind,
alone, with a text, or wrapped around another error.

`IoFailure.ofFailure` and `Failure.ofIo` convert between them, looking exactly one level deep. A
wrapped error keeps its wording: `message` and `source` go through to the value inside. A `Fault`
is a value of either type, and `Fault.apply` one step of converting or wrapping it.
-/

namespace Loopback

/-- Kinds of byte-stream errors. -/
inductive IoKind where
  | notFound
  | permissionDenied
  | connectionRefused
  | connectionReset
  | hostUnreachable
  | networkUnreachable
  | connectionAborted
  | notConnected
  | addrInUse
  | addrNotAvailable
  | networkDown
  | brokenPipe
  | alreadyExists
  | wouldBlock
  | notADirectory
  | isADirectory
  | directoryNotEmpty
  | readOnlyFilesystem
  | filesystemLoop
  | staleNetworkFileHandle
  | invalidInput
  | invalidData
  | timedOut
  | writeZero
  | storageFull
  | notSeekable
  | quotaExceeded
  | fileTooLarge
  | resourceBusy
  | executableFileBusy
  | deadlock
  | crossesDevices
  | tooManyLinks
  | invalidFilename
  | argumentListTooLong
  | interrupted
  | unsupported
  | unexpectedEof
  | outOfMemory
  | inProgress
  | other
  | uncategorized
  deriving DecidableEq, Repr

namespace IoKind

/-- The name of a kind. -/
def name : IoKind → String
  | .notFound => "NotFound"
  | .permissionDenied => "PermissionDenied"
  | .connectionRefused => "ConnectionRefused"
  | .connectionReset => "ConnectionReset"
  | .hostUnreachable => "HostUnreachable"
  | .networkUnreachable => "NetworkUnreachable"
  | .connectionAborted => "ConnectionAborted"
  | .notConnected => "NotConnected"
  | .addrInUse => "AddrInUse"
  | .addrNotAvailable => "AddrNotAvailable"
  | .networkDown => "NetworkDown"
  | .brokenPipe => "BrokenPipe"
  | .alreadyExists => "AlreadyExists"
  | .wouldBlock => "WouldBlock"
  | .notADirectory => "NotADirectory"
  | .isADirectory => "IsADirectory"
  | .directoryNotEmpty => "DirectoryNotEmpty"
  | .readOnlyFilesystem => "ReadOnlyFilesystem"
  | .filesystemLoop => "FilesystemLoop"
  | .staleNetworkFileHandle => "StaleNetworkFileHandle"
  | .invalidInput => "InvalidInput"
  | .invalidData => "InvalidData"
  | .timedOut => "TimedOut"
  | .writeZero => "WriteZero"
  | .storageFull => "StorageFull"
  | .notSeekable => "NotSeekable"
  | .quotaExceeded => "QuotaExceeded"
  | .fileTooLarge => "FileTooLarge"
  | .resourceBusy => "ResourceBusy"
  | .executableFileBusy => "ExecutableFileBusy"
  | .deadlock => "Deadlock"
  | .crossesDevices => "CrossesDevices"
  | .tooManyLinks => "TooManyLinks"
  | .invalidFilename => "InvalidFilename"
  | .argumentListTooLong => "ArgumentListTooLong"
  | .interrupted => "Interrupted"
  | .unsupported => "Unsupported"
  | .unexpectedEof => "UnexpectedEof"
  | .outOfMemory => "OutOfMemory"
  | .inProgress => "InProgress"
  | .other => "Other"
  | .uncategorized => "Uncategorized"

/-- The wording of an error that consists of its kind alone. -/
def wording : IoKind → String
  | .notFound => "entity not found"
  | .permissionDenied => "permission denied"
  | .connectionRefused => "connection refused"
  | .connectionReset => "connection reset"
  | .hostUnreachable => "host unreachable"
  | .networkUnreachable => "network unreachable"
  | .connectionAborted => "connection aborted"
  | .notConnected => "not connected"
  | .addrInUse => "address in use"
  | .addrNotAvailable => "address not available"
  | .networkDown => "network down"
  | .brokenPipe => "broken pipe"
  | .alreadyExists => "entity already exists"
  | .wouldBlock => "operation would block"
  | .notADirectory => "not a directory"
  | .isADirectory => "is a directory"
  | .directoryNotEmpty => "directory not empty"
  | .readOnlyFilesystem => "read-only filesystem or storage medium"
  | .filesystemLoop => "filesystem loop or indirection limit (e.g. symlink loop)"
  | .staleNetworkFileHandle => "stale network file handle"
  | .invalidInput => "invalid input parameter"
  | .invalidData => "invalid data"
  | .timedOut => "timed out"
  | .writeZero => "write zero"
  | .storageFull => "no storage space"
  | .notSeekable => "seek on unseekable file"
  | .quotaExceeded => "quota exceeded"
  | .fileTooLarge => "file too large"
  | .resourceBusy => "resource busy"
  | .executableFileBusy => "executable file busy"
  | .deadlock => "deadlock"
  | .crossesDevices => "cross-device link or rename"
  | .tooManyLinks => "too many links"
  | .invalidFilename => "invalid filename"
  | .argumentListTooLong => "argument list too long"
  | .interrupted => "operation interrupted"
  | .unsupported => "unsupported"
  | .unexpectedEof => "unexpected end of file"
  | .outOfMemory => "out of memory"
  | .inProgress => "in progress"
  | .other => "other error"
  | .uncategorized => "uncategorized error"

/-- All kinds. -/
def all : List IoKind :=
  [.notFound, .permissionDenied, .connectionRefused, .connectionReset, .hostUnreachable,
    .networkUnreachable, .connectionAborted, .notConnected, .addrInUse, .addrNotAvailable,
    .networkDown, .brokenPipe, .alreadyExists, .wouldBlock, .notADirectory, .isADirectory,
    .directoryNotEmpty, .readOnlyFilesystem, .filesystemLoop, .staleNetworkFileHandle,
    .invalidInput, .invalidData, .timedOut, .writeZero, .storageFull, .notSeekable, .quotaExceeded,
    .fileTooLarge, .resourceBusy, .executableFileBusy, .deadlock, .crossesDevices, .tooManyLinks,
    .invalidFilename, .argumentListTooLong, .interrupted, .unsupported, .unexpectedEof,
    .outOfMemory, .inProgress, .other, .uncategorized]

/-- The kind of a given name. -/
def ofName? (s : String) : Option IoKind := all.find? (·.name == s)

end IoKind

mutual

/-- What channel and message operations report. -/
inductive Failure where
  /-- The endpoint written to was shut down or closed. -/
  | notOpen
  /-- A receiver is already registered on this side. -/
  | alreadyWaiting
  /-- An interruptible write was given up while blocked. -/
  | interrupted
  /-- The writer cancelled the message. -/
  | cancelled
  /-- The other end of the pipe is gone. -/
  | pipeClosed
  /-- Streams cannot go back to a mark. -/
  | markNotSupported
  /-- Any other byte-stream error. -/
  | io (e : IoFailure)

/-- What the byte-stream interface reports. -/
inductive IoFailure where
  /-- A kind alone. -/
  | plain (kind : IoKind)
  /-- A kind with a text of its own. -/
  | text (kind : IoKind) (message : String)
  /-- A kind around a channel failure. -/
  | channel (kind : IoKind) (inner : Failure)
  /-- A kind around another byte-stream error. -/
  | nested (kind : IoKind) (inner : IoFailure)

end

deriving instance DecidableEq for Failure, IoFailure

/-- The coarse kinds of `Failure`. -/
inductive FailureKind where
  | notOpen
  | alreadyWaiting
  | interrupted
  | cancelled
  | pipeClosed
  | markNotSupported
  | io
  deriving DecidableEq, Repr

/-- The name of a kind. -/
def FailureKind.name : FailureKind → String
  | .notOpen => "NotOpen"
  | .alreadyWaiting => "AlreadyWaiting"
  | .interrupted => "Interrupted"
  | .cancelled => "Cancelled"
  | .pipeClosed => "PipeClosed"
  | .markNotSupported => "MarkNotSupported"
  | .io => "Io"

/-- The kind of a failure. -/
def Failure.kind : Failure → FailureKind
  | .notOpen => .notOpen
  | .alreadyWaiting => .alreadyWaiting
  | .interrupted => .interrupted
  | .cancelled => .cancelled
  | .pipeClosed => .pipeClosed
  | .markNotSupported => .markNotSupported
  | .io _ => .io

/-- The kind of a byte-stream error. -/
def IoFailure.kind : IoFailure → IoKind
  | .plain k => k
  | .text k _ => k
  | .channel k _ => k
  | .nested k _ => k

mutual

/-- The wording of a failure. One that only carries a byte-stream error has that one's wording. -/
def Failure.message : Failure → String
  | .notOpen => "Writes have been shut down"
  | .alreadyWaiting => "Message handler already waiting"
  | .interrupted => "Blocked write was interrupted"
  | .cancelled => "Message was cancelled"
  | .pipeClosed => "Pipe is closed"
  | .markNotSupported => "Mark/reset not supported"
  | .io e => e.message

/-- The wording of a byte-stream error: its text or the wording of what it wraps. -/
def IoFailure.message : IoFailure → String
  | .plain k => k.wording
  | .text _ s => s
  | .channel _ e => e.message
  | .nested _ e => e.message

end

mutual

/-- The wording of what caused a failure. Nothing is recorded beneath a channel failure; one that
only carries a byte-stream error has that one's cause. -/
def Failure.source : Failure → Option String
  | .io e => e.source
  | _ => none

/-- The wording of what caused a byte-stream error: wrapping adds no cause of its own. -/
def IoFailure.source : IoFailure → Option String
  | .plain _ => none
  | .text _ _ => none
  | .channel _ e => e.source
  | .nested _ e => e.source

end

mutual

/-- Diagnostic text of a failure. -/
def Failure.describe : Failure → String
  | .io e => "Io(" ++ e.describe ++ ")"
  | .notOpen => "NotOpen"
  | .alreadyWaiting => "AlreadyWaiting"
  | .interrupted => "Interrupted"
  | .cancelled => "Cancelled"
  | .pipeClosed => "PipeClosed"
  | .markNotSupported => "MarkNotSupported"

/-- Diagnostic text of a byte-stream error. -/
def IoFailure.describe : IoFailure → String
  | .plain k => "Kind(" ++ k.name ++ ")"
  | .text k s => s!"Custom \x7b kind: {k.name}, error: " ++ Text.quoted s ++ " \x7d"
  | .channel k e => s!"Custom \x7b kind: {k.name}, error: " ++ e.describe ++ " \x7d"
  | .nested k e => s!"Custom \x7b kind: {k.name}, error: " ++ e.describe ++ " \x7d"

end

namespace IoFailure

/-- What stands inside a byte-stream error beside its kind. -/
inductive Inner where
  | text (message : String)
  | channel (e : Failure)
  | io (e : IoFailure)

namespace Inner

/-- The channel failure, or what stands there instead of one. -/
def toChannel : Inner → Except Inner Failure
  | .channel e => .ok e
  | x => .error x

/-- A channel failure stands there. -/
def isChannel : Inner → Bool
  | .channel _ => true
  | _ => false

end Inner

/-- What stands inside the error beside its kind, if anything does. -/
def inner? : IoFailure → Option Inner
  | .plain _ => none
  | .text _ s => some (.text s)
  | .channel _ e => some (.channel e)
  | .nested _ e => some (.io e)

/-- An error of the kind `kind` with `x` inside. -/
def around (kind : IoKind) : Inner → IoFailure
  | .text s => .text kind s
  | .channel e => .channel kind e
  | .io e => .nested kind e

/-- Something stands inside the error beside its kind. -/
def hasInner (e : IoFailure) : Bool := e.inner?.isSome

/-- The channel failure directly inside. -/
def channel? (e : IoFailure) : Option Failure := e.inner?.bind fun x => x.toChannel.toOption

/-- Wraps a failure of its own kind, or takes out the byte-stream error that a failure carries. -/
def ofFailure : Failure → IoFailure
  | .io e => e
  | .notOpen => .channel .notConnected .notOpen
  | .interrupted => .channel .interrupted .interrupted
  | .pipeClosed => .channel .brokenPipe .pipeClosed
  | .markNotSupported => .channel .unsupported .markNotSupported
  | .alreadyWaiting => .channel .other .alreadyWaiting
  | .cancelled => .channel .other .cancelled

/-- A read that wanted more bytes than the stream had. -/
def unexpectedEnd : IoFailure := .text .unexpectedEof "failed to fill whole buffer"

/-- A write that took no byte of a non-empty run. -/
def nothingWritten : IoFailure := .text .writeZero "failed to write whole buffer"

/-- A read of text that met bytes that are none. -/
def notText : IoFailure := .text .invalidData "stream did not contain valid UTF-8"

end IoFailure

/-- What a byte-stream error comes to when it is opened. -/
inductive IoFailure.Opened where
  /-- No channel failure stands directly inside, and the error stays closed. -/
  | kept
  /-- The channel failure directly inside. -/
  | failure (e : Failure)
  /-- Something other than a channel failure came out. -/
  | stray (x : Inner)
  /-- Nothing came out. -/
  | nothing

/-- Opens the error if a channel failure stands directly inside. -/
def IoFailure.opened (e : IoFailure) : Opened :=
  if !e.inner?.any Inner.isChannel then .kept
  else
    match e.inner?.map Inner.toChannel with
    | some (.ok inner) => .failure inner
    | some (.error x) => .stray x
    | none => .nothing

/-- Takes out the channel failure directly inside, or carries the error as it is. Whatever else may
come out is carried in an error of the kind `other`. -/
def Failure.ofIo (e : IoFailure) : Failure :=
  match e.opened with
  | .kept => .io e
  | .failure inner => inner
  | .stray x => .io (.around .other x)
  | .nothing => .io (.text .other "empty io error")

/-- An error value of either type. -/
inductive Fault where
  | channel (e : Failure)
  | io (e : IoFailure)
  deriving DecidableEq

/-- One step of passing an error value on. -/
inductive Rewrap where
  /-- Convert to the other type. -/
  | convert
  /-- Carry a byte-stream error inside a failure; nothing happens to a failure. -/
  | carry
  /-- Wrap the value into a byte-stream error of the given kind. -/
  | wrap (kind : IoKind)
  deriving DecidableEq, Repr

namespace Fault

/-- The wording of the value. -/
def message : Fault → String
  | .channel e => e.message
  | .io e => e.message

/-- The wording of its cause. -/
def source : Fault → Option String
  | .channel e => e.source
  | .io e => e.source

/-- Diagnostic text. -/
def describe : Fault → String
  | .channel e => e.describe
  | .io e => e.describe

/-- The value after one step. -/
def apply : Rewrap → Fault → Fault
  | .convert, .channel e => .io (IoFailure.ofFailure e)
  | .convert, .io e => .channel (Failure.ofIo e)
  | .carry, .channel e => .channel e
  | .carry, .io e => .channel (.io e)
  | .wrap k, .channel e => .io (.channel k e)
  | .wrap k, .io e => .io (.nested k e)

end Fault

end Loopback
