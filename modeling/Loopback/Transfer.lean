import Loopback.Pipe

/-!
# Transfers

A transfer moves more than one call on a stream can: it writes all of some bytes, fills a buffer,
or reads to the end. It is a loop over single calls. `Transfer.next` says which call comes next, or
that the transfer is over; `Transfer.feed` takes in the result of that call. A call that fails with
the kind `interrupted` is made again.
-/

namespace Loopback

/-- How a transfer, or a single call through the byte-stream interface, ends. -/
inductive StreamAnswer where
  | reply (r : Reply)
  | failed (e : Failure)
  | ioFailed (e : IoFailure)
  /-- What was read until the end of the stream (`none`) or until a failure. -/
  | collected (data : Bytes) (ending : Option IoFailure)
  /-- What was read, and its length or the failure that ended the reading. -/
  | gathered (data : Bytes) (ending : Except IoFailure Nat)
  | text (s : String)
  /-- How many bytes were read and thrown away until the end or until a failure. -/
  | drained (count : Nat) (ending : Option IoFailure)

/-- A transfer under way. What was read so far is kept in chunks, the newest first. -/
inductive Transfer where
  | writeAll (rest : Bytes)
  | readExact (missing : Nat) (got : List Bytes)
  /-- Read in steps of at most `chunk` bytes until the end or a failure. -/
  | readAll (chunk : Nat) (got : List Bytes)
  | readToEnd (got : List Bytes)
  | readToString (got : List Bytes)
  /-- Read in steps of at most `chunk` bytes, only counting them. -/
  | drain (chunk : Nat) (count : Nat)
  | finished (answer : StreamAnswer)

namespace Transfer

/-- The bytes of a list of chunks, the newest first. -/
def join (got : List Bytes) : Bytes := got.reverse.flatten

/-- How many bytes a read to the end asks for at a time. -/
def gulp : Nat := 8192

/-- The text that bytes encode, if they encode one. -/
def decode? (data : Bytes) : Option String := String.fromUTF8? ⟨data.toArray⟩

/-- The call that comes next, or the answer. -/
def next : Transfer → PipeCall ⊕ StreamAnswer
  | .writeAll [] => .inr (.reply .unit)
  | .writeAll rest => .inl (.write rest)
  | .readExact 0 got => .inr (.reply (.bytes (join got)))
  | .readExact missing _ => .inl (.read missing)
  | .readAll chunk _ => .inl (.read chunk)
  | .readToEnd _ => .inl (.read gulp)
  | .readToString _ => .inl (.read gulp)
  | .drain chunk _ => .inl (.read chunk)
  | .finished answer => .inr answer

/-- The end of a transfer that a failure stopped. -/
def stop (e : IoFailure) : Transfer → StreamAnswer
  | .readAll _ got => .collected (join got) (some e)
  | .readToEnd got => .gathered (join got) (.error e)
  | .drain _ count => .drained count (some e)
  | _ => .ioFailed e

/-- The end of a transfer at the end of the stream. -/
def endOfStream : Transfer → StreamAnswer
  | .readExact _ _ => .ioFailed .unexpectedEnd
  | .readAll _ got => .collected (join got) none
  | .readToEnd got => .gathered (join got) (.ok (join got).length)
  | .readToString got =>
      match decode? (join got) with
      | some s => .text s
      | none => .ioFailed .notText
  | .drain _ count => .drained count none
  | .writeAll _ => .ioFailed .nothingWritten
  | .finished answer => answer

/-- A transfer that read `data`, which is not empty. -/
def extend (data : Bytes) : Transfer → Transfer
  | .readExact missing got => .readExact (missing - data.length) (data :: got)
  | .readAll chunk got => .readAll chunk (data :: got)
  | .readToEnd got => .readToEnd (data :: got)
  | .readToString got => .readToString (data :: got)
  | .drain chunk count => .drain chunk (count + data.length)
  | t => t

/-- A failure of this kind is tried again; a drain tries nothing again. -/
def retries (e : IoFailure) : Transfer → Bool
  | .drain _ _ => false
  | .readAll _ _ => false
  | _ => e.kind == .interrupted

/-- Takes in the result of the call that came next. -/
def feed (r : Result) (t : Transfer) : Transfer :=
  match r, t with
  | .error e, t =>
      let e := IoFailure.ofFailure e
      if t.retries e then t else .finished (t.stop e)
  | .ok (.count 0), t => .finished t.endOfStream
  | .ok (.count n), .writeAll rest => .writeAll (rest.drop n)
  | .ok (.bytes []), t => .finished t.endOfStream
  | .ok (.bytes data), t => t.extend data
  | .ok reply, _ => .finished (.reply reply)

end Transfer

end Loopback
