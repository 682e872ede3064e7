/-
# Files on their way

The files of a form are sent one after the other, each from a stream of its own.  Each time that the
body is polled, the first stream that has not ended reads from its file: what the read returns is
sent as a chunk, and if it returns nothing the stream ends.  The sizes of the chunks are added up in
a counter of 64 bits that all streams share, and each sum is reported.  `Transmission.receive` is
what one read does to the body; what the reads return is `readAll`.
-/
import PackageStaging.Path

namespace PackageStaging.Http

/-! ### Reading -/

/-- The number of bytes that a read returns at most. -/
def bufferSize : Nat := 64 * 1024

/-- The number of bytes that a read returns if that many are ready and the file does not end before:
at least one, and no more than fit. -/
def readSize (ready : Nat) : Nat := min bufferSize (max 1 ready)

/-- What reads return, for each of which so many bytes are ready, given what is left of the files to
be read.  At the end of a file a read returns nothing, and the next one is from the next file. -/
def readAll : List Bytes → List Nat → List Bytes
  | [], _ => []
  | _ :: _, [] => []
  | [] :: later, _ :: sizes => [] :: readAll later sizes
  | rest :: later, ready :: sizes =>
    rest.take (readSize ready) :: readAll (rest.drop (readSize ready) :: later) sizes

/-! ### Sending -/

/-- How much of the files of a form has been sent. -/
structure SendingProgress where
  sent : Nat
  total : Nat
deriving DecidableEq, Repr

/-- A body whose files are being sent. -/
structure Transmission where
  /-- The chunks of the files whose streams have ended. -/
  finished : List (List Bytes)
  /-- The chunks of the file that is being sent. -/
  current : List Bytes
  /-- The files whose streams have not ended, the one that is being sent first. -/
  streams : List Path
  /-- The counter that the streams share. -/
  sent : UInt64
  /-- What was reported, in order. -/
  calls : List SendingProgress
deriving DecidableEq, Repr

namespace Transmission

/-- A body of which nothing has been sent. -/
def start (files : List Path) : Transmission := ⟨[], [], files, 0, []⟩

/-- The body when the stream of a file has ended. -/
def finish (t : Transmission) (later : List Path) : Transmission :=
  { t with finished := t.finished ++ [t.current], current := [], streams := later }

/-- The body when a chunk has been read: it is counted, and the count is reported. -/
def advance (total : Nat) (t : Transmission) (chunk : Bytes) : Transmission :=
  let now := t.sent + UInt64.ofNat chunk.length
  { t with current := t.current ++ [chunk], sent := now, calls := t.calls ++ [⟨now.toNat, total⟩] }

/-- The body after a read, which is one of the first stream that has not ended. -/
def receive (total : Nat) (t : Transmission) (read : Bytes) : Transmission :=
  match t.streams with
  | [] => t
  | _ :: later => if read = [] then t.finish later else t.advance total read

/-- The body with these files after some reads. -/
def ofReads (total : Nat) (files : List Path) (reads : List Bytes) : Transmission :=
  reads.foldl (receive total) (start files)

end Transmission

end PackageStaging.Http
