import NestedFilter.Session

/-!
# The program

A session over standard input. The first argument, if there is one, is the path of a file
with settings.
-/

namespace NestedFilter

namespace Program

/-- What is found at a path. -/
def readContent (path : String) : IO FileContent := do
  try
    return .bytes (← IO.FS.readBinFile path)
  catch
    | .noFileOrDirectory _ _ _ => return .absent
    | _ => return .unreadable

/-- All bytes of a stream. -/
partial def readAll (stream : IO.FS.Stream) (read : ByteArray) : IO ByteArray := do
  let more ← stream.read 65536
  if more.isEmpty then return read else readAll stream (read ++ more)

end Program

end NestedFilter

open NestedFilter Program in
/-- Run a session and end with its status. -/
def main (args : List String) : IO UInt32 := do
  let file ← args.head?.mapM fun path => return (path, ← readContent path)
  let transcript := Session.start file (← readAll (← IO.getStdin) .empty)
  (← IO.getStdout).putStr transcript.output
  if let some failure := transcript.failure then
    IO.eprintln failure.message
  return transcript.code.toUInt32
