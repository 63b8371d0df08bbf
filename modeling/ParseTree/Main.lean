import ParseTree.CommandLine.Run

/-!
# The command-line program

Reads files from the file system, writes the output to standard output and the
log to standard error.
-/

namespace ParseTree

/-- What the file system has at a path. -/
def lookUp (path : String) : IO Entry := do
  try
    let bytes ← IO.FS.readBinFile path
    return .file (String.fromUTF8? bytes)
  catch
    | .noFileOrDirectory .. => return .missing
    | _ => return .other

end ParseTree

open ParseTree in
def main (args : List String) : IO UInt32 := do
  let outcome ← runArguments lookUp args
  IO.print outcome.output
  for line in outcome.log do
    IO.eprintln line.render
  return outcome.code.toUInt32
