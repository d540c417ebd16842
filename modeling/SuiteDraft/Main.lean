import SuiteDraft.CommandLine.Generate

/-!
The program that writes test files. Its standard input names the files that it may see, one on a
line; these are its disk. What it changes there is then written.
-/

namespace SuiteDraft.Program

partial def linesOf (input : IO.FS.Stream) : IO (List String) := do
  let line ← input.getLine
  if line.isEmpty then return []
  else return String.ofList (line.toList.filter (· != '\n')) :: (← linesOf input)

def load (d : Disk) (name : String) : IO Disk := do
  try
    let bytes ← IO.FS.readBinFile name
    let p := d.absolute (Path.ofString name)
    match d.makeFolder p.parent with
    | .ok d => return d.put p.parts (.file bytes.toList)
    | .error _ => return d
  catch _ => return d

-- Writes the files of a disk that are not the same on another.
def save (before after : Disk) : IO Unit := do
  for (names, bytes) in after.files do
    let p : Path := ⟨.root, names⟩
    if (before.read p).toOption ≠ some bytes then
      IO.FS.createDirAll p.parent.toString
      IO.FS.writeBinFile p.toString (ByteArray.mk bytes.toArray)

-- Runs the command on a disk and shows what it shows; the number is that of its end.
def runOn (before : Disk) (arguments : List String) : IO UInt32 := do
  match CommandLine.Generate.run before arguments with
  | .error (.literal e) => IO.eprintln e.message; return 1
  | .error (.scan _) => IO.eprintln "The folder cannot be scanned."; return 1
  | .ok (state, exit) =>
    save before state.disk
    IO.print state.screen.output
    IO.eprint state.screen.beside
    match exit with
    | .code n => return n.toUInt32
    | .sentence text => IO.eprintln text; return 1

end SuiteDraft.Program

open SuiteDraft in
def main (arguments : List String) : IO UInt32 := do
  let here := Path.ofString ((← IO.getEnv "PWD").getD "/")
  let names ← Program.linesOf (← IO.getStdin)
  let disk ← names.foldlM Program.load { current := here.parts }
  Program.runOn disk arguments
