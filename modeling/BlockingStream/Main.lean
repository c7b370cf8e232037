import BlockingStream.Bridge.Demo

/-!
This module contains the command line of the demonstration program. Its only argument, which may be left
out, is the path of a file with settings.
-/

open BlockingStream

def readSource (path : String) : IO Demo.Source := do
  match ← (IO.FS.readBinFile path).toBaseIO with
  | .ok bytes => pure (.content bytes.toList)
  | .error _ => pure .missing

def main (args : List String) : IO UInt32 := do
  let setting ← IO.getEnv "RUST_LOG"
  let path := args.headD ""
  let source ← if args.isEmpty then pure Demo.Source.none else readSource path
  let r := Demo.run setting path source
  for line in r.stdout do
    IO.println line
  match r.stderr with
  | some line => IO.eprintln line
  | none => pure ()
  pure r.exitCode
