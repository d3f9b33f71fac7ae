import Stencil.Command

/-! The program on the files of the system. -/
namespace Stencil

/-- The code and the description of an error of the system. -/
def systemError : IO.Error → UInt32 × String
  | .alreadyExists _ code details
  | .noFileOrDirectory _ code details
  | .inappropriateType _ code details
  | .permissionDenied _ code details
  | .resourceExhausted _ code details
  | .invalidArgument _ code details
  | .interrupted _ code details => (code, details)
  | .otherError code details
  | .resourceBusy code details
  | .resourceVanished code details
  | .unsupportedOperation code details
  | .hardwareFault code details
  | .unsatisfiedConstraints code details
  | .illegalOperation code details
  | .protocolError code details
  | .timeExpired code details
  | .noSuchThing _ code details => (code, details)
  | .userError details => (0, details)
  | .unexpectedEof => (0, "unexpected end of file")

/-- Codes come with either sign. -/
def FileError.ofSystem (e : IO.Error) : FileError :=
  let (code, description) := systemError e
  match code.toInt32.toInt.natAbs with
  | 2 => .notFound
  | 17 => .alreadyExists
  | 20 => .notDirectory
  | 21 => .isDirectory
  | 36 => .nameTooLong
  | code => .other description code

def attempt {α : Type} (action : IO α) : IO (Except FileError α) := do
  match ← action.toBaseIO with
  | .ok v => return .ok v
  | .error e => return .error (.ofSystem e)

instance : MonadFiles IO where
  readBytes p := attempt do return (← IO.FS.readBinFile (String.ofList p.text)).toList
  writeBytes p content := attempt (IO.FS.writeBinFile (String.ofList p.text) content.toByteArray)
  makeDir p := attempt (IO.FS.createDir (String.ofList p.text))
  isDirectory p := do
    match ← attempt (IO.FS.readBinFile (String.ofList p.text)) with
    | .error .isDirectory => return true
    | _ => return false

end Stencil

open Stencil in
def main (args : List String) : IO UInt32 := do
  let level ← IO.getEnv "RUST_LOG"
  let outcome ← Command.run (level.bind fun s => Command.Level.ofText? s.toList)
    (args.map String.toList)
  (← IO.getStderr).putStr (String.ofList outcome.standardError)
  (← IO.getStdout).putStr (String.ofList outcome.standardOutput)
  (← IO.getStdout).flush
  return outcome.exitCode.toUInt32
