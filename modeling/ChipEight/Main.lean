import ChipEight.CommandLine.Run

/-!
# The program

The outer layer: it reads the arguments, the log filter and the program file, asks `Command` how
that ends, and writes the answer out.
-/

namespace ChipEight

/-- The wording of the errors of files, by the number that the system gives them. -/
def fileErrorText (code : UInt32) : String :=
  let what :=
    match code.toNat with
    | 1 => "Operation not permitted"
    | 2 => "No such file or directory"
    | 5 => "Input/output error"
    | 6 => "No such device or address"
    | 13 => "Permission denied"
    | 20 => "Not a directory"
    | 21 => "Is a directory"
    | 24 => "Too many open files"
    | 36 => "File name too long"
    | 40 => "Too many levels of symbolic links"
    | _ => "Input/output error"
  what ++ " (os error " ++ toString code.toNat ++ ")"

/-- The error of a file operation as an error of reading. -/
def readErrorOf : IO.Error → ReadError
  | .noFileOrDirectory _ code _ => ⟨.other "NotFound", fileErrorText code⟩
  | .permissionDenied _ code _ => ⟨.other "PermissionDenied", fileErrorText code⟩
  | .inappropriateType _ code _ => ⟨.other "NotADirectory", fileErrorText code⟩
  | .invalidArgument _ code _ => ⟨.other "InvalidInput", fileErrorText code⟩
  | .resourceExhausted _ code _ => ⟨.other "Other", fileErrorText code⟩
  | e => ⟨.other "Other", toString e⟩

/-- Reads a file as a source that hands out everything at once and then, if reading failed, the
error. -/
def openFile (path : String) : IO (Except ReadError Source) := do
  match ← (IO.FS.Handle.mk path .read).toBaseIO with
  | .error e => return .error (readErrorOf e)
  | .ok handle =>
    match ← (handle.read (USize.ofNat (Machine.maxProgram + 1))).toBaseIO with
    | .error e => return .ok [.failure (readErrorOf e)]
    | .ok bytes => return .ok [.bytes bytes.toList]

/-- A key of random bytes from the system. -/
def drawKey : IO ChaCha.Key := do
  let bytes ← IO.getRandomBytes 32
  let word (k : Nat) : UInt32 :=
    (bytes.toList.drop (4 * k)).take 4 |>.foldr (fun b n => n * 256 + b.toUInt32) 0
  return Vector.ofFn fun k => word k.val

/-- Writes the outputs of a command and gives its exit code. -/
def finish (e : Exit) : IO UInt32 := do
  (← IO.getStderr).putStr e.err
  (← IO.getStdout).putStr e.out
  return e.code.toUInt32

end ChipEight

open ChipEight in
/-- Runs the command. -/
def main (args : List String) : IO UInt32 := do
  match Command.plan args with
  | .error e => finish e
  | .ok a =>
    let filter := (← IO.getEnv "RUST_LOG").getD ""
    finish (Command.run a filter (← openFile a.path) (← drawKey) (← drawKey))
