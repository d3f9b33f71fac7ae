import Stencil.Text

/-! Failures of a run: what was being done, and the causes behind it, the nearest first. -/
namespace Stencil.Command

structure Failure where
  message : Text
  causes : List Text := []
  deriving DecidableEq

namespace Failure

/-- Says what was being done when a failure came up. -/
def during (f : Failure) (activity : Text) : Failure := ⟨activity, f.message :: f.causes⟩

/-- All in one line. -/
def summary (f : Failure) : Text := List.intercalate ": ".toList (f.message :: f.causes)

/-- A text with an indentation in front of all its lines but the first. -/
def hang (columns : Nat) (s : Text) : Text :=
  s.flatMap fun c => if c = '\n' then '\n' :: List.replicate columns ' ' else [c]

def numbered (n : Nat) (cause : Text) : Text :=
  let number := Text.ofNat n
  '\n' :: List.replicate (5 - number.length) ' ' ++ number ++ ": " ++ hang 7 cause

/-- Several causes are numbered; one stands for itself. -/
def causeLines : List Text → Text
  | [] => []
  | [cause] => "\n\nCaused by:\n    " ++ hang 4 cause
  | causes => "\n\nCaused by:" ++ (causes.zipIdx.flatMap fun (cause, n) => numbered n cause)

def report (f : Failure) : Text := "Error: " ++ f.message ++ causeLines f.causes ++ ['\n']

end Failure

end Stencil.Command
