/-
VirtualPC/Command/Report.lean

What a command leaves to be seen: lines on standard output, and a failure with its causes on
standard error.  Lines printed before a failure stay.
-/
import VirtualPC.Command.Usage

namespace VirtualPC.Command

/-- Why a command failed: what it was doing, and the causes beneath, the nearest first. -/
structure Failure where
  message : String
  causes : List String
deriving DecidableEq, Repr

/-- The lines of a failure report.  A single cause stands by itself; several are numbered. -/
def Failure.lines (f : Failure) : List String :=
  ("Error: " ++ f.message) ::
    match f.causes with
    | [] => []
    | [cause] => ["", "Caused by:", "    " ++ cause]
    | causes =>
      "" :: "Caused by:" ::
        causes.zipIdx.map fun (cause, i) => "    " ++ toString i ++ ": " ++ cause

/-- Lines as a text, each ended. -/
def textOfLines (lines : List String) : String :=
  lines.foldl (fun text line => text ++ line ++ "\n") ""

/-- How a command ended. -/
inductive Report where
  /-- The command line asked for help. -/
  | help
  /-- The command line was refused and nothing was done. -/
  | refused (cause : UsageError)
  /-- The command ran, printed lines, and may have failed. -/
  | finished (printed : List String) (failure : Option Failure)
deriving DecidableEq, Repr

namespace Report

/-- The exit code. -/
def exitCode : Report → Nat
  | help => 0
  | refused _ => 2
  | finished _ (some _) => 1
  | finished _ none => 0

/-- What goes to standard output. -/
def output : Report → String
  | help => textOfLines usage
  | refused _ => ""
  | finished printed _ => textOfLines printed

/-- What goes to standard error. -/
def errors : Report → String
  | help => ""
  | refused cause => textOfLines ["error: " ++ cause.message]
  | finished _ failure => textOfLines ((failure.map Failure.lines).getD [])

end Report

end VirtualPC.Command
