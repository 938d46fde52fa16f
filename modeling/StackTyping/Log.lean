import StackTyping.Verify

/-!
The log of a pass: a heading, a line for every instruction that was entered, and the details of
the fault that ended it.
-/

namespace StackTyping

inductive LogLevel where
  | debug
  | trace
deriving DecidableEq

namespace LogLevel

def text : LogLevel → String
  | debug => "DEBUG"
  | trace => "TRACE"

end LogLevel

structure LogRecord where
  level : LogLevel
  text : String
deriving DecidableEq

namespace LogRecord

/-- The record as one line, level first. -/
def line (r : LogRecord) : String := r.level.text ++ " " ++ r.text

end LogRecord

def padLeft (width : Nat) (text : String) : String :=
  String.ofList (List.replicate (width - text.length) ' ') ++ text

def padRight (width : Nat) (text : String) : String :=
  text ++ String.ofList (List.replicate (width - text.length) ' ')

/-- What a fault adds to the log when it is found. -/
def Fault.records (cat : Catalog) (fault : Fault) : List LogRecord :=
  (fault.detail? cat).toList.map (⟨.debug, ·⟩)

namespace Scope

variable (scope : Scope)

def traceRecord (i : Nat) (instr : Instr) (stack : Stack) : LogRecord :=
  ⟨.trace, padLeft 4 (toString i) ++ ": " ++ padRight 10 instr.mnemonic ++ " "
    ++ stack.text scope.cat⟩

def log : List LogRecord :=
  let body := scope.body
  let report := scope.report
  let heading := "Verifying '" ++ body.name ++ "' (" ++ toString body.code.length
    ++ " instructions, " ++ toString body.regions.length ++ " exception regions)"
  let entered := (body.code.zip report.entries.toList).zipIdx.map fun ((instr, stack), i) =>
    scope.traceRecord i instr stack
  let ending := match report.rejection? with
    | none => []
    | some r =>
      r.fault.records scope.cat
        ++ [⟨.debug, "Rejected '" ++ body.name ++ "': " ++ r.message scope.cat⟩]
  ⟨.debug, heading⟩ :: entered ++ ending

end Scope

end StackTyping
