import SfcTheme.Event

/-!
Debug reports of emitted files. A chain begins with recorders, each of which keeps every report
and hands it on, and ends in a sink that shows it, if in anything.
-/

set_option autoImplicit false

namespace SfcTheme

structure Report where
  file : Text
  output : Text
  deriving DecidableEq, Repr

def Report.framed (r : Report) : Text :=
  "---------- Begin " ++ r.file ++ " ----------\n" ++ r.output ++ "\n---------- End " ++ r.file ++
    " ----------"

inductive Sink where
  | console (stream : Stream)
  | logger (name : Text)
  deriving DecidableEq, Repr

def Sink.event : Sink → Report → Event
  | .console stream, r => .echo stream r.framed
  | .logger name, r => .log name r.framed

/-- The records of the recorders from the outermost inwards, and the sink behind them. -/
structure ReportChain where
  records : List (List Report)
  sink : Option Sink
  deriving DecidableEq, Repr

namespace ReportChain

def default : ReportChain := ⟨[], some (.console .out)⟩

def report (chain : ReportChain) (r : Report) : ReportChain × List Event :=
  ({ chain with records := chain.records.map (· ++ [r]) },
    (chain.sink.map (Sink.event · r)).toList)

def clear (chain : ReportChain) (depth : Nat) : ReportChain :=
  { chain with records := chain.records.set depth [] }

end ReportChain

end SfcTheme
