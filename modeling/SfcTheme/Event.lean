import SfcTheme.Text.Control

set_option autoImplicit false

namespace SfcTheme

inductive Stream where
  | out | err
  deriving DecidableEq, Repr

inductive Event where
  | log (logger message : Text)
  | print (stream : Stream) (text : Text)
  deriving DecidableEq, Repr

namespace Event

/-- A line on a stream that is no terminal. -/
def echo (stream : Stream) (line : Text) : Event :=
  .print stream (line ++ ['\n']).withoutControls

def log? : Event → Option (Text × Text)
  | .log logger message => some (logger, message)
  | .print _ _ => none

def logs (es : List Event) : List (Text × Text) := es.filterMap log?

def logLine (logger message : Text) : Text := "DEBUG " ++ logger ++ ": " ++ message ++ "\n"

def textOn (stream : Stream) : Event → Text
  | .log _ _ => []
  | .print s t => if s = stream then t else []

def printed (stream : Stream) (es : List Event) : Text := es.flatMap (textOn stream)

/-- A log is shown on the error stream if it is asked for, and otherwise not at all. -/
def shown (verbose : Bool) : Event → List Event
  | .log logger message => if verbose then [.print .err (logLine logger message)] else []
  | e => [e]

theorem printed_out_shown (verbose : Bool) (es : List Event) :
    printed .out (es.flatMap (shown verbose)) = printed .out es := by
  induction es with
  | nil => rfl
  | cons e es ih =>
    simp only [printed, List.flatMap_cons, List.flatMap_append] at ih ⊢
    rw [ih]
    cases e <;> cases verbose <;> simp [shown, textOn]

end Event

end SfcTheme
