import Questionnaire.Sample.Walkthrough

/-!
# The walkthrough program

Prints the lines of the sample walk.
-/

open Questionnaire

def main : IO Unit :=
  match Sample.Walkthrough.lines with
  | .ok lines => lines.forM IO.println
  | .error e => throw (IO.userError e.message)
