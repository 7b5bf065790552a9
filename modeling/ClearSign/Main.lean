import ClearSign.Report
import ClearSign.Text.HexTable

/-! The command line: a report on the request that the first argument denotes. -/

open ClearSign

def main (args : List String) : IO UInt32 := do
  let ending := Report.ofArgument Hex.table args.head?
  IO.print ending.output
  match ending with
  | .finished _ => pure ()
  | .failed complaint => IO.eprintln complaint
  return ending.exitCode.toUInt32
