import BraceTemplate.CommandLine

/-! The command line program. -/

def main (arguments : List String) : IO UInt32 := do
  let outcome := BraceTemplate.CommandLine.run arguments
  IO.print outcome.stdout
  IO.eprint outcome.stderr
  return outcome.exit.toUInt32
