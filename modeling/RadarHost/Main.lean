import RadarHost.Cli.Run

/-!
# The command line
-/

def main (words : List String) : IO UInt32 := do
  let transcript := RadarHost.Cli.run words
  for line in transcript.stdout do
    IO.println line
  for line in transcript.stderr do
    IO.eprintln line
  return UInt32.ofNat transcript.exitCode
