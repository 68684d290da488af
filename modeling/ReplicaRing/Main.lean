import ReplicaRing.CommandLine.Program

/-!
The command line: plans are carried out on the file system.
-/

namespace ReplicaRing.CommandLine

/-- Carries out a plan; a file that cannot be read or written is told as such. -/
def Plan.carryOut : Plan → IO Outcome
  | .finish o => return o
  | .read path next => do
    let text ← try pure (some (← IO.FS.readFile path)) catch _ => pure none
    return next text
  | .write path text next => do
    let written ← try
        IO.FS.writeFile path text
        pure true
      catch _ => pure false
    return next written

end ReplicaRing.CommandLine

/-- Carries out the arguments' plan, prints what it comes to, and exits with its code. -/
def main (args : List String) : IO UInt32 := do
  let o ← (ReplicaRing.CommandLine.plan args).carryOut
  IO.print o.output
  unless o.complaint.isEmpty do IO.eprintln o.complaint
  return o.code.toUInt32
