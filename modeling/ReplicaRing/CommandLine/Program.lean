import ReplicaRing.CommandLine.Arguments
import ReplicaRing.CommandLine.Directory
import ReplicaRing.Config.Read
import ReplicaRing.Config.Write
import ReplicaRing.Text.Quoted

/-!
The program: it writes sample configurations, checks configurations, and starts a replica from
one. A command is carried out as a plan, which says what to read or to write and how to go on.
-/

namespace ReplicaRing.CommandLine

/-! ## Description -/

def helpOption : OptionSpec := ⟨some 'h', "help", .help, "Print help"⟩

def configName : String := "wolfring.toml"

def startSpec : CommandSpec where
  name := "start"
  about := "Start the node"
  options := [
    ⟨none, "bootstrap", .flag, "Install a bootstrap view of this node and its peers"⟩,
    helpOption]

def initSpec : CommandSpec where
  name := "init"
  about := "Initialize a new configuration file"
  options := [
    ⟨some 'o', "output", .value "OUTPUT" (some configName) false,
      "Output path for configuration file"⟩,
    ⟨none, "node-id", .value "NODE_ID" (some "127.0.0.1:7654") true,
      "Node identity (host:port)"⟩,
    helpOption]

def validateSpec : CommandSpec where
  name := "validate"
  about := "Validate configuration file"
  options := [helpOption]

def program : ProgramSpec where
  name := "wolfring"
  version := "0.3.1"
  about := "Membership, leader oracle and range replication layer for a partitioned key-value store"
  options := [
    ⟨some 'c', "config", .value "CONFIG" (some configName) false, "Path to configuration file"⟩,
    ⟨some 'l', "log-level", .value "LOG_LEVEL" none true,
      "Log level override (trace, debug, info, warn, error)"⟩,
    helpOption,
    ⟨some 'V', "version", .version, "Print version"⟩]
  commands := [startSpec, initSpec, validateSpec]

/-! ## Commands -/

inductive Command where
  | start (config : String) (bootstrap : Bool) (logLevel : Option String)
  | init (output nodeId : String)
  | validate (config : String)
  deriving DecidableEq, Repr

/-- The command that an invocation asks for. -/
def Invocation.toCommand (i : Invocation) : Command :=
  let own (spec : CommandSpec) (long : String) := (valueOf spec.options i.commandOptions long).getD ""
  let config := (valueOf program.options i.programOptions "config").getD ""
  if i.command = initSpec.name then .init (own initSpec "output") (own initSpec "node-id")
  else if i.command = validateSpec.name then .validate config
  else
    .start config (i.commandOptions.lookup "bootstrap").isSome
      (valueOf program.options i.programOptions "log-level")

/-! ## Plans -/

/-- How a run ends. -/
structure Outcome where
  code : UInt8
  /-- What is printed. -/
  output : String
  /-- What is said about a failure. -/
  complaint : String
  deriving DecidableEq, Repr, Inhabited

namespace Outcome

def success (output : String) : Outcome := ⟨0, output, ""⟩

def failure (complaint : String) : Outcome := ⟨1, "", complaint⟩

def misuse (complaint : String) : Outcome := ⟨2, "", complaint⟩

end Outcome

inductive Plan where
  | finish (outcome : Outcome)
  /-- Reads a file, if that is possible. -/
  | read (path : String) (next : Option String → Outcome)
  /-- Writes a file; whether that was possible is told. -/
  | write (path text : String) (next : Bool → Outcome)

/-- The sample configuration file for a node. -/
def sampleFile (nodeId : String) : String :=
  "# WolfRing Configuration\n# Generated configuration file\n\n" ++
    (Config.sample nodeId nodeId).toToml

/-- What is reported on a configuration that is in order. -/
def summary (c : Config) : String :=
  "✓ Configuration is valid\n" ++
  "  Node ID: " ++ c.node.id ++ "\n" ++
  "  Bind Address: " ++ c.node.bindAddress ++ "\n" ++
  "  Peers: " ++ toString c.cluster.peers.length ++ "\n" ++
  "  Quorum Size: " ++ toString c.quorum ++ "\n" ++
  "  Detection Timeout: " ++ c.detector.timeout.render ++ "\n"

/-- Reads a configuration file and goes on with it. -/
def loadConfig (path : String) (next : Config → Outcome) : Plan :=
  .read path fun
    | none => .failure ("failed to read " ++ Text.quote path)
    | some text =>
      match Config.parse text with
      | .error e => .failure ("✗ Configuration error: " ++ e.message)
      | .ok c => next c

/-- The plan of a command. To start a replica means to have its configuration loaded; what runs
from there on is not part of a plan. -/
def Command.plan : Command → Plan
  | .start config _ _ => loadConfig config fun _ => .success ""
  | .init output nodeId =>
    .write output (sampleFile nodeId) fun written =>
      if written then .success ("Configuration written to " ++ Text.quote output ++ "\n")
      else .failure ("failed to write " ++ Text.quote output)
  | .validate config => loadConfig config fun c => .success (summary c)

/-- The plan of a command line. -/
def plan (args : List String) : Plan :=
  match program.read args with
  | .ok i => i.toCommand.plan
  | .error (.text text) => .finish (.success text)
  | .error (.misuse reason) => .finish (.misuse ("error: " ++ reason))

/-- Carries out a plan in a directory. -/
def Plan.runIn (d : Directory) : Plan → Outcome × Directory
  | .finish o => (o, d)
  | .read path next => (next (d.read path), d)
  | .write path text next =>
    match d.write path text with
    | some d => (next true, d)
    | none => (next false, d)

end ReplicaRing.CommandLine
