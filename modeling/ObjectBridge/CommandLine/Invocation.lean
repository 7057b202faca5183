import ObjectBridge.CommandLine.Arguments
import ObjectBridge.Config.Settings

namespace ObjectBridge.CommandLine

inductive Command where
  | compile (input : String) (output : Option String)
  | dump (blob : Option String) (pretty : Bool)
  | check (blob : Option String)
  deriving DecidableEq, Repr

structure Invocation where
  command : Command
  config : Option String
  logLevel : Option String
  logFormat : Option LogFormat
  deriving DecidableEq, Repr

def sharedOptions : List OptionRule :=
  [⟨"config", none, .value .path⟩,
    ⟨"log-level", none, .value .text⟩,
    ⟨"log-format", none, .value (.oneOf (LogFormat.all.map LogFormat.word))⟩,
    ⟨"help", some 'h', .refuse .helpAsked⟩]

def grammar : Grammar :=
  ⟨sharedOptions ++ [⟨"version", some 'V', .refuse .versionAsked⟩], [],
    ["compile", "dump", "check", "help"]⟩

structure CommandRule where
  options : List OptionRule
  place : String
  command? : (argument : String → Option String) → Option Command

def CommandRule.grammar (rule : CommandRule) : Grammar :=
  ⟨rule.options ++ sharedOptions, [(rule.place, .path)], []⟩

-- Only compiling needs its argument.
def commandRule? : String → Option CommandRule
  | "compile" => some ⟨[⟨"output", some 'o', .value .path⟩], "input", fun argument =>
      (argument "input").map fun input => .compile input (argument "output")⟩
  | "dump" => some ⟨[⟨"pretty", some 'p', .flag⟩], "blob", fun argument =>
      some (.dump (argument "blob") (argument "pretty").isSome)⟩
  | "check" => some ⟨[], "blob", fun argument => some (.check (argument "blob"))⟩
  | _ => none

def helpOn : List String → Refusal
  | [] => .helpAsked
  | [topic] => if grammar.subcommands.contains topic then .helpAsked else .unknownSubcommand
  | _ => .unknownSubcommand

-- The options before the command's name are judged last.
def Invocation.ofArguments (words : List String) : Except Refusal Invocation := do
  let (outer, chosen) ← (Reading.start grammar).readToSubcommand grammar words
  let some (name, rest) := chosen
    | throw (if (← outer.settle).given.isEmpty then .nothingAsked else .missingSubcommand)
  let some rule := commandRule? name | throw (helpOn rest)
  let inner ← rule.grammar.read rest
  let some command := rule.command? (fun name => inner.given.lookup name) | throw .missingArgument
  let outer ← outer.settle
  let argument (name : String) : Option String := (inner.given ++ outer.given).lookup name
  return ⟨command, argument "config", argument "log-level",
    (argument "log-format").bind LogFormat.ofWord?⟩

end ObjectBridge.CommandLine
