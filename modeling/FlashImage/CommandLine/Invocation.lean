import FlashImage.CommandLine.Arguments

/-!
# Invocations

The tool is given one of four commands. Two switches in front of the command say how much it shows;
each command has words and switches of its own behind it.
-/

namespace FlashImage

/-- **A command** with what it works on. -/
inductive Command where
  /-- Show the structure of an image. -/
  | report (file : String)
  /-- Show it, and fail if a check does. -/
  | verify (file : String)
  /-- Split an image into the files of a directory. -/
  | extract (file output : String) (keepBinary : Bool)
  /-- Put an image together from the files of a directory. -/
  | repack (directory output : String) (allowModified : Bool)
  deriving DecidableEq

/-- **An invocation of the tool.** -/
structure Invocation where
  debug : Bool
  verbose : Bool
  command : Command
  deriving DecidableEq

namespace Invocation

def debugSwitch : Switch := ⟨'d', "debug", false⟩
def verboseSwitch : Switch := ⟨'v', "verbose", false⟩
def outputSwitch : Switch := ⟨'o', "output", true⟩
def keepBinarySwitch : Switch := ⟨'k', "keep-binary", false⟩
def allowModifiedSwitch : Switch := ⟨'a', "allow-modified", false⟩

/-- **The command with a name**, if its arguments are the ones it needs. -/
def command? (name : String) (args : List String) : Option Command :=
  match name with
  | "show" => do
    let a ← Arguments.read? [] args
    let [file] := a.words | none
    return .report file
  | "verify" => do
    let a ← Arguments.read? [] args
    let [file] := a.words | none
    return .verify file
  | "extract" => do
    let a ← Arguments.read? [outputSwitch, keepBinarySwitch] args
    let [file] := a.words | none
    return .extract file (← a.value? outputSwitch.long) (a.has keepBinarySwitch.long)
  | "repack" => do
    let a ← Arguments.read? [outputSwitch, allowModifiedSwitch] args
    let [directory] := a.words | none
    return .repack directory (← a.value? outputSwitch.long) (a.has allowModifiedSwitch.long)
  | _ => none

/-- **The invocation that arguments stand for**, if they stand for one. Everything behind the name of
the command belongs to it. -/
def ofArguments? (args : List String) : Option Invocation := do
  let (switches, rest) := args.span Arguments.isSwitch
  if switches.contains "--" then none
  let a ← Arguments.read? [debugSwitch, verboseSwitch] switches
  let name :: rest := rest | none
  return ⟨a.has debugSwitch.long, a.has verboseSwitch.long, ← command? name rest⟩

end Invocation

end FlashImage
