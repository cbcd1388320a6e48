import FlashImage.Algorithms.Standard
import FlashImage.CommandLine.Invocation
import FlashImage.FileTree
import FlashImage.Machine.Repack
import FlashImage.Report

/-!
# The command line

A run of the tool reads and writes files, and ends with an `Outcome`: what it prints, what it logs and
its exit code. The tool greets before it looks at its arguments, so even a run that cannot be
understood prints something.

## Parts

* `Outcome` — the end of a run;
* the four commands;
* `CommandLine.run`.
-/

namespace FlashImage

/-- **The end of a run.** -/
structure Outcome where
  exitCode : UInt32
  out : String
  log : List LogLine

namespace Outcome

/-- The exit code of a run that failed. -/
def failureCode : UInt32 := 1

/-- The exit code of a run whose arguments cannot be understood. -/
def usageCode : UInt32 := 2

/-- The exit code of a run that ends in a fault. -/
def faultCode : UInt32 := 101

/-- A run that succeeds, with what it prints. -/
def success (out : String) (log : List LogLine) : Outcome := ⟨0, out, log⟩

/-- A run that fails, after what it has printed. -/
def failure (out : String) (log : List LogLine) (reason : String) : Outcome :=
  ⟨failureCode, out, log ++ [.error reason]⟩

/-- A run that ends in a fault, before it has printed anything. -/
def fault : Outcome := ⟨faultCode, "", []⟩

end Outcome

namespace CommandLine

variable {m : Type → Type} [Monad m] [FileSystem m]

/-! ### Showing an image -/

/-- The pointer array, record by record. -/
def pointerDump (ps : Pointers) : String :=
  let record (p : Pointer) : List String :=
    ["        HwPointer \x7b",
      s!"            value: 0x{Text.hex 1 p.value.toNat},",
      s!"            reserved: 0x{Text.hex 1 p.reserved.toNat},",
      s!"            crc: 0x{Text.hex 1 p.crc.toNat},",
      "        \x7d,"]
  String.join ((["HwPointers \x7b", "    records: ["] ++ ps.records.flatMap record
    ++ ["    ],", "\x7d"]).map fun l => l ++ "\n")

/-- Do something with the image in a file, if there is one. -/
def withImage (file : String) (f : Image → m Outcome) : m Outcome := do
  match ← FileSystem.readFile file with
  | none => return .failure "" [] s!"Cannot read {file}"
  | some data =>
    match Image.parse data with
    | .ok i => f i
    | .error e => return .failure "" [] s!"Cannot parse image: {e.message}"

/-- **Show the structure of an image**, and with `debug` its pointer array as well. -/
def runReport (debug verbose : Bool) (file : String) : m Outcome :=
  withImage file fun i =>
    let dump := if debug then pointerDump i.pointers else ""
    return .success (dump ++ i.report verbose) i.reportLog

/-- **Show the structure of an image**, and fail if a check does. -/
def runVerify (verbose : Bool) (file : String) : m Outcome :=
  withImage file fun i =>
    let bad := i.diagnostics.countP Diagnostic.isCrcError
    if bad = 0 then return .success (i.report verbose) i.reportLog
    else return .failure (i.report verbose) i.reportLog s!"{Text.decimal bad} CRC errors"

/-! ### Splitting an image -/

/-- Write files into a directory; how many could not be written. -/
def writeFiles (directory : String) (files : Files) : m Nat :=
  files.foldlM (fun failed (name, contents) => do
    return if ← FileSystem.writeFile (joinPath directory name) contents then failed else failed + 1) 0

/-- **Split an image into files.** A file that cannot be written does not keep the others from being
written. -/
def runExtract (verbose : Bool) (file output : String) (keepBinary : Bool) : m Outcome :=
  withImage file fun i => do
    let out := if verbose then i.report verbose else ""
    let log := if verbose then i.reportLog else []
    if ← FileSystem.makeDirectories (joinPath output GapPiece.directory) then
      let failed ← writeFiles output (i.extract keepBinary).files
      if failed = 0 then return .success out log
      else return .failure out log s!"{Text.decimal failed} files could not be written"
    else return .failure out log s!"Cannot create {output}"

/-! ### Putting an image together -/

/-- The files that an index names. -/
def namedFiles (index : Metadata) : List String :=
  let ofGap : LayoutEntry → Option String
    | .gap _ _ _ _ fileName => some fileName
    | .section .. => none
  index.layout.filterMap ofGap
    ++ index.sections.flatMap fun r => r.jsonFile.toList ++ r.fileName.toList

/-- Read a file of a directory. -/
def readFrom (directory name : String) : m (String × Except RepackError Bytes) := do
  match ← FileSystem.readFile (joinPath directory name) with
  | some contents => return (name, .ok contents)
  | none => return (name, .error (.missingFile name))

/-- **The files of a directory** that an image is put together from. -/
def readFiles (directory : String) : m FileReader := do
  let (_, index) ← readFrom directory Metadata.fileName
  let known : FileReader := fun name =>
    if name = Metadata.fileName then index else .error (.missingFile name)
  match readMetadata known with
  -- without an index no other file is needed
  | .error _ => return known
  | .ok m =>
    let contents ← (namedFiles m).mapM (readFrom directory)
    return fun name => ((Metadata.fileName, index) :: contents).lookup name |>.getD (known name)

/-- **Put an image together** from the files of a directory, and with `debug` show it. The files may ask for
more than there is room for. -/
def runRepack (debug verbose : Bool) (directory output : String) (allowModified : Bool) :
    m Outcome := do
  match (Machine.repack (.ofReader (← readFiles directory)) (!allowModified)).run with
  | .error _ => return .fault
  | .ok (.error e) => return .failure "" [] s!"Repack failed: {e.message}"
  | .ok (.ok image) =>
    if !(← FileSystem.writeFile output image) then
      return .failure "" [] s!"Cannot write {output}"
    if !debug then return .success "" []
    match Image.parse image with
    | .ok i => return .success (i.report verbose) i.reportLog
    | .error e => return .failure "" [] s!"Cannot parse image: {e.message}"

/-! ### A run -/

/-- What the tool prints first. -/
def greeting : String := "FS4/FS5 Firmware Tool 🔧\n"

/-- Carry out an invocation. -/
def runInvocation (i : Invocation) : m Outcome :=
  match i.command with
  | .report file => runReport i.debug i.verbose file
  | .verify file => runVerify i.verbose file
  | .extract file output keepBinary => runExtract i.verbose file output keepBinary
  | .repack directory output allowModified =>
    runRepack i.debug i.verbose directory output allowModified

/-- **A run of the tool.** -/
def run (args : List String) : m Outcome := do
  match Invocation.ofArguments? args with
  | none => return ⟨Outcome.usageCode, greeting, [.error "Cannot understand the arguments"]⟩
  | some i =>
    let outcome ← runInvocation i
    return { outcome with out := greeting ++ outcome.out }

end CommandLine

end FlashImage
