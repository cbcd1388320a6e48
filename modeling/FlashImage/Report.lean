import FlashImage.Image
import FlashImage.Text.Lines

/-!
# The report on an image

A report shows the structure of an image: its pointers, its tables, its sections and its gaps. Findings
are not part of the text; they go to the log, failed checks as errors and everything else as warnings.

## Parts

* `LogLine` — a line of the log;
* the parts of the text, a list of lines each;
* `Image.reportLines` and `Image.reportLog`.
-/

namespace FlashImage

/-! ### The log -/

/-- **A line of the log.** -/
inductive LogLine where
  | error (message : String)
  | warning (message : String)

namespace LogLine

/-- A line as text, behind its level. -/
def text : LogLine → String
  | error message => s!"ERROR: {message}"
  | warning message => s!"WARN: {message}"

end LogLine

namespace Image

/-- **The log of a report**: a missing device table, and the findings in their order. -/
def reportLog [Algorithms] (i : Image) : List LogLine :=
  (if i.dtoc.isNone then [.warning "No DTOC found"] else []) ++
  i.diagnostics.map fun d => if d.isCrcError then .error d.message else .warning d.message

/-! ### The text -/

/-- The line that tells what kind of image this is. -/
def titleLine (i : Image) : String :=
  s!"{i.format.name} image, magic @ {Text.hex 8 i.base}, {Text.decimal i.data.length} bytes" ++
    (if i.encrypted then ", encrypted" else "")

/-- The pointer array, a line for each pointer. -/
def pointerLines (i : Image) : List String :=
  s!"Hardware pointers @ {Text.hex 8 i.pointersOffset}:" ::
  i.pointers.records.zipIdx.map fun (p, index) =>
    let role := match i.format.role? index with
      | some r => r.name
      | none => "-"
    s!"  {Text.columnRight 2 (Text.decimal index)} {Text.column 20 role} {p.text}"

/-- A table, a line for each entry. -/
def tableLines (t : PlacedToc) : List String :=
  let h := t.toc.header
  (s!"{t.toc.kind.name} @ {Text.hex 8 t.address}, version {Text.decimal h.version.toNat}, " ++
    s!"header {h.status.message}") ::
  t.toc.entries.map fun e => s!"  - {e.text}"

/-- The number of lines of settings that are shown. -/
def settingsShown : Nat := 8

/-- **The contents of a section**, in lines. Contents that are kept as bytes are explained, unless the
section is encrypted. -/
def detailLines [Algorithms] (s : Section) : List String :=
  match s.projection with
  | .imageInfo i => [i.text]
  | .deviceInfo i => [i.text]
  | .mfgInfo m => [m.text]
  | .resetInfo r => [r.text]
  | .toolsArea t => [t.text]
  | .imageSignature sig => [sig.text]
  | .publicKeys ks => [ks.text]
  | .forbiddenVersions f => [f.text]
  | .hashesTable t => t.entries.map fun e => s!"  {e.text}"
  | .debugIni ini => ((Text.lines ini.text).take settingsShown).map fun l => s!"  | {l}"
  | .blob b => b.vpdId.toList.map fun id => s!"  VPD ID: {id}"
  | .raw note => if s.encrypted then [] else [s!"  ({note})"]
  | .pointers _ | .toc _ | .boot2 _ | .debugParams _ => []

/-- The sections, each with its contents if they are asked for. -/
def sectionLines [Algorithms] (i : Image) (verbose : Bool) : List String :=
  "Sections:" :: i.sections.flatMap fun s =>
    s!"  {s.text}" :: (if verbose then detailLines s else [])

/-- The gaps, if there are any. -/
def gapLines (i : Image) : List String :=
  match i.gaps with
  | [] => []
  | gaps => "Gaps:" :: gaps.map (fun g => s!"  {g.text}") ++ [""]

/-- **The lines of a report.** -/
def reportLines [Algorithms] (i : Image) (verbose : Bool) : List String :=
  [i.titleLine, ""] ++ i.pointerLines ++ [""] ++ tableLines i.itoc
    ++ i.dtoc.toList.flatMap tableLines ++ [""] ++ i.sectionLines verbose ++ [""] ++ i.gapLines

/-- The text of a report. -/
def report [Algorithms] (i : Image) (verbose : Bool) : String :=
  String.join ((i.reportLines verbose).map fun l => l ++ "\n")

end Image

end FlashImage
