import FlashImage.Catalog
import FlashImage.Pointer
import FlashImage.Section.Blob
import FlashImage.Section.Boot2
import FlashImage.Section.DebugConfig
import FlashImage.Section.DeviceInfo
import FlashImage.Section.HashesTable
import FlashImage.Section.ImageInfo
import FlashImage.Section.ResetInfo
import FlashImage.Section.Security
import FlashImage.Section.ToolsArea
import FlashImage.Toc.Table

/-!
# Projections

The contents of a section are shown in the form that its kind has: as fields, as a table, or as nothing
but a note that says why they are kept as bytes. `Projection.decode` reads the form of a kind and
`Projection.encode` writes it back.

For some kinds the JSON form leaves the contents out (`Projection.keepsBytes`); a section of such a
kind is always kept as bytes as well.
-/

namespace FlashImage

/-- **The contents of a section, projected.** -/
inductive Projection where
  | pointers (p : Pointers)
  | toc (t : Toc)
  | imageInfo (i : ImageInfo)
  | deviceInfo (i : DeviceInfo)
  | mfgInfo (m : MfgInfo)
  | boot2 (b : Boot2)
  | hashesTable (t : HashesTable)
  | resetInfo (r : ResetInfo)
  | imageSignature (s : ImageSignature)
  | publicKeys (ks : PublicKeys)
  | forbiddenVersions (f : ForbiddenVersions)
  | debugIni (i : DebugIni)
  | debugParams (p : DebugParams)
  | blob (b : Blob)
  | toolsArea (t : ToolsArea)
  /-- Kept as bytes, for the reason noted. -/
  | raw (note : String)
  deriving DecidableEq

namespace Projection

/-- The name of a form. -/
def name : Projection → String
  | pointers _ => "HwPointers"
  | toc _ => "Toc"
  | imageInfo _ => "ImageInfo"
  | deviceInfo _ => "DeviceInfo"
  | mfgInfo _ => "MfgInfo"
  | boot2 _ => "Boot2"
  | hashesTable _ => "HashesTable"
  | resetInfo _ => "ResetInfo"
  | imageSignature _ => "ImageSignature"
  | publicKeys _ => "PublicKeys"
  | forbiddenVersions _ => "ForbiddenVersions"
  | debugIni _ => "DbgFwIni"
  | debugParams _ => "DbgFwParams"
  | blob _ => "Blob"
  | toolsArea _ => "ToolsArea"
  | raw _ => "Raw"

/-- **The projection of contents of a kind.** -/
def decode [Algorithms] (family : Family) (d : Bytes) : Except DecodeError Projection :=
  match family with
  | .generic => .ok (raw "opaque")
  | .pointers => ((Pointers.decode d).mapError .access).map pointers
  | .toc => ((Toc.decode d).mapError .toc).map toc
  | .imageInfo => (ImageInfo.decode d).map imageInfo
  | .deviceInfo => (DeviceInfo.decode d).map deviceInfo
  | .mfgInfo => (MfgInfo.decode d).map mfgInfo
  | .boot2 => (Boot2.decode d).map boot2
  | .hashesTable => (HashesTable.decode d).map hashesTable
  | .resetInfo => (ResetInfo.decode d).map resetInfo
  | .imageSignature length => (ImageSignature.decode length.toNat d).map imageSignature
  | .publicKeys length => (PublicKeys.decode length.toNat d).map publicKeys
  | .forbiddenVersions => (ForbiddenVersions.decode d).map forbiddenVersions
  | .debugIni => (DebugIni.decode d).map debugIni
  | .debugParams => .ok (debugParams (DebugParams.decode d))
  | .blob => .ok (blob (Blob.decode false d))
  | .vpd => .ok (blob (Blob.decode true d))
  | .toolsArea => (ToolsArea.decode d).map toolsArea

/-- **The contents that a projection stands for.** -/
def encode : Projection → Except AccessError Bytes
  | pointers p => .ok p.encode
  | toc t => .ok t.encode
  | imageInfo i => i.encode
  | deviceInfo i => i.encode
  | mfgInfo m => m.encode
  | boot2 b => .ok b.encode
  | hashesTable t => .ok t.encode
  | resetInfo r => .ok r.encode
  | imageSignature s => .ok s.encode
  | publicKeys ks => .ok ks.encode
  | forbiddenVersions f => .ok f.encode
  | debugIni i => .ok i.compressed
  | debugParams p => .ok p.stored
  | blob b => .ok b.data
  | toolsArea t => t.encode
  | raw _ => .error .rawPayload

/-- Whether the contents are shown in a form of their own. -/
def isDecoded : Projection → Bool
  | raw _ => false
  | _ => true

/-- **Whether the contents have to be kept as bytes**, since the JSON form leaves them out. -/
def keepsBytes : Projection → Bool
  | raw _ | boot2 _ | debugIni _ | debugParams _ | blob _ => true
  | _ => false

/-! ### JSON -/

def toJson (p : Projection) : Json :=
  .variant p.name (match p with
    | pointers p => p.toJson
    | toc t => t.toJson
    | imageInfo i => i.toJson
    | deviceInfo i => i.toJson
    | mfgInfo m => m.toJson
    | boot2 b => b.toJson
    | hashesTable t => t.toJson
    | resetInfo r => r.toJson
    | imageSignature s => s.toJson
    | publicKeys ks => ks.toJson
    | forbiddenVersions f => f.toJson
    | debugIni i => i.toJson
    | debugParams p => p.toJson
    | blob b => b.toJson
    | toolsArea t => t.toJson
    | raw note => .record [("note", .text note)])

def ofJson? (j : Json) : Option Projection := do
  let (name, some payload) ← j.asVariant? | none
  match name with
  | "HwPointers" => pointers <$> Pointers.ofJson? payload
  | "Toc" => toc <$> Toc.ofJson? payload
  | "ImageInfo" => imageInfo <$> ImageInfo.ofJson? payload
  | "DeviceInfo" => deviceInfo <$> DeviceInfo.ofJson? payload
  | "MfgInfo" => mfgInfo <$> MfgInfo.ofJson? payload
  | "Boot2" => boot2 <$> Boot2.ofJson? payload
  | "HashesTable" => hashesTable <$> HashesTable.ofJson? payload
  | "ResetInfo" => resetInfo <$> ResetInfo.ofJson? payload
  | "ImageSignature" => imageSignature <$> ImageSignature.ofJson? payload
  | "PublicKeys" => publicKeys <$> PublicKeys.ofJson? payload
  | "ForbiddenVersions" => forbiddenVersions <$> ForbiddenVersions.ofJson? payload
  | "DbgFwIni" => debugIni <$> DebugIni.ofJson? payload
  | "DbgFwParams" => debugParams <$> DebugParams.ofJson? payload
  | "Blob" => blob <$> Blob.ofJson? payload
  | "ToolsArea" => toolsArea <$> ToolsArea.ofJson? payload
  | "Raw" =>
    let [note] ← payload.fields? ["note"] | none
    return raw (← Json.given? Json.asText? note)
  | _ => none

end Projection

end FlashImage
