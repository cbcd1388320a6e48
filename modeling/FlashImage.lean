import FlashImage.Algorithms.Standard
import FlashImage.BitField
import FlashImage.Catalog
import FlashImage.Checksum.Rule
import FlashImage.Diagnostic
import FlashImage.Digest.Md5
import FlashImage.Digest.Sha256
import FlashImage.Inflate.Deflate
import FlashImage.Json.Printer
import FlashImage.Json.Reader
import FlashImage.Magic
import FlashImage.Pointer
import FlashImage.Text.Field
import FlashImage.Version
import FlashImage.Toc.Record
import FlashImage.Toc.Table
import FlashImage.Section.Error
import FlashImage.Section.ImageInfo
import FlashImage.Section.UidBlock
import FlashImage.Section.Blob
import FlashImage.Section.Boot2
import FlashImage.Section.DebugConfig
import FlashImage.Section.DeviceInfo
import FlashImage.Section.HashesTable
import FlashImage.Section.Projection
import FlashImage.Gap
import FlashImage.Image
import FlashImage.Report
import FlashImage.Extraction
import FlashImage.Repack
import FlashImage.CommandLine
import FlashImage.Main
import FlashImage.Machine.Buffer
import FlashImage.Machine.Extraction
import FlashImage.Machine.Repack
import FlashImage.Proofs.Outcome
import FlashImage.Proofs.Bytes.Parts
import FlashImage.Proofs.Image.Sections
import FlashImage.Proofs.Image.Tiling
import FlashImage.Proofs.Text.Ascii
import FlashImage.Proofs.Text.Digits
import FlashImage.Proofs.Json.RoundTrip
import FlashImage.Proofs.Json.Values
import FlashImage.Proofs.BitField
import FlashImage.Proofs.Catalog
import FlashImage.Proofs.Image.Anchors
import FlashImage.Proofs.Image.Projections
import FlashImage.Proofs.Section.JsonForm
import FlashImage.Proofs.Section.RoundTrip
import FlashImage.Proofs.Section.Status
import FlashImage.Proofs.Files
import FlashImage.Proofs.GapFile
import FlashImage.Proofs.Extraction.Names
import FlashImage.Proofs.Extraction.Contents
import FlashImage.Proofs.Json.Plain
import FlashImage.Proofs.Metadata.JsonForm
import FlashImage.Proofs.Metadata.OfImage
import FlashImage.Proofs.Repack.Pieces
import FlashImage.Proofs.Repack.Assembly
import FlashImage.Proofs.Repack.Identity
import FlashImage.Proofs.Repack.Trailer
import FlashImage.Proofs.Image.Structure
import FlashImage.Proofs.Image.Checks
import FlashImage.Proofs.Image.Overlaps
import FlashImage.Proofs.Image.Inventory
import FlashImage.Proofs.Repack.Edits
import FlashImage.Proofs.Toc.RoundTrip
import FlashImage.Proofs.Image.Reading
import FlashImage.Proofs.Image.Relocation
import FlashImage.Proofs.Checksum.Linear
import FlashImage.Proofs.Checksum.Serial
import FlashImage.Proofs.Checksum.Burst
import FlashImage.Proofs.Checksum.Coverage
import FlashImage.Proofs.Image.SelfDescription
import FlashImage.Proofs.Extraction.Layout
import FlashImage.Proofs.Repack.Order
import FlashImage.Proofs.Machine.Extraction
import FlashImage.Proofs.Machine.Repack
import FlashImage.Proofs.Bytes.Rows
import FlashImage.Proofs.Section.Dispatch
import FlashImage.Proofs.Section.WellFormed
import FlashImage.Proofs.Section.DeviceRecord
import FlashImage.Proofs.Image.PointedTo
import FlashImage.Proofs.BitField.Positions
import FlashImage.Proofs.Section.Formats
import FlashImage.Proofs.Section.Layouts
import FlashImage.Proofs.Toc.Findings
import FlashImage.Proofs.Toc.Views
import FlashImage.Proofs.Toc.Edits
import FlashImage.Proofs.Section.Digests
import FlashImage.Proofs.GapFile.Grammar
import FlashImage.Proofs.Text.FieldForms
import FlashImage.Proofs.Bytes.Memory
import FlashImage.Proofs.Bytes.Dwords
