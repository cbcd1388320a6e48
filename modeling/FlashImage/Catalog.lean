import FlashImage.Checksum.Rule

/-!
# The catalog of section types

Every section has a type code, and the catalog says for each known code how the section is called, how
it is checked, and which projection its contents have (`Family`). Codes below `0x100` stand in table
entries; codes from `0x100` on name the structures that are found through the hardware pointers.
-/

namespace FlashImage

/-- **The kind of contents** a section has. -/
inductive Family where
  | generic
  | pointers
  | toc
  | imageInfo
  | deviceInfo
  | mfgInfo
  | boot2
  | hashesTable
  | resetInfo
  /-- A signature of a number of bytes. -/
  | imageSignature (length : UInt64)
  /-- Keys of a number of bytes. -/
  | publicKeys (length : UInt64)
  | forbiddenVersions
  | debugIni
  | debugParams
  | blob
  | vpd
  | toolsArea
  deriving DecidableEq

/-- The name of a kind of contents. -/
def Family.name : Family → String
  | generic => "Generic"
  | pointers => "HwPointers"
  | toc => "Toc"
  | imageInfo => "ImageInfo"
  | deviceInfo => "DeviceInfo"
  | mfgInfo => "MfgInfo"
  | boot2 => "Boot2"
  | hashesTable => "HashesTable"
  | resetInfo => "ResetInfo"
  | imageSignature length => s!"ImageSignature({Text.decimal length.toNat})"
  | publicKeys length => s!"PublicKeys({Text.decimal length.toNat})"
  | forbiddenVersions => "ForbiddenVersions"
  | debugIni => "DbgFwIni"
  | debugParams => "DbgFwParams"
  | blob => "Blob"
  | vpd => "Vpd"
  | toolsArea => "ToolsArea"

/-- **A type code.** -/
abbrev SectionCode := UInt16

namespace SectionCode

/-- The code of the hardware pointer array. -/
def pointers : SectionCode := 0x100

/-- The code of the image table of contents. -/
def itoc : SectionCode := 0x101

/-- The code of the device table of contents. -/
def dtoc : SectionCode := 0x102

/-- The code of the second stage boot loader. -/
def boot2 : SectionCode := 0x103

/-- The code of the record for the flashing tools. -/
def toolsArea : SectionCode := 0x104

/-- The code of the table of digests. -/
def hashesTable : SectionCode := 0x105

end SectionCode

/-- **What is known about a type code.** -/
structure SectionType where
  name : String
  place : CrcPlace
  family : Family
  algorithm : CrcAlgorithm
  slot : CrcSlot
  /-- The section belongs to one device and not to the image. -/
  deviceData : Bool
  deriving DecidableEq

namespace SectionType

/-- A section of the image, checked by a software CRC in the high half of its dword. -/
def image (name : String) (place : CrcPlace) (family : Family) : SectionType :=
  ⟨name, place, family, .software, .high, false⟩

/-- A section of one device. -/
def device (name : String) (place : CrcPlace) (family : Family) : SectionType :=
  { image name place family with deviceData := true }

/-- A section type with its CRC in the low half of its dword. -/
def inLowSlot (t : SectionType) : SectionType := { t with slot := .low }

end SectionType

open SectionType in
/-- **The catalog.** -/
def catalog : List (SectionCode × SectionType) :=
  [(0x02, image "PCI_CODE" .entry .generic),
   (0x03, image "MAIN_CODE" .entry .generic),
   (0x04, image "PCIE_LINK_CODE" .entry .generic),
   (0x05, image "IRON_PREP_CODE" .entry .generic),
   (0x06, image "POST_IRON_BOOT_CODE" .entry .generic),
   (0x07, image "UPGRADE_CODE" .entry .generic),
   (0x08, image "HW_BOOT_CFG" .entry .generic),
   (0x09, image "HW_MAIN_CFG" .entry .generic),
   (0x0a, image "PHY_UC_CODE" .entry .generic),
   (0x0b, image "PHY_UC_CONSTS" .entry .generic),
   (0x0c, image "PCIE_PHY_UC_CODE" .entry .generic),
   (0x0d, image "CCIR_INFRA_CODE" .entry .generic),
   (0x0e, image "CCIR_ALGO_CODE" .entry .generic),
   (0x10, image "IMAGE_INFO" .entry .imageInfo),
   (0x11, image "FW_BOOT_CFG" .entry .generic),
   (0x12, image "FW_MAIN_CFG" .entry .generic),
   (0x14, image "APU_KERNEL" .entry .generic),
   (0x15, image "ACE_CODE" .entry .generic),
   (0x18, image "ROM_CODE" .entry .generic),
   (0x20, image "RESET_INFO" .entry .resetInfo),
   (0x30, image "DBG_FW_INI" .entry .debugIni),
   (0x32, image "DBG_FW_PARAMS" .entry .debugParams),
   (0x33, image "FW_ADB" .entry .blob),
   (0xa0, image "IMAGE_SIGNATURE_256" .entry (.imageSignature 256)),
   (0xa1, image "PUBLIC_KEYS_2048" .entry (.publicKeys 256)),
   (0xa2, image "FORBIDDEN_VERSIONS" .entry .forbiddenVersions),
   (0xa3, image "IMAGE_SIGNATURE_512" .entry (.imageSignature 512)),
   (0xa4, image "PUBLIC_KEYS_4096" .entry (.publicKeys 512)),
   (0xa5, image "HMAC_DIGEST" .entry .blob),
   (0xa6, image "RSA_PUBLIC_KEY" .entry .blob),
   (0xa7, image "RSA_4096_SIGNATURES" .entry .blob),
   (0xe0, device "MFG_INFO" .trailer .mfgInfo),
   (0xe1, (device "DEV_INFO" .trailer .deviceInfo).inLowSlot),
   (0xe2, device "NV_DATA1" .none .blob),
   (0xe3, device "VPD_R0" .trailer .vpd),
   (0xe4, device "NV_DATA2" .none .blob),
   (0xe5, device "FW_NV_LOG" .none .blob),
   (0xe6, device "NV_DATA0" .none .blob),
   (0xe7, (device "DEV_INFO1" .trailer .deviceInfo).inLowSlot),
   (0xe8, (device "DEV_INFO2" .trailer .deviceInfo).inLowSlot),
   (0xe9, device "CRDUMP_MASK_DATA" .entry .blob),
   (0xea, device "FW_INTERNAL_USAGE" .entry .blob),
   (0xeb, device "PROGRAMMABLE_HW_FW1" .entry .blob),
   (0xec, device "PROGRAMMABLE_HW_FW2" .entry .blob),
   (0xed, device "DIGITAL_CERT_PTR" .none .blob),
   (0xee, device "DIGITAL_CERT_RW" .none .blob),
   (0xef, device "LC_INI1_TABLE" .entry .blob),
   (0xf0, device "LC_INI2_TABLE" .entry .blob),
   (0xf1, device "LC_INI_NV_DATA" .entry .blob),
   (0xf2, device "CERT_CHAIN_0" .entry .blob),
   (0xf3, device "DIGITAL_CACERT_RW" .entry .blob),
   (SectionCode.pointers, { image "HW_POINTERS" .none .pointers with algorithm := .hardware }),
   (SectionCode.itoc, image "ITOC" .none .toc),
   (SectionCode.dtoc, image "DTOC" .none .toc),
   (SectionCode.boot2, (image "BOOT2" .trailer .boot2).inLowSlot),
   (SectionCode.toolsArea, image "TOOLS_AREA" .none .toolsArea),
   (SectionCode.hashesTable, image "HASHES_TABLE" .trailer .hashesTable)]

namespace SectionCode

/-- What the catalog says about a code. -/
def type? (code : SectionCode) : Option SectionType := catalog.lookup code

/-- **The name of a type**; an unknown one is named by its code. -/
def name (code : SectionCode) : String :=
  match type? code with
  | some t => t.name
  | none => s!"UNKNOWN_0x{Text.hexUpper 2 code.toNat}"

end SectionCode

end FlashImage
