set_option autoImplicit false

namespace ExecCounts

inductive Width where
  | four
  | eight
deriving DecidableEq, Repr

namespace Width

def size : Width → Nat
  | .four => 4
  | .eight => 8

def limit : Width → Nat
  | .four => UInt32.size - 1
  | .eight => UInt64.size - 1

end Width

inductive Version where
  | v11
  | v12
  | v13
  | v14
deriving DecidableEq, Repr

namespace Version

def all : List Version := [.v11, .v12, .v13, .v14]

def latest : Version := .v14

def tag : Version → Nat
  | .v11 => 11
  | .v12 => 12
  | .v13 => 13
  | .v14 => 14

def ofTag? (tag : Nat) : Option Version := all.find? (·.tag == tag)

def display (version : Version) : String := s!"LLVM {version.tag}"

/-- The newer of two versions, where a missing version is older than any other. -/
def newest : Option Version → Option Version → Option Version
  | none, other => other
  | some a, none => some a
  | some a, some b => if a.tag ≤ b.tag then some b else some a

end Version

inductive RawField where
  | binaryIdsSize
  | dataSize
  | paddingBytesBeforeCounters
  | countersSize
  | paddingBytesAfterCounters
  | namesSize
  | countersDelta
  | namesDelta
  | valueKindLast
deriving DecidableEq, Repr

structure RawLayout where
  header : List RawField
  -- Counter pointers count from their data record instead of naming an address.
  relativeCounters : Bool
deriving DecidableEq, Repr

namespace RawLayout

def hasBinaryIds (layout : RawLayout) : Bool := layout.header.contains .binaryIdsSize

def headerSize (layout : RawLayout) : Nat := 16 + 8 * layout.header.length

end RawLayout

inductive IndexedField where
  | hashType
  | checksum
  | hashTableOffset
  | recordsOffset
  | countersOffset
  | valueProfileOffset
  | namesOffset
deriving DecidableEq, Repr

structure IndexedLayout where
  header : List IndexedField
  offsetWidth : Width
  counterWidth : Width
deriving DecidableEq, Repr

namespace IndexedLayout

def hasChecksum (layout : IndexedLayout) : Bool := layout.header.contains .checksum

def hasValueProfiles (layout : IndexedLayout) : Bool := layout.header.contains .valueProfileOffset

def headerSize (layout : IndexedLayout) : Nat :=
  16 + layout.offsetWidth.size * layout.header.length

def chainEntrySize (layout : IndexedLayout) : Nat := 8 + layout.offsetWidth.size

def recordSize (layout : IndexedLayout) : Nat :=
  let offset := layout.offsetWidth.size
  offset + 4 + 8 + offset + 4 + if layout.hasValueProfiles then offset + 4 else 0

end IndexedLayout

structure MappingLayout where
  compressedFilenames : Bool
  branchRegions : Bool
  -- The first file name is the directory to which the others are relative.
  compilationDir : Bool
  alignedRecords : Bool
deriving DecidableEq, Repr

namespace Version

def rawLayout (version : Version) : RawLayout :=
  let fields : List RawField := [.dataSize, .paddingBytesBeforeCounters, .countersSize,
    .paddingBytesAfterCounters, .namesSize, .countersDelta, .namesDelta, .valueKindLast]
  match version with
  | .v11 => ⟨fields, false⟩
  | .v12 => ⟨fields, false⟩
  | .v13 => ⟨.binaryIdsSize :: fields, false⟩
  | .v14 => ⟨.binaryIdsSize :: fields, true⟩

def indexedLayout : Version → IndexedLayout
  | .v11 =>
      ⟨[.hashTableOffset, .recordsOffset, .countersOffset, .namesOffset], .four, .four⟩
  | .v12 =>
      ⟨[.hashType, .hashTableOffset, .recordsOffset, .countersOffset, .namesOffset,
        .valueProfileOffset], .eight, .eight⟩
  | .v13 =>
      ⟨[.hashType, .checksum, .hashTableOffset, .recordsOffset, .countersOffset,
        .valueProfileOffset, .namesOffset], .eight, .eight⟩
  | .v14 =>
      ⟨[.hashType, .hashTableOffset, .recordsOffset, .countersOffset, .valueProfileOffset,
        .namesOffset, .checksum], .eight, .eight⟩

def mappingLayout : Version → MappingLayout
  | .v11 => ⟨false, false, false, false⟩
  | .v12 => ⟨true, true, false, false⟩
  | .v13 => ⟨true, true, true, false⟩
  | .v14 => ⟨true, true, true, true⟩

end Version

end ExecCounts
