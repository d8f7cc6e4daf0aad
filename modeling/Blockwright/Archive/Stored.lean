import Blockwright.Archive

/-!
# Archives as bytes

An archive is written in the ZIP format with its entries stored as they are: every entry after a
header of its own, then a directory of all entries, then a record that tells where the directory
is. All entries carry the same date, so equal archives have equal bytes.
-/

namespace Blockwright.Archive

/-- A number in `width` bytes, the lowest first. -/
def littleEndian : (width : Nat) → Nat → List UInt8
  | 0, _ => []
  | width + 1, n => UInt8.ofNat n :: littleEndian width (n / 256)

/-- One bit of the cyclic redundancy check. -/
def checksumBit (c : UInt32) : UInt32 :=
  if c &&& 1 = 1 then (c >>> 1) ^^^ 0xEDB88320 else c >>> 1

/-- One byte of the cyclic redundancy check. -/
def checksumByte (c : UInt32) (b : UInt8) : UInt32 :=
  Nat.repeat checksumBit 8 (c ^^^ b.toUInt32)

/-- The cyclic redundancy check of some bytes. -/
def checksum (content : ByteArray) : UInt32 :=
  content.foldl checksumByte 0xFFFFFFFF ^^^ 0xFFFFFFFF

/-- The first of January 1980, the earliest date of the format. -/
def date : Nat := 0x21

/-- The fields that both headers of an entry share. -/
def sharedHeader (entry : Entry) : List UInt8 :=
  let ascii := entry.path.toList.all (fun c ↦ c.toNat < 128)
  littleEndian 2 20 ++ littleEndian 2 (if ascii then 0 else 0x800) ++ littleEndian 2 0 ++
    littleEndian 2 0 ++ littleEndian 2 date ++ littleEndian 4 (checksum entry.content).toNat ++
    littleEndian 4 entry.content.size ++ littleEndian 4 entry.content.size ++
    littleEndian 2 entry.path.utf8ByteSize ++ littleEndian 2 0

/-- An entry with its header. -/
def storedEntry (entry : Entry) : ByteArray :=
  ⟨(littleEndian 4 0x04034B50 ++ sharedHeader entry).toArray⟩ ++ entry.path.toUTF8 ++
    entry.content

/-- The directory's record of an entry that starts at an offset. -/
def directoryRecord (offset : Nat) (entry : Entry) : ByteArray :=
  ⟨(littleEndian 4 0x02014B50 ++ littleEndian 2 20 ++ sharedHeader entry ++ littleEndian 2 0 ++
    littleEndian 2 0 ++ littleEndian 2 0 ++ littleEndian 4 0 ++ littleEndian 4 offset).toArray⟩ ++
    entry.path.toUTF8

/-- The stored entries and the directory of an archive. -/
def stored (entries : List Entry) : ByteArray × ByteArray :=
  entries.foldl (fun (body, directory) entry ↦
    (body ++ storedEntry entry, directory ++ directoryRecord body.size entry))
    (ByteArray.empty, ByteArray.empty)

/-- The bytes of an archive. -/
def bytes (a : Archive) : ByteArray :=
  let (body, directory) := stored a.entries
  let count := a.entries.length
  body ++ directory ++
    ⟨(littleEndian 4 0x06054B50 ++ littleEndian 2 0 ++ littleEndian 2 0 ++ littleEndian 2 count ++
      littleEndian 2 count ++ littleEndian 4 directory.size ++ littleEndian 4 body.size ++
      littleEndian 2 0).toArray⟩

end Blockwright.Archive
