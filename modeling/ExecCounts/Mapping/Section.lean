import ExecCounts.Bytes

/-!
What the reader and the writer of coverage mapping sections share.

    magic, version, number of records, size of the file names: four bytes each
    file names       number of names, then the names or a chunk that holds them; padding
    records          name, hash, size of the data, data; padding in newer versions

The data of a record holds the file names it uses, the expression table and the regions. A region
starts with a number that refers to its counter; numbers that refer to no counter tell a kind of
region instead.
-/

set_option autoImplicit false

namespace ExecCounts.Section

def magic : ByteOrder → Bytes
  | .little => [0x43, 0x4F, 0x56, 0x4D]
  | .big => [0x4D, 0x56, 0x4F, 0x43]

def skippedKind : Nat := 2

def branchKind : Nat := 4

def gapColumn : Nat := 0x80000000

end ExecCounts.Section
