import ExecCounts.Deflate.Stream

set_option autoImplicit false

namespace ExecCounts.Deflate

def maxCodeLength : Nat := 15

/-- A canonical Huffman code: code words of one length are consecutive numbers in the order of their
symbols, and the words of each length follow those of the length before. -/
structure Code where
  counts : List Nat
  symbols : Array Nat
deriving Repr

namespace Code

def symbolsOfLength (lengths : List Nat) (length : Nat) : List Nat :=
  lengths.zipIdx.filterMap fun (l, symbol) => if l = length then some symbol else none

def ofLengths (lengths : List Nat) : Code :=
  let byLength := (List.range' 1 maxCodeLength).map (symbolsOfLength lengths)
  ⟨byLength.map List.length, byLength.flatten.toArray⟩

/-- How many words of the greatest length the code words leave no room for. -/
def filled (code : Code) : Nat :=
  (code.counts.zipIdx.map fun (count, i) => count <<< (maxCodeLength - 1 - i)).foldl (· + ·) 0

def isComplete (code : Code) : Bool := code.filled == 1 <<< maxCodeLength

/-- Whether the code is complete, or has one code word at most and no word of more than a single
bit. -/
def isUsable (code : Code) : Bool :=
  code.isComplete || (code.symbols.size ≤ 1 && code.counts.head? == some code.symbols.size)

/-- Goes through the lengths from the shortest on: `word` holds the bits read so far, `first` the
first word of the next length, and `index` how many symbols have shorter words. Bits that are no
code word are an error as soon as no longer words are left. -/
def walk (symbols : Array Nat) : List Nat → Nat → Nat → Nat → Unpack Nat
  | [], _, _, _ => throw .corrupt
  | count :: longer, word, first, index => do
      let word := 2 * word + (← Unpack.bit)
      let after := first + count
      if word < after then return symbols.getD (index + (word - first)) 0
      else if index + count < symbols.size then walk symbols longer word (2 * after) (index + count)
      else throw .corrupt

def next (code : Code) : Unpack Nat := walk code.symbols code.counts 0 0 0

end Code

end ExecCounts.Deflate
