import ImagePlacement.Deflate.Bits

namespace ImagePlacement.Deflate

/-- A canonical prefix code: shorter words come before longer ones, and words of one
length are consecutive numbers in the order of their symbols. -/
structure Huffman where
  /-- How many words there are of each length; index zero is length one. -/
  counts : List Nat
  /-- The symbols in the order of their words. -/
  symbols : Array Nat

namespace Huffman

/-- The longest word. -/
def longest : Nat := 15

/-- The words that stay free after all words of the lengths up to this one are taken; nothing
if there are more words than fit. -/
def free? (counts : List Nat) : Option Nat :=
  counts.foldlM (fun free n => if n ≤ 2 * free then some (2 * free - n) else none) 1

/-- The code in which each symbol has a word of the given length; zero means no word. A code
must leave no word free, but a code of one word, of length one, or of none is
allowed where `sparse` is set. -/
def ofLengths? (lengths : List Nat) (sparse : Bool) : Option Huffman :=
  let numbered := lengths.zipIdx
  let ofLength (n : Nat) := (numbered.filter fun entry => entry.1 = n).map (·.2)
  let groups := (List.range longest).map fun n => ofLength (n + 1)
  let counts := groups.map List.length
  let symbols := groups.flatten
  let few := sparse && symbols.length ≤ 1 && counts.headD 0 == symbols.length
  match free? counts with
  | some free => if free = 0 || few then some ⟨counts, symbols.toArray⟩ else none
  | none => none

/-- Reads on in a word of which `word` has been read. The words of the length now reached
start at `first` and their symbols at `index`. -/
def follow (symbols : Array Nat) (counts : List Nat) (word first index : Nat) (s : Bits) :
    Except Flaw (Nat × Bits) :=
  match counts with
  | [] => .error .broken
  | n :: counts =>
    match s.next with
    | .error flaw => .error flaw
    | .ok (bit, s) =>
      let word := 2 * word + bit
      let first := 2 * first
      if word < first + n then
        match symbols[index + (word - first)]? with
        | some symbol => .ok (symbol, s)
        | none => .error .broken
      else follow symbols counts word (first + n) (index + n) s

/-- The symbol of the word that the stream starts with. -/
def symbol (code : Huffman) (s : Bits) : Except Flaw (Nat × Bits) :=
  follow code.symbols code.counts 0 0 0 s

end Huffman

end ImagePlacement.Deflate
