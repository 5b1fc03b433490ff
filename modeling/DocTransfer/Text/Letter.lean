import DocTransfer.Text.LetterTable

/-! # Letters, extenders and word characters -/

namespace DocTransfer.Text

/-- Whether some inclusive range of the table holds `n`. -/
def inRanges (table : List (Nat × Nat)) (n : Nat) : Bool :=
  table.any fun r => r.1 ≤ n && n ≤ r.2

/-- An ASCII letter. -/
def isAsciiLetter (c : Char) : Bool :=
  let n := c.toNat
  (0x41 ≤ n && n ≤ 0x5A) || (0x61 ≤ n && n ≤ 0x7A)

/-- A character that may open an identifier of a programming language: a Unicode letter. -/
def isLetter (c : Char) : Bool :=
  if c.toNat < 0x80 then isAsciiLetter c else inRanges letterRanges c.toNat

/-- A letter, or a character that may go on with an identifier. The low line is one of them. -/
def isLetterOrExtender (c : Char) : Bool :=
  if c.toNat < 0x80 then isAsciiLetter c || c.isDigit || c == '_'
  else inRanges letterRanges c.toNat || inRanges extenderRanges c.toNat

/-- Characters that go on with identifiers but are no word characters. -/
def nonWordRanges : List (Nat × Nat) :=
  [(0xB7, 0xB7), (0x387, 0x387), (0x1369, 0x1371), (0x19DA, 0x19DA), (0x2118, 0x2118),
   (0x212E, 0x212E), (0x30FB, 0x30FB), (0xFF65, 0xFF65)]

/-- Word characters that occur in no identifier: enclosing marks, circled letters, joiners. -/
def extraWordRanges : List (Nat × Nat) :=
  [(0x37A, 0x37A), (0x488, 0x489), (0x1ABE, 0x1ABE), (0x20DD, 0x20E0), (0x20E2, 0x20E4),
   (0x24B6, 0x24E9), (0x2E2F, 0x2E2F), (0xA670, 0xA672), (0xFC5E, 0xFC63), (0xFDFA, 0xFDFB),
   (0xFE70, 0xFE70), (0xFE72, 0xFE72), (0xFE74, 0xFE74), (0xFE76, 0xFE76), (0xFE78, 0xFE78),
   (0xFE7A, 0xFE7A), (0xFE7C, 0xFE7C), (0xFE7E, 0xFE7E), (0x1F130, 0x1F149),
   (0x1F150, 0x1F169), (0x1F170, 0x1F189)]

/-- A word character: alphabetic, a mark, a decimal digit, connector punctuation or a joiner. -/
def isWord (c : Char) : Bool :=
  if c.toNat < 0x80 then isLetterOrExtender c
  else (isLetterOrExtender c && !inRanges nonWordRanges c.toNat) ||
    inRanges extraWordRanges c.toNat

end DocTransfer.Text
