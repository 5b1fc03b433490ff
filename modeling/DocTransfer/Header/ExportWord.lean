import DocTransfer.Text.Blank
import DocTransfer.Text.Find
import DocTransfer.Text.Letter

/-! # Export words

Headers put words such as `SP_API` between `class` and the name of a type. Known words are deleted;
after that one word before a type's name, or before the access word of a base, is dropped whatever
it is. -/

namespace DocTransfer.Header

open Text

/-! ## Known words -/

/-- Whether a text opens with a word character. -/
def opensWord : List Char → Bool
  | [] => false
  | c :: _ => isWord c

/-- Whether a list of characters ends with a word character. -/
def closesWord (cs : List Char) : Bool :=
  (cs.getLast?.map isWord).getD false

/-- Whether `word` stands at the head of a text, with word boundaries at both its ends. -/
def standsAt (word : List Char) (afterWord : Bool) (cs : List Char) : Bool :=
  match after? word cs with
  | none => false
  | some rest => afterWord != opensWord cs && closesWord word != opensWord rest

/-- A text without the places where `word` stands. The number counts the characters of a place that
are still to be dropped, the flag tells whether a word character came before. -/
def eraseWordFrom (word : List Char) : Nat → Bool → List Char → List Char
  | _, _, [] => []
  | skip + 1, _, c :: cs => eraseWordFrom word skip (isWord c) cs
  | 0, afterWord, c :: cs =>
    if word ≠ [] ∧ standsAt word afterWord (c :: cs) then
      eraseWordFrom word (word.length - 1) (isWord c) cs
    else c :: eraseWordFrom word 0 (isWord c) cs

/-- A text without the places where `word` stands. -/
def eraseWord (cs word : List Char) : List Char :=
  eraseWordFrom word 0 false cs

/-! ## Any word -/

/-- What a rule makes of the head of a text, and what follows the part that it read. -/
abbrev Rule := List Char → Option (List Char × List Char)

/-- A text with a rule applied at every place, from left to right, that does not overlap an earlier
one. The number counts the characters of a place that are still to be dropped. -/
def applyRuleFrom (rule : Rule) : Nat → List Char → List Char
  | _, [] => []
  | skip + 1, _ :: cs => applyRuleFrom rule skip cs
  | 0, c :: cs =>
    match rule (c :: cs) with
    | some (new, rest) => new ++ applyRuleFrom rule (cs.length - rest.length) cs
    | none => c :: applyRuleFrom rule 0 cs

/-- A text with a rule applied wherever it fits. -/
def applyRule (rule : Rule) (cs : List Char) : List Char :=
  applyRuleFrom rule 0 cs

/-- The longest run of characters that satisfy `p`, if there is one, and the rest. -/
def run? (p : Char → Bool) (cs : List Char) : Option (List Char × List Char) :=
  match cs.takeWhile p with
  | [] => none
  | run => some (run, cs.dropWhile p)

/-- A keyword, blanks, a word, blanks and another word: the last word, and the rest. -/
def decorated? (keyword cs : List Char) : Option (List Char × List Char) := do
  let rest ← after? keyword cs
  let (_, rest) ← run? isBlank rest
  let (_, rest) ← run? isWord rest
  let (_, rest) ← run? isBlank rest
  run? isWord rest

/-- Drops the word between a keyword and a name. -/
def dropBeforeName (keyword : List Char) : Rule := fun cs => do
  let (name, rest) ← decorated? keyword cs
  return (keyword ++ ' ' :: name, rest)

/-- The words of access to a base. -/
def accessWords : List (List Char) :=
  ["public".toList, "private".toList, "protected".toList]

/-- The word of access at the head of a text, and the rest. -/
def access? (cs : List Char) : Option (List Char × List Char) :=
  accessWords.findSome? fun w => (after? w cs).map (w, ·)

/-- Blanks and then a base up to its comma: the base, and what follows the comma. Where only blanks
stand before the comma, the last of them is the base. -/
def baseToComma? (cs : List Char) : Option (List Char × List Char) := do
  let (blanks, rest) ← run? isBlank cs
  let base := rest.takeWhile fun c => c != ',' && c != '\x7b'
  match rest.dropWhile fun c => c != ',' && c != '\x7b' with
  | ',' :: after =>
    if base = [] then
      if blanks.length < 2 then none else return (blanks.drop (blanks.length - 1), after)
    else return (base, after)
  | _ => none

/-- Drops the word between `class` and the name of a type with several bases. -/
def dropBeforeBases : Rule := fun cs => do
  let (name, rest) ← decorated? "class".toList cs
  match trimStart rest with
  | ':' :: rest =>
    let (access, rest) ← access? (trimStart rest)
    let (base, rest) ← baseToComma? rest
    return ("class ".toList ++ name ++ " : ".toList ++ access ++ ' ' :: base ++ [','], rest)
  | _ => none

/-- Drops the word between a comma and the access word of the next base. -/
def dropBeforeAccess : Rule := fun cs => do
  match cs with
  | ',' :: rest =>
    let (_, rest) ← run? isWord (trimStart rest)
    let (_, rest) ← run? isBlank rest
    let (access, rest) ← access? rest
    let (_, rest) ← run? isBlank rest
    let (name, rest) ← run? isWord rest
    return (", ".toList ++ access ++ ' ' :: name, rest)
  | _ => none

/-- A header without export words. -/
def strip (words : List (List Char)) (source : List Char) : List Char :=
  let erased := words.foldl eraseWord source
  let classes := applyRule (dropBeforeName "class".toList) erased
  let structs := applyRule (dropBeforeName "struct".toList) classes
  let bases := applyRule dropBeforeBases structs
  applyRule dropBeforeAccess bases

end DocTransfer.Header
