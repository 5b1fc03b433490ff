/-! # Glob patterns

A question mark stands for one character, a star for any text, a bracket for one character of a
set, and a double star, which has to be a whole component, for any number of leading components.
Slashes are not special to the other signs. -/

namespace DocTransfer.Glob

/-- What a bracket lists: a character or a range of them. -/
structure Range where
  first : Char
  last : Char
  deriving DecidableEq, Repr

/-- A sign of a pattern. -/
inductive Sign where
  | char (c : Char)
  | any
  | star
  | doubleStar
  | oneOf (ranges : List Range)
  | noneOf (ranges : List Range)
  deriving DecidableEq, Repr

/-- What is wrong with a pattern. -/
inductive Fault where
  | wildcards
  | recursive
  | range
  deriving DecidableEq, Repr

/-- The wording of a fault. -/
def Fault.message : Fault → String
  | .wildcards => "wildcards are either regular `*` or recursive `**`"
  | .recursive => "recursive wildcards must form a single path component"
  | .range => "invalid range pattern"

/-- A fault and the number of characters before it. -/
structure PatternError where
  position : Nat
  fault : Fault
  deriving DecidableEq, Repr

/-- The wording of an error. -/
def PatternError.message (e : PatternError) : String :=
  "Pattern syntax error near position " ++ toString e.position ++ ": " ++ e.fault.message

/-- The ranges that the text of a bracket lists. -/
def ranges : List Char → List Range
  | a :: '-' :: b :: rest => ⟨a, b⟩ :: ranges rest
  | a :: rest => ⟨a, a⟩ :: ranges rest
  | [] => []

/-- The text of a bracket, which holds at least one character, and what follows the bracket. -/
def bracket? : List Char → Option (List Char × List Char)
  | [] => none
  | c :: rest =>
    match rest.dropWhile (· != ']') with
    | [] => none
    | _ :: after => some (c :: rest.takeWhile (· != ']'), after)

/-- The sign of a bracket whose opening has been read, and what follows it. -/
def bracketSign? : List Char → Option (Sign × List Char)
  | '!' :: rest => (bracket? rest).map fun (text, after) => (.noneOf (ranges text), after)
  | rest => (bracket? rest).map fun (text, after) => (.oneOf (ranges text), after)

/-- The signs of a pattern. `position` counts the characters before the rest, `opens` says whether
the rest begins a component. -/
def signs : Nat → Nat → Bool → List Char → Except PatternError (List Sign)
  | 0, _, _, _ => .ok []
  | _, _, _, [] => .ok []
  | fuel + 1, position, _, '?' :: rest => do
    return .any :: (← signs fuel (position + 1) false rest)
  | fuel + 1, position, opens, '*' :: rest =>
    let more := (rest.takeWhile (· == '*')).length
    let after := rest.drop more
    if more = 0 then do return .star :: (← signs fuel (position + 1) false after)
    else if 1 < more then .error ⟨position + 2, .wildcards⟩
    else if !opens then .error ⟨position - 1, .recursive⟩
    else match after with
      | [] => .ok [.doubleStar]
      | '/' :: after => do return .doubleStar :: (← signs fuel (position + 3) true after)
      | _ => .error ⟨position + 2, .recursive⟩
  | fuel + 1, position, _, '[' :: rest =>
    match bracketSign? rest with
    | none => .error ⟨position, .range⟩
    | some (sign, after) => do
      return sign :: (← signs fuel (position + 1 + (rest.length - after.length)) false after)
  | fuel + 1, position, _, c :: rest => do
    return .char c :: (← signs fuel (position + 1) (c == '/') rest)

/-- The signs of a pattern. -/
def parse (pattern : String) : Except PatternError (List Sign) :=
  signs pattern.length 0 true pattern.toList

/-- Whether some range holds a character. -/
def inRange (c : Char) (rs : List Range) : Bool :=
  rs.any fun r => r.first ≤ c && c ≤ r.last

/-- Whether signs match some end of a text. -/
def matchesEnd (rest : List Char → Bool) : List Char → Bool
  | [] => rest []
  | c :: cs => rest (c :: cs) || matchesEnd rest cs

/-- Whether signs match a text after any number of its leading components; all of the text may be
such components too. -/
def matchesAfterComponents (rest : List Char → Bool) : List Char → Bool
  | [] => rest []
  | c :: cs => (c == '/' && rest cs) || matchesAfterComponents rest cs

/-- Whether signs match a whole text. -/
def isMatch : List Sign → List Char → Bool
  | [], cs => cs.isEmpty
  | .star :: ss, cs => matchesEnd (isMatch ss) cs
  | .doubleStar :: ss, cs => isMatch ss cs || matchesAfterComponents (isMatch ss) cs
  | _ :: _, [] => false
  | .char d :: ss, c :: cs => c == d && isMatch ss cs
  | .any :: ss, _ :: cs => isMatch ss cs
  | .oneOf rs :: ss, c :: cs => inRange c rs && isMatch ss cs
  | .noneOf rs :: ss, c :: cs => !inRange c rs && isMatch ss cs

end DocTransfer.Glob
