/-! # Trees that source texts are read into

A node covers a range of characters and knows nothing of the text itself, so what a node says is
always a contiguous part of the source. -/

namespace DocTransfer.Source

/-- The part that a node plays for its parent. -/
inductive Label where
  | name
  | body
  | type
  | parameters
  | declarator
  | declaration
  deriving DecidableEq, Repr

/-- A node covers the characters from `start` up to, and not including, `stop`. -/
inductive SourceTree (κ : Type) where
  | node (kind : κ) (label : Option Label) (start stop : Nat) (children : List (SourceTree κ))

namespace SourceTree

variable {κ : Type}

/-- What a node is. -/
def kind : SourceTree κ → κ
  | .node k _ _ _ _ => k

/-- The part that a node plays. -/
def label : SourceTree κ → Option Label
  | .node _ l _ _ _ => l

/-- The place of the first character. -/
def start : SourceTree κ → Nat
  | .node _ _ a _ _ => a

/-- The place after the last character. -/
def stop : SourceTree κ → Nat
  | .node _ _ _ b _ => b

/-- The nodes directly inside, in the order of the text. -/
def children : SourceTree κ → List (SourceTree κ)
  | .node _ _ _ _ cs => cs

/-- The same node in another part. -/
def relabel (l : Label) : SourceTree κ → SourceTree κ
  | .node k _ a b cs => .node k (some l) a b cs

/-- The characters that a node covers. -/
def text (source : List Char) (t : SourceTree κ) : List Char :=
  (source.drop t.start).take (t.stop - t.start)

/-- The first child that plays a part. -/
def part? (l : Label) (t : SourceTree κ) : Option (SourceTree κ) :=
  t.children.find? (·.label == some l)

/-- The first child of a kind. -/
def childWhere? (p : κ → Bool) (t : SourceTree κ) : Option (SourceTree κ) :=
  t.children.find? fun c => p c.kind

mutual

/-- A node and everything inside it, each node before its children. -/
def preorder : SourceTree κ → List (SourceTree κ)
  | .node k l a b cs => .node k l a b cs :: preorderAll cs

/-- Everything in a row of nodes, each node before its children. -/
def preorderAll : List (SourceTree κ) → List (SourceTree κ)
  | [] => []
  | c :: cs => preorder c ++ preorderAll cs

end

/-- Everything inside a node, without the node. -/
def descendants (t : SourceTree κ) : List (SourceTree κ) :=
  preorderAll t.children

/-- The nodes of a kind inside a node. -/
def descendantsWhere (p : κ → Bool) (t : SourceTree κ) : List (SourceTree κ) :=
  t.descendants.filter fun d => p d.kind

mutual

/-- The first node that `isWanted` picks among those beside and after a node that `isSign` picks,
anywhere inside a node. The first sign decides: nothing may come after it. -/
def afterSign? (isSign isWanted : κ → Bool) : SourceTree κ → Option (Option (SourceTree κ))
  | .node _ _ _ _ cs => afterSignIn? isSign isWanted cs

/-- The same as `afterSign?`, for a row of nodes. -/
def afterSignIn? (isSign isWanted : κ → Bool) :
    List (SourceTree κ) → Option (Option (SourceTree κ))
  | [] => none
  | c :: cs =>
    if isSign c.kind then some (cs.find? fun d => isWanted d.kind)
    else (afterSign? isSign isWanted c).or (afterSignIn? isSign isWanted cs)

end

end SourceTree

end DocTransfer.Source
