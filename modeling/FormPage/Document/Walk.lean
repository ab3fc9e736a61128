import FormPage.Document.Basic

/-!
Walks along the links of a document. A walk lists the nodes that it meets, so that a search is a
search in a list; it is cut off only where the links run in a circle. `descendants` follows first
children and next siblings with a stack; `preorder` is the same order by recursion on the lists of
children, and `fold` builds any value bottom-up in that shape.
-/

namespace FormPage.Document

/-- The nodes met from `start` on by following `next`, at most `limit` of them. -/
def follow (next : NodeId → Option NodeId) : Nat → Option NodeId → List NodeId
  | 0, _ => []
  | _ + 1, none => []
  | limit + 1, some n => n :: follow next limit (next n)

/-- The nodes met from `start` on by following `next` until there is none. -/
def path (d : Document) (next : NodeId → Option NodeId) (start : Option NodeId) : List NodeId :=
  follow next (d.size + 1) start

/-- A node and all above it, nearest first. -/
def inclusiveAncestors (d : Document) (n : NodeId) : List NodeId := d.path d.parent? (some n)

/-- All above a node, nearest first. -/
def ancestors (d : Document) (n : NodeId) : List NodeId := d.path d.parent? (d.parent? n)

/-- A node and its positioned ancestors, nearest first, by the stored links. -/
def offsetLinks (d : Document) (n : NodeId) : List NodeId := d.path d.offsetLink? (some n)

/-- A node and its positioned ancestors, nearest first, as far as the layout reports them. -/
def offsetChain (d : Document) (n : NodeId) : List NodeId := d.path d.offsetParent? (some n)

/-- The entry after the first `n` of a list. -/
def following (n : NodeId) : List NodeId → Option NodeId
  | a :: b :: rest => if a = n then some b else following n (b :: rest)
  | _ => none

/-- The entry before the first `n` of a list. -/
def preceding (n : NodeId) : List NodeId → Option NodeId
  | a :: b :: rest =>
    if a = n then none else if b = n then some a else preceding n (b :: rest)
  | _ => none

/-- The next child of the parent. -/
def nextSibling? (d : Document) (n : NodeId) : Option NodeId :=
  (d.parent? n).bind fun p => following n (d.children p)

/-- The previous child of the parent. -/
def previousSibling? (d : Document) (n : NodeId) : Option NodeId :=
  (d.parent? n).bind fun p => preceding n (d.children p)

/-- Goes down to first children, and on to next siblings where there is none; `stack` holds the
nodes whose next siblings are still to come. -/
def descendFrom (d : Document) : Nat → Option NodeId → List NodeId → List NodeId
  | 0, _, _ => []
  | limit + 1, some n, stack => n :: descendFrom d limit (d.firstChild? n) (n :: stack)
  | limit + 1, none, n :: stack => descendFrom d limit (d.nextSibling? n) stack
  | _ + 1, none, [] => []

/-- All below a node, parents before children and siblings in order. Every node is entered once and
left once, which bounds the walk. -/
def descendants (d : Document) (n : NodeId) : List NodeId :=
  descendFrom d (2 * d.size + 1) (d.firstChild? n) []

/-- Builds a value for a node from the values of its children, down to the depth `limit`. -/
def foldFrom {α : Type} (d : Document) (step : NodeId → Node → List α → α) (missing : α) :
    Nat → NodeId → α
  | 0, _ => missing
  | limit + 1, n =>
    match d.node? n with
    | none => missing
    | some node => step n node (node.children.map (foldFrom d step missing limit))

/-- Builds a value for a node from the values of its children; `missing` stands for an index that
names no node. -/
def fold {α : Type} (d : Document) (step : NodeId → Node → List α → α) (missing : α)
    (n : NodeId) : α :=
  foldFrom d step missing (d.size + 1) n

/-- A node and all below it, parents before children and siblings in order. -/
def preorder (d : Document) (n : NodeId) : List NodeId :=
  d.fold (fun n _ below => n :: below.flatten) [] n

/-- The text shown by a node: its own if it is text, else that of its children, joined. -/
def textContent (d : Document) (n : NodeId) : String :=
  String.ofList (d.fold
    (fun _ node below => if node.tag = .text then node.text.toList else below.flatten) [] n)

/-- The first attached node with an id. -/
def elementById? (d : Document) (id : String) : Option NodeId :=
  (d.descendants root).find? fun n => d.attribute? n "id" = some id

end FormPage.Document
