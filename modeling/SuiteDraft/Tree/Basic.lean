import SuiteDraft.Tree.Kind

/-!
The tree of a component's source. A node holds its kind, the field that it fills in its parent, the
place where it starts and its text, so that whatever is asked of a tree needs no source beside it.
-/

namespace SuiteDraft

/-- A line and a column of a source, both counted from zero; the column counts bytes. -/
structure Position where
  row : Nat
  column : Nat
  deriving DecidableEq, Inhabited

/-- What a node says about itself. -/
structure Label where
  kind : Kind
  field : Option Field := none
  named : Bool := true
  missing : Bool := false
  start : Position := ⟨0, 0⟩
  text : String := ""
  deriving DecidableEq

/-- A node with its children. -/
inductive Tree where
  | node (label : Label) (children : List Tree)

instance : Inhabited Tree := ⟨.node { kind := .program } []⟩

namespace Tree

def label : Tree → Label
  | node l _ => l

def children : Tree → List Tree
  | node _ cs => cs

def kind (t : Tree) : Kind := t.label.kind

def text (t : Tree) : String := t.label.text

def named (t : Tree) : Bool := t.label.named

def inField (t : Tree) (f : Field) : Tree :=
  match t with
  | node l cs => node { l with field := some f } cs

def child? (t : Tree) (f : Field) : Option Tree :=
  t.children.find? fun c => c.label.field == some f

-- The text of the child that fills a field; empty when there is none.
def childText (t : Tree) (f : Field) : String :=
  match t.child? f with
  | some c => c.text
  | none => ""

def namedChildren (t : Tree) : List Tree := t.children.filter (·.named)

def isMeaningful (t : Tree) : Bool := t.named && t.kind != .comment

def meaningful (t : Tree) : List Tree := t.children.filter (·.isMeaningful)

mutual

def size : Tree → Nat
  | node _ cs => sizes cs + 1

def sizes : List Tree → Nat
  | [] => 0
  | c :: cs => size c + sizes cs

end

theorem size_eq (t : Tree) : t.size = sizes t.children + 1 := by
  cases t with
  | node l cs => rw [size, children]

theorem sizes_append (a b : List Tree) : sizes (a ++ b) = sizes a + sizes b := by
  induction a with
  | nil => rw [List.nil_append, sizes, Nat.zero_add]
  | cons c cs ih => rw [List.cons_append, sizes, sizes, ih, Nat.add_assoc]

theorem sizes_filter_le (p : Tree → Bool) (cs : List Tree) : sizes (cs.filter p) ≤ sizes cs := by
  induction cs with
  | nil => exact Nat.le_refl _
  | cons c cs ih =>
    rw [List.filter_cons, sizes]
    split
    · rw [sizes]; omega
    · omega

end Tree

end SuiteDraft
