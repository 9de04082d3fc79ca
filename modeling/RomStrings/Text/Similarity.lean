/-!
Similarity of short texts: the longest block that two texts share, then the same again to the left
and to the right of it. Two texts are close if the blocks make up enough of both.
-/

namespace RomStrings.Text

/-- The number of characters that two texts start with alike. -/
def sharedStart : List Char → List Char → Nat
  | a :: as, b :: bs => if a = b then sharedStart as bs + 1 else 0
  | _, _ => 0

/-- A block that two texts share: where it starts in each, and its length. -/
structure SharedBlock where
  left : Nat
  right : Nat
  size : Nat
  deriving DecidableEq, Repr

def SharedBlock.longer (a b : SharedBlock) : SharedBlock :=
  if a.size < b.size then b else a

/-- The longest block that two texts share, the one that comes first in the first text, then in the
second.
-/
def longestShared (a b : List Char) : SharedBlock :=
  let pairs :=
    (List.range a.length).flatMap fun i => (List.range b.length).map fun j => (i, j)
  pairs.foldl
    (fun best (i, j) => best.longer ⟨i, j, sharedStart (a.drop i) (b.drop j)⟩) ⟨0, 0, 0⟩

/-- The number of characters in shared blocks. The bound only has to reach the first length. -/
def sharedCount : Nat → List Char → List Char → Nat
  | 0, _, _ => 0
  | bound + 1, a, b =>
      let block := longestShared a b
      if block.size = 0 then 0
      else
        sharedCount bound (a.take block.left) (b.take block.right) + block.size
          + sharedCount bound (a.drop (block.left + block.size))
            (b.drop (block.right + block.size))

/-- A text that is compared with a word: twice the shared characters, and the length of both. -/
structure Likeness where
  text : String
  shared : Nat
  total : Nat
  deriving DecidableEq, Repr

def likeness (word text : String) : Likeness :=
  { text
    shared := 2 * sharedCount text.length text.toList word.toList
    total := text.length + word.length }

/-- At least six tenths of both texts are shared. -/
def Likeness.isClose (l : Likeness) : Bool :=
  6 * l.total ≤ 10 * l.shared

/-- Texts of these lengths can be close: they would be if all of the shorter one were shared. -/
def lengthsAllow (word text : String) : Bool :=
  6 * (text.length + word.length) ≤ 10 * (2 * min text.length word.length)

/-- The first is at least as like the word as the second, and its text is not the lesser if they
are as like.
-/
def Likeness.before (a b : Likeness) : Bool :=
  b.shared * a.total < a.shared * b.total
    || (b.shared * a.total = a.shared * b.total && b.text ≤ a.text)

/-- The texts most like a word, no more than three, in alphabetical order. -/
def closest (word : String) (texts : List String) : List String :=
  let close :=
    ((texts.filter (lengthsAllow word)).map (likeness word)).filter Likeness.isClose
  (((close.mergeSort Likeness.before).take 3).map Likeness.text).mergeSort fun a b => a ≤ b

end RomStrings.Text
