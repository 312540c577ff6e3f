import RequestLine.Text.Basic

/-!
# Similar texts

Suggestions for a mistyped word. Two texts are as similar as the code points that match in both:
those of the longest stretch that both hold, and of the stretches before and after it in turn.

* `matchCount`: the number of code points that match.
* `closeMatches`: the words, three at most, of which at least six tenths match.
-/

namespace RequestLine.Similarity

/-- The length of the longest common start of two texts. -/
def commonStart : Text → Text → Nat
  | c :: r, d :: s => if c = d then commonStart r s + 1 else 0
  | _, _ => 0

/-- A stretch of `length` code points at one place of each of two texts. -/
structure Stretch where
  left : Nat
  right : Nat
  length : Nat

/-- The longest stretch that two texts share; of equals the first in the left text, then the first
in the right one. -/
def longest (a b : Text) : Stretch :=
  (List.range a.length).foldl (fun best i =>
    (List.range b.length).foldl (fun best j =>
      let n := commonStart (a.drop i) (b.drop j)
      if best.length < n then ⟨i, j, n⟩ else best) best) ⟨0, 0, 0⟩

/-- Counts with at most `depth` stretches inside each other. -/
def countWithin : Nat → Text → Text → Nat
  | 0, _, _ => 0
  | depth + 1, a, b =>
    let s := longest a b
    if s.length = 0 then 0
    else
      countWithin depth (a.take s.left) (b.take s.right) + s.length +
        countWithin depth (a.drop (s.left + s.length)) (b.drop (s.right + s.length))

/-- The number of code points that match. -/
def matchCount (a b : Text) : Nat := countWithin (a.length + 1) a b

/-- Whether at least six tenths of two texts match. -/
def isClose (a b : Text) : Bool := 6 * (a.length + b.length) ≤ 20 * matchCount a b

/-- Whether `a` matches `word` better than `b` does; the greater text wins a tie. -/
def isBetter (word a b : Text) : Bool :=
  let scoreA := matchCount a word * (b.length + word.length)
  let scoreB := matchCount b word * (a.length + word.length)
  scoreB < scoreA || (scoreA == scoreB && b.before a)

/-- Inserts a text before the first that it precedes. -/
def insertBy (precedes : Text → Text → Bool) (t : Text) : List Text → List Text
  | [] => [t]
  | x :: r => if precedes t x then t :: x :: r else x :: insertBy precedes t r

/-- The texts in an order. -/
def sortBy (precedes : Text → Text → Bool) (ts : List Text) : List Text :=
  ts.foldr (insertBy precedes) []

/-- The words most similar to a text, in code point order. -/
def closeMatches (word : Text) (words : List Text) : List Text :=
  let best := (sortBy (isBetter word) (words.filter (isClose · word))).take 3
  sortBy Text.before best

end RequestLine.Similarity
