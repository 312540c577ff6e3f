import RequestLine.Text.Basic

/-!
# Control sequences

A terminal takes the escape character, an opening bracket, parameters and a letter as a command to
it: to change the colour, to move the cursor.

* `Text.plain`: the text without control sequences.
-/

namespace RequestLine

/-- The escape character. -/
def CodePoint.isEscape (c : CodePoint) : Bool := c.val == 0x1B

/-- Whether the code point is a parameter of a control sequence, or stands between two of them. -/
def CodePoint.isControlParameter (c : CodePoint) : Bool :=
  c.isDigit || c.val == 0x3B || c.val == 0x3F

namespace Text

/-- The length of the control sequence whose escape character stands before the text. -/
def controlLength? : Text → Option Nat
  | [] => none
  | c :: r =>
    if c = '[' then
      let parameters := r.takeWhile CodePoint.isControlParameter
      match r.drop parameters.length with
      | d :: _ => if d.isLetter then some (parameters.length + 2) else none
      | [] => none
    else none

/-- The text after its first `skipped` code points, without control sequences. -/
def plainFrom : Nat → Text → Text
  | _, [] => []
  | skipped + 1, _ :: r => plainFrom skipped r
  | 0, c :: r =>
    if c.isEscape then
      match controlLength? r with
      | some length => plainFrom length r
      | none => c :: plainFrom 0 r
    else c :: plainFrom 0 r

/-- The text without control sequences. What is left around one may look like another one, and
stays. -/
def plain (t : Text) : Text := plainFrom 0 t

theorem plainFrom_of_not_escape {t : Text} (h : ∀ c ∈ t, c.isEscape = false) :
    plainFrom 0 t = t := by
  induction t with
  | nil => rfl
  | cons c r ih =>
    have hc : c.isEscape = false := h c (List.mem_cons_self ..)
    have hr := ih fun d hd => h d (List.mem_cons_of_mem c hd)
    simp [plainFrom, hc, hr]

/-- Only a text with an escape character holds control sequences. -/
theorem plain_of_not_escape {t : Text} (h : ∀ c ∈ t, c.isEscape = false) : t.plain = t :=
  plainFrom_of_not_escape h

end Text

end RequestLine
