import RequestLine.Text.Basic

/-!
# UTF-8

* `Utf8.encode?`: the bytes of a text, refused when it holds a surrogate.
* `Utf8.decode?`: the text of bytes, refused unless they are well formed: no overlong form, no
  surrogate, nothing past U+10FFFF, no byte missing or left over.
-/

namespace RequestLine.Utf8

/-- The bytes of a code point. -/
def encodePoint (c : CodePoint) : List UInt8 :=
  let n := c.val
  if n < 0x80 then [UInt8.ofNat n]
  else if n < 0x800 then [UInt8.ofNat (0xC0 + n / 64), UInt8.ofNat (0x80 + n % 64)]
  else if n < 0x10000 then
    [UInt8.ofNat (0xE0 + n / 4096), UInt8.ofNat (0x80 + n / 64 % 64), UInt8.ofNat (0x80 + n % 64)]
  else
    [UInt8.ofNat (0xF0 + n / 262144), UInt8.ofNat (0x80 + n / 4096 % 64),
      UInt8.ofNat (0x80 + n / 64 % 64), UInt8.ofNat (0x80 + n % 64)]

/-- The bytes of a text without surrogates. -/
def encode? (t : Text) : Option (List UInt8) :=
  if t.hasSurrogate then none else some (t.flatMap encodePoint)

/-- The six bits that a continuation byte carries. -/
def tail? (b : UInt8) : Option Nat :=
  if 0x80 ≤ b.toNat ∧ b.toNat ≤ 0xBF then some (b.toNat - 0x80) else none

/-- The code point with number `n`, if `n` needs at least the form that wrote it (`least` is the
smallest number of that form) and is a Unicode scalar value. -/
def scalar? (least n : Nat) : Option CodePoint :=
  if h : n < 0x110000 then
    if least ≤ n ∧ ¬(0xD800 ≤ n ∧ n ≤ 0xDFFF) then some ⟨n, h⟩ else none
  else none

/-- The code point that starts the bytes, and the bytes after it. -/
def decodePoint? : List UInt8 → Option (CodePoint × List UInt8)
  | [] => none
  | b :: r =>
    if b.toNat < 0x80 then (scalar? 0 b.toNat).map (·, r)
    else if 0xC0 ≤ b.toNat ∧ b.toNat < 0xE0 then
      match r with
      | b₁ :: s =>
        match tail? b₁ with
        | some t₁ => (scalar? 0x80 ((b.toNat - 0xC0) * 64 + t₁)).map (·, s)
        | none => none
      | [] => none
    else if 0xE0 ≤ b.toNat ∧ b.toNat < 0xF0 then
      match r with
      | b₁ :: b₂ :: s =>
        match tail? b₁, tail? b₂ with
        | some t₁, some t₂ =>
          (scalar? 0x800 ((b.toNat - 0xE0) * 4096 + t₁ * 64 + t₂)).map (·, s)
        | _, _ => none
      | _ => none
    else if 0xF0 ≤ b.toNat ∧ b.toNat < 0xF8 then
      match r with
      | b₁ :: b₂ :: b₃ :: s =>
        match tail? b₁, tail? b₂, tail? b₃ with
        | some t₁, some t₂, some t₃ =>
          (scalar? 0x10000 ((b.toNat - 0xF0) * 262144 + t₁ * 4096 + t₂ * 64 + t₃)).map (·, s)
        | _, _, _ => none
      | _ => none
    else none

/-- Decodes with at most `fuel` code points. -/
def decodeWithin : Nat → List UInt8 → Option Text
  | _, [] => some []
  | 0, _ :: _ => none
  | fuel + 1, b :: r =>
    match decodePoint? (b :: r) with
    | some (c, s) => (decodeWithin fuel s).map (c :: ·)
    | none => none

/-- The text of well-formed bytes. Every code point takes a byte, so there are no more code points
than bytes. -/
def decode? (bytes : List UInt8) : Option Text := decodeWithin bytes.length bytes

end RequestLine.Utf8
