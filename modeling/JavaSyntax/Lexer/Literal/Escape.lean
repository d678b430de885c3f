import JavaSyntax.Lexer.Literal.Digits
import JavaSyntax.Text.Span

/-!
# Escapes

Strings, characters and text blocks write some characters by escapes. An escape
with `u` writes a UTF-16 unit: two that form a surrogate pair are one character,
and a surrogate without its partner becomes the replacement character.
-/

namespace JavaSyntax.Escape

/-- What one step of decoding yields. -/
inductive Piece where
  | scalar (c : Char)
  /-- A UTF-16 unit, possibly half of a surrogate pair. -/
  | unit (code : Nat)
  /-- An escaped line terminator, which stands for nothing. -/
  | nothing
deriving DecidableEq, Repr

/-- The character that stands for what is no character. -/
def replacement : Char := '\ufffd'

/-- The escapes that have a letter or stand for themselves. -/
def named? : Char → Option Char
  | 'b' => some '\x08'
  | 't' => some '\t'
  | 'n' => some '\n'
  | 'f' => some '\x0c'
  | 'r' => some '\r'
  | 's' => some ' '
  | '"' => some '"'
  | '\'' => some '\''
  | '\\' => some '\\'
  | _ => none

/-- Up to `count` more octal digits after a code, and what follows them. -/
def octal : (count : Nat) → (code : Nat) → List Char → Nat × List Char
  | 0, code, cs => (code, cs)
  | _ + 1, code, [] => (code, [])
  | count + 1, code, c :: cs =>
    match digitValue? 8 c with
    | some digit => octal count (8 * code + digit) cs
    | none => (code, c :: cs)

/-- Exactly `count` more hexadecimal digits after a code, and what follows them. -/
def hex? : (count : Nat) → (code : Nat) → List Char → Option (Nat × List Char)
  | 0, code, cs => some (code, cs)
  | _ + 1, _, [] => none
  | count + 1, code, c :: cs =>
    match digitValue? 16 c with
    | some digit => hex? count (16 * code + digit) cs
    | none => none

/-- What a backslash and the characters after it stand for, and what follows. An
octal escape has three digits if the first is at most `3`, and two otherwise. -/
def read? (inTextBlock : Bool) : List Char → Option (Piece × List Char)
  | [] => none
  | c :: rest =>
    match named? c, digitValue? 8 c with
    | some named, _ => some (.scalar named, rest)
    | none, some digit =>
      let (code, rest) := octal (if digit ≤ 3 then 2 else 1) digit rest
      some (.scalar (Char.ofNat code), rest)
    | none, none =>
      if c = 'u' then
        (hex? 4 0 (rest.dropWhile (· == 'u'))).map fun (code, rest) => (.unit code, rest)
      else if c = '\n' ∧ inTextBlock then some (.nothing, rest)
      else none

theorem length_octal_le (count code : Nat) (cs : List Char) :
    (octal count code cs).2.length ≤ cs.length := by
  fun_induction octal count code cs with
  | case1 | case2 | case4 => exact Nat.le_refl _
  | case3 _ _ _ _ _ _ ih => exact Nat.le_succ_of_le ih

theorem length_hex?_le {count code : Nat} {cs rest : List Char} {value : Nat}
    (h : hex? count code cs = some (value, rest)) : rest.length ≤ cs.length := by
  fun_induction hex? count code cs with
  | case1 =>
    cases h
    exact Nat.le_refl _
  | case2 | case4 => cases h
  | case3 _ _ _ _ _ _ ih => exact Nat.le_succ_of_le (ih h)

theorem length_dropWhile_le (p : Char → Bool) (cs : List Char) :
    (cs.dropWhile p).length ≤ cs.length :=
  (List.dropWhile_sublist p).length_le

/-- Reading an escape uses up characters. -/
theorem length_lt_of_read? {inTextBlock : Bool} {cs rest : List Char} {piece : Piece}
    (h : read? inTextBlock cs = some (piece, rest)) : rest.length < cs.length := by
  cases cs with
  | nil => simp [read?] at h
  | cons c tail =>
    simp only [read?] at h
    split at h
    · simp_all
    · rename_i digit _ _
      have := length_octal_le (if digit ≤ 3 then 2 else 1) digit tail
      simp only [Option.some.injEq, Prod.mk.injEq] at h
      simp only [← h.2, List.length_cons]
      omega
    · split at h
      · simp only [Option.map_eq_some_iff, Prod.exists, Prod.mk.injEq] at h
        obtain ⟨code, rest', hread, _, rfl⟩ := h
        have := length_hex?_le hread
        have := length_dropWhile_le (· == 'u') tail
        simp only [List.length_cons]
        omega
      · split at h <;> simp_all

def isHighSurrogate (code : Nat) : Bool := 0xd800 ≤ code && code < 0xdc00

def isLowSurrogate (code : Nat) : Bool := 0xdc00 ≤ code && code < 0xe000

/-- The character of a surrogate pair. -/
def joinSurrogates (high low : Nat) : Char :=
  Char.ofNat (0x10000 + 0x400 * (high - 0xd800) + (low - 0xdc00))

/-- What has been decoded: characters, last first, and the first half of a
surrogate pair if one waits for the second. -/
structure Decoded where
  done : List Char
  high : Option Nat
deriving DecidableEq, Repr

namespace Decoded

def empty : Decoded := ⟨[], none⟩

/-- Gives up waiting for the second half of a surrogate pair. -/
def settle (d : Decoded) : Decoded :=
  match d.high with
  | none => d
  | some _ => ⟨replacement :: d.done, none⟩

/-- Adds a UTF-16 unit that does not complete a pair. -/
def startUnit (d : Decoded) (code : Nat) : Decoded :=
  if isHighSurrogate code then ⟨d.done, some code⟩
  else if isLowSurrogate code then ⟨replacement :: d.done, none⟩
  else ⟨Char.ofNat code :: d.done, none⟩

/-- Adds what one step of decoding yields. -/
def add (d : Decoded) : Piece → Decoded
  | .scalar c => ⟨c :: d.settle.done, none⟩
  | .nothing => d.settle
  | .unit code =>
    match d.high with
    | some high =>
      if isLowSurrogate code then ⟨joinSurrogates high code :: d.done, none⟩
      else d.settle.startUnit code
    | none => d.startUnit code

/-- The decoded characters. -/
def chars (d : Decoded) : List Char := d.settle.done.reverse

end Decoded

/-- Decodes the rest of a literal's body. The error is what is left of the body,
from the backslash of a bad escape on. -/
def decodeRest (inTextBlock : Bool) (d : Decoded) (cs : List Char) :
    Except (List Char) (List Char) :=
  match cs with
  | [] => .ok d.chars
  | c :: rest =>
    if c = '\\' then
      match h : read? inTextBlock rest with
      | none => .error (c :: rest)
      | some (piece, rest') =>
        have := length_lt_of_read? h
        decodeRest inTextBlock (d.add piece) rest'
    else decodeRest inTextBlock (d.add (.scalar c)) rest
termination_by cs.length

/-- Decodes the body of a literal. The error is the byte offset of the backslash
of a bad escape. -/
def decode (inTextBlock : Bool) (body : List Char) : Except Nat (List Char) :=
  (decodeRest inTextBlock .empty body).mapError fun left => byteLength body - byteLength left

end JavaSyntax.Escape
