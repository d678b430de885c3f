import JavaSyntax.Proofs.Lexer.Slicing

/-!
# Decoders with bounds

The decoders of literals, written with the steps that can break off: wherever a text is cut at an
offset, a byte or an item is looked up at an index, or a length is taken from another one.
-/

namespace JavaSyntax

namespace Bounded

/-! ### Results -/

/-- A computation that ends with a result or a fault, or breaks off. -/
abbrev Steps (ε : Type) : Type → Type := ExceptT ε Option

section Results

variable {α β ε ε' : Type}

/-- A computation that does not break off. -/
def total (e : Except ε α) : Steps ε α := ExceptT.mk (some e)

/-- A step that can break off. -/
def step (o : Option α) : Steps ε α := ExceptT.mk (o.map .ok)

/-- Computations that do not break off do not do so one after the other. -/
theorem total_bind (e : Except ε α) (f : α → Except ε β) :
    total (e >>= f) = total e >>= fun a => total (f a) := by
  cases e <;> rfl

/-- A step that does not break off hands its result on. -/
theorem step_some_bind (a : α) (f : α → Steps ε β) : (step (some a) >>= f) = f a := rfl

/-- A result is handed on. -/
theorem total_ok_bind (a : α) (f : α → Steps ε β) : (total (.ok a) >>= f) = f a := rfl

/-- Another name for a fault does not break a computation off. -/
theorem adapt_total (f : ε → ε') (e : Except ε α) :
    ExceptT.adapt f (total e) = total (e.mapError f) := by
  cases e <;> rfl

/-- A decoder's result, where missing delimiters break the computation off. -/
def unlessCut (e : Except LiteralFault α) : Steps LiteralFault α :=
  match e with
  | .error .missingDelimiters => ExceptT.mk none
  | e => total e

/-- Where delimiters are not missing, nothing breaks off. -/
theorem unlessCut_of_ne (e : Except LiteralFault α) (h : e ≠ .error .missingDelimiters) :
    unlessCut e = total e := by
  unfold unlessCut
  split
  · exact absurd rfl h
  · rfl

/-- A computation breaks off as soon as one of its parts does. -/
theorem unlessCut_bind (e : Except LiteralFault α) (f : α → Except LiteralFault β) :
    unlessCut (e >>= f) = unlessCut e >>= fun a => unlessCut (f a) := by
  cases e with
  | ok a => rfl
  | error fault => cases fault <;> rfl

end Results

/-! ### Numbers -/

/-- Removes the underscores from the rest of a number, each of which must stand between digits of
the whole number. What is kept so far is `kept`, last first. -/
def stripFrom? (isDigit : Char → Bool) (chars kept : List Char) (i : Nat) :
    List Char → Steps NumberFault (List Char)
  | [] => total (.ok kept.reverse)
  | c :: rest =>
    if c = '_' then do
      let front ← step (front? i chars)
      let back ← step (back? (i + 1) chars)
      let before := front.reverse.find? (· != '_')
      let after := back.find? (· != '_')
      if before.any isDigit && after.any isDigit then stripFrom? isDigit chars kept (i + 1) rest
      else total (.error .misplacedUnderscore)
    else stripFrom? isDigit chars (c :: kept) (i + 1) rest

def stripUnderscores? (isDigit : Char → Bool) (cs : List Char) : Steps NumberFault (List Char) :=
  stripFrom? isDigit cs [] 0 cs

/-- The radix that the first characters of a literal choose, in either case, and the rest. -/
def splitRadix? (body : List Char) : Option (Radix × List Char) :=
  let lower := body.map Char.toLower
  if ['0', 'x'].isPrefixOf lower then (dropBytes? 2 body).map (.hexadecimal, ·)
  else if ['0', 'b'].isPrefixOf lower then (dropBytes? 2 body).map (.binary, ·)
  else if 1 < byteLength body ∧ body.head? = some '0' then some (.octal, body)
  else some (.decimal, body)

def decodeIntegerBody? (width : IntegerWidth) (body : List Char) : Steps NumberFault LiteralValue :=
  do
    let (radix, digits) ← step (splitRadix? body)
    let digits ← stripUnderscores? (isDigitOf radix.base) digits
    if digits.isEmpty then total (.error .missingDigits)
    else do
      let magnitude ← total (addDigits radix 0 digits)
      if width.admits radix magnitude then
        total (.ok (.integer (width.wrap magnitude) radix))
      else total (.error .outOfRange)

def decodeInteger? (width : IntegerWidth) (text : List Char) : Steps LiteralFault LiteralValue := do
  let body ←
    match width with
    | .int => total (.ok text)
    | .long => step ((minus? (byteLength text) 1).bind (takeBytes? · text))
  (decodeIntegerBody? width body).adapt .invalidNumber

/-- Whether a literal starts with the mark of the base sixteen. -/
def isHexPrefixed? (body : List Char) : Option Bool :=
  if 1 < byteLength body ∧ body.head? = some '0' then
    (byteAt? 1 body).map fun b => b == UInt8.ofNat 'x'.toNat || b == UInt8.ofNat 'X'.toNat
  else some false

/-- The letters that end a floating-point literal as its suffix. -/
def isSuffix (c : Char) : Bool := c == 'f' || c == 'F' || c == 'd' || c == 'D'

/-- A literal without its suffix. -/
def dropSuffix? (text : List Char) : Option (List Char) :=
  if text.getLast?.any isSuffix then (minus? (byteLength text) 1).bind (takeBytes? · text)
  else some text

def hasNonzeroMantissa? (body : List Char) : Option Bool := do
  let hex ← isHexPrefixed? body
  let digits ← if hex then dropBytes? 2 body else some body
  let nonzero c := isDigitOf 16 c && c != '0'
  return if hex then (digits.takeWhile fun c => c != 'p' && c != 'P').any nonzero
    else (digits.takeWhile fun c => c != 'e' && c != 'E').any nonzero

def decodeHex? (digits : List Char) : Steps NumberFault Float :=
  match splitAtFirst? Floating.startsExponent digits with
  | none => total (.error .missingExponent)
  | some (mantissa, exponent) => do
    let mantissa ← stripUnderscores? (isDigitOf 16) mantissa
    let exponent ← stripUnderscores? Char.isDigit exponent
    total (Floating.ofHexParts ((splitAtFirst? (· == '.') mantissa).getD (mantissa, [])) exponent)

def decodeFloatBody? (width : FloatWidth) (body : List Char) : Steps NumberFault Float := do
  if ← step (isHexPrefixed? body) then do
    let digits ← step (dropBytes? 2 body)
    decodeHex? digits
  else do
    let cleaned ← stripUnderscores? Char.isDigit body
    match Floating.readFloat? width cleaned with
    | some value => total (.ok value)
    | none => total (.error .malformedFloating)

def decodeFloat? (width : FloatWidth) (text : List Char) : Steps NumberFault Float := do
  let body ← step (dropSuffix? text)
  let read ← decodeFloatBody? width body
  let value := Floating.round width read
  if value.isInf then total (.error .tooLarge)
  else if value == 0.0 then do
    if ← step (hasNonzeroMantissa? body) then total (.error .tooSmall) else total (.ok value)
  else total (.ok value)

/-! ### Strings, characters and text blocks -/

def decodeString? (text : List Char) : Steps LiteralFault (List Char) := do
  let body ← step ((minus? (byteLength text) 1).bind (slice? 1 · text))
  total ((Escape.decode false body).mapError fun offset => .invalidEscape (offset + 1))

def decodeChar? (text : List Char) : Steps LiteralFault Char := do
  match ← decodeString? text with
  | [c] => if c.toNat ≤ 0xffff then total (.ok c) else total (.error .invalidCharLiteral)
  | _ => total (.error .invalidCharLiteral)

/-- The offset of the first character that passes a test. -/
def find? (p : Char → Bool) (cs : List Char) : Option Nat :=
  match cs.dropWhile (!p ·) with
  | [] => none
  | _ :: _ => some (byteLength (cs.takeWhile (!p ·)))

/-- The offset behind the opening line of a text block. -/
def contentStart? (inner : List Char) : Option Nat :=
  match find? isLineTerminator inner with
  | some i =>
    (dropBytes? i inner).map fun tail => if ['\r', '\n'].isPrefixOf tail then i + 2 else i + 1
  | none => some (byteLength inner)

/-- A text with line feeds for all pairs of a carriage return and a line feed. -/
def joinTerminators : List Char → List Char
  | [] => []
  | '\r' :: '\n' :: rest => '\n' :: joinTerminators rest
  | c :: rest => c :: joinTerminators rest

/-- A text with line feeds for all its line terminators. -/
def normalize (cs : List Char) : List Char :=
  (joinTerminators cs).map fun c => if c = '\r' then '\n' else c

/-- How many blanks the lines share that are not blank or the last. -/
def sharedIndentation (last : Nat) (lines : List (List Char)) : Nat :=
  let counted := lines.zipIdx.filter fun line => line.2 == last || !isBlankLine line.1
  (counted.map fun line => TextBlock.indentation line.1).min?.getD 0

/-- The lines of a text block without their layout. The last one is looked up. -/
def stripLines? (lines : List (List Char)) : Option (List (List Char)) := do
  let last ← minus? lines.length 1
  let closing ← lines[last]?
  let stripped := lines.map (TextBlock.stripLine (sharedIndentation last lines))
  if isBlankLine closing then replace? last [] stripped else some stripped

def decodeTextBlock? (text : List Char) : Steps LiteralFault (List Char) := do
  let inner ← step ((minus? (byteLength text) 3).bind (slice? 3 · text))
  let start ← step (contentStart? inner)
  let content ← step (dropBytes? start inner)
  let stripped ← step (stripLines? ((normalize content).splitOnP (· == '\n')))
  total ((Escape.decode true (List.intercalate ['\n'] stripped)).mapError fun _ =>
    .invalidEscape (3 + start))

/-- The value of a token's text, for the kinds whose tokens carry one. -/
def decode? (kind : TokenKind) (text : List Char) : Steps LiteralFault (Option LiteralValue) :=
  match kind with
  | .intLiteral => some <$> decodeInteger? .int text
  | .longLiteral => some <$> decodeInteger? .long text
  | .floatLiteral => (some ∘ .floating) <$> (decodeFloat? .single text).adapt .invalidNumber
  | .doubleLiteral => (some ∘ .floating) <$> (decodeFloat? .double text).adapt .invalidNumber
  | .charLiteral => (some ∘ .char) <$> decodeChar? text
  | .stringLiteral => (some ∘ .string ∘ String.ofList) <$> decodeString? text
  | .textBlock => (some ∘ .string ∘ String.ofList) <$> decodeTextBlock? text
  | .trueLiteral => total (.ok (some (.bool true)))
  | .falseLiteral => total (.ok (some (.bool false)))
  | _ => total (.ok none)

end Bounded

end JavaSyntax
