import ContractHost.Bytes.Hex
import ContractHost.Host.Settings

/-!
# Settings documents

Settings are read from a JSON text.  It is either an object with the optional fields
`max_call_depth` and `revision`, or an array with the same values in this order, of which the last
ones may be missing.  What is missing keeps its default.  A depth is a whole number of 32 bits; a
revision is its name in snake case, or an object with that name as its only field and the value
`null`.

Reading is strict: no other fields, no field twice, no other notation for a number, nothing behind
the document, and no commas to spare.  The text is first cut into tokens (`tokens?`); a character
that cannot be part of a settings document is refused there.
-/

namespace ContractHost.Settings

/-- A piece of a settings document. -/
inductive Token where
  | openBrace
  | closeBrace
  | openBracket
  | closeBracket
  | colon
  | comma
  | null
  | text (content : String)
  | number (value : Nat)
deriving DecidableEq

/-! ## Texts -/

/-- The character of a one-letter escape. -/
def escaped? : Char → Option Char
  | '"' => some '"'
  | '\\' => some '\\'
  | '/' => some '/'
  | 'b' => some '\x08'
  | 'f' => some '\x0c'
  | 'n' => some '\n'
  | 'r' => some '\r'
  | 't' => some '\t'
  | _ => none

/-- The number that four hexadecimal digits denote. -/
def hexNumber? (digits : List Char) : Option Nat :=
  digits.foldlM (fun value digit => do
    let digit ← if digit.toNat < 256 then Hex.digitValue? (UInt8.ofNat digit.toNat) else none
    return 16 * value + digit.toNat) 0

/-- The character that one 16-bit unit stands for by itself. -/
def unitChar? (unit : Nat) : Option Char :=
  if unit < 0xd800 ∨ 0xe000 ≤ unit then some (Char.ofNat unit) else none

/-- The character that two 16-bit units stand for together. -/
def pairChar? (high low : Nat) : Option Char :=
  if 0xd800 ≤ high ∧ high < 0xdc00 ∧ 0xdc00 ≤ low ∧ low < 0xe000 then
    some (Char.ofNat (0x10000 + 0x400 * (high - 0xd800) + (low - 0xdc00)))
  else none

/-- The content of a text up to its closing quote, and what follows that.  Characters beyond the
first 65536 are escaped as two units, and half of such a pair is no character. -/
def textContent? : List Char → Option (List Char × List Char)
  | '"' :: rest => some ([], rest)
  | '\\' :: 'u' :: a :: b :: c :: d :: '\\' :: 'u' :: e :: f :: g :: h :: rest => do
    let first ← hexNumber? [a, b, c, d]
    match unitChar? first with
    | some char =>
      let (content, rest) ← textContent? ('\\' :: 'u' :: e :: f :: g :: h :: rest)
      return (char :: content, rest)
    | none =>
      let char ← pairChar? first (← hexNumber? [e, f, g, h])
      let (content, rest) ← textContent? rest
      return (char :: content, rest)
  | '\\' :: 'u' :: a :: b :: c :: d :: rest => do
    let char ← unitChar? (← hexNumber? [a, b, c, d])
    let (content, rest) ← textContent? rest
    return (char :: content, rest)
  | '\\' :: letter :: rest => do
    let char ← escaped? letter
    let (content, rest) ← textContent? rest
    return (char :: content, rest)
  | char :: rest => do
    if char.toNat < 0x20 ∨ char = '\\' then none
    let (content, rest) ← textContent? rest
    return (char :: content, rest)
  | [] => none

/-! ## Tokens -/

/-- A whole number as a settings document writes it: no sign, and no zero in front. -/
def number? (digits : List Char) : Option Nat :=
  if digits.length > 1 ∧ digits.head? = some '0' then none
  else some (digits.foldl (fun value digit => 10 * value + (digit.toNat - 48)) 0)

/-- Cuts a text into at most `limit` tokens and blanks.  Each takes at least one character, so the
length of the text is limit enough. -/
def tokensUpTo : (limit : Nat) → List Char → Option (List Token)
  | _, [] => some []
  | 0, _ => none
  | limit + 1, char :: rest =>
    let single (token : Token) := (tokensUpTo limit rest).map (token :: ·)
    match char with
    | ' ' | '\t' | '\n' | '\r' => tokensUpTo limit rest
    | '\x7b' => single .openBrace
    | '\x7d' => single .closeBrace
    | '[' => single .openBracket
    | ']' => single .closeBracket
    | ':' => single .colon
    | ',' => single .comma
    | '"' => do
      let (content, rest) ← textContent? rest
      return .text (String.ofList content) :: (← tokensUpTo limit rest)
    | 'n' =>
      match rest with
      | 'u' :: 'l' :: 'l' :: rest => (tokensUpTo limit rest).map (.null :: ·)
      | _ => none
    | _ =>
      if char.isDigit then do
        let value ← number? (char :: rest.takeWhile Char.isDigit)
        return .number value :: (← tokensUpTo limit (rest.dropWhile Char.isDigit))
      else none

/-- The tokens of a text. -/
def tokens? (text : String) : Option (List Token) := tokensUpTo text.length text.toList

/-! ## Documents -/

/-- The values that a document gives. -/
structure Draft where
  maxCallDepth : Option UInt32 := none
  revision : Option Revision := none

/-- The settings of a document; what it does not give keeps its default. -/
def Draft.complete (draft : Draft) : Settings :=
  let defaults : Settings := {}
  { maxCallDepth := draft.maxCallDepth.getD defaults.maxCallDepth
    revision := draft.revision.getD defaults.revision }

/-- Adds a depth, which must not be there yet. -/
def Draft.withDepth? (draft : Draft) (value : Nat) : Option Draft :=
  if draft.maxCallDepth.isNone ∧ value < UInt32.size then
    some { draft with maxCallDepth := some (UInt32.ofNat value) }
  else none

/-- Adds the revision of a name, which must not be there yet. -/
def Draft.withRevision? (draft : Draft) (name : String) : Option Draft :=
  if draft.revision.isSome then none
  else
    (Revision.all.find? fun revision => revision.snakeName == name).map fun revision =>
      { draft with revision := some revision }

/-- Reads the fields of an object, from the first token of a field to the end of the document. -/
def fields? (draft : Draft) : List Token → Option Draft
  | .text "max_call_depth" :: .colon :: .number value :: rest => do
    let draft ← draft.withDepth? value
    more draft rest
  | .text "revision" :: .colon :: .text name :: rest => do
    let draft ← draft.withRevision? name
    more draft rest
  | .text "revision" :: .colon ::
      .openBrace :: .text name :: .colon :: .null :: .closeBrace :: rest => do
    let draft ← draft.withRevision? name
    more draft rest
  | _ => none
where
  more (draft : Draft) : List Token → Option Draft
    | [.closeBrace] => some draft
    | .comma :: rest => fields? draft rest
    | _ => none

/-- Reads a whole document. -/
def document? : List Token → Option Draft
  | [.openBrace, .closeBrace] => some {}
  | .openBrace :: rest => fields? {} rest
  | [.openBracket, .closeBracket] => some {}
  | [.openBracket, .number value, .closeBracket] => ({} : Draft).withDepth? value
  | [.openBracket, .number value, .comma, .text name, .closeBracket] => do
    (← ({} : Draft).withDepth? value).withRevision? name
  | [.openBracket, .number value, .comma,
      .openBrace, .text name, .colon, .null, .closeBrace, .closeBracket] => do
    (← ({} : Draft).withDepth? value).withRevision? name
  | _ => none

/-- The settings that a JSON text gives.  Only of a text that gives settings is it asked whether
the root frame can run under them. -/
def ofJson (text : String) : Except Fault Settings :=
  match (tokens? text).bind document? with
  | some draft => draft.complete.validate
  | none => .error (.settings .notSettings)

/-- The settings that a file gives, if it is there and its bytes are a text in UTF-8. -/
def ofFile (path : String) (contents : Option Bytes) : Except Fault Settings :=
  match contents.bind fun bytes => String.fromUTF8? (ByteArray.mk bytes.toArray) with
  | some text => ofJson text
  | none => .error (.settings (.unreadable path))

end ContractHost.Settings
