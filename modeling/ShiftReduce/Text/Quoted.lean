import ShiftReduce.Text.Printing

namespace ShiftReduce.Text

/-!
# Quoted text

A text is shown between quotation marks, with every character that could
mislead a reader written as an escape.  The apostrophe is the mark of choice; a
text that holds an apostrophe and no double quote is put between double quotes
instead, so that it needs no escape.

Characters that leave no mark on a page are escaped by their code points.
-/

/-- The last `width` lower-case hexadecimal digits of a number. -/
def hexadecimal :
    (width : Nat) →
    (number : Nat) →
    List Char
  | 0, _ => []
  | width + 1, number =>
      hexadecimal width (number / 16) ++ [Nat.digitChar (number % 16)]

/-- The escape of a code point, as short as its size allows. -/
def codePointEscape
    (code : Nat) :
    List Char :=
  if code < 0x100 then
    '\\' :: 'x' :: hexadecimal 2 code
  else if code < 0x10000 then
    '\\' :: 'u' :: hexadecimal 4 code
  else
    '\\' :: 'U' :: hexadecimal 8 code

/-- One character of a text, as written between two quotation marks `mark`. -/
def writtenCharacter
    (mark character : Char) :
    List Char :=
  if character = mark || character = '\\' then
    ['\\', character]
  else if character = '\n' then
    ['\\', 'n']
  else if character = '\r' then
    ['\\', 'r']
  else if character = '\t' then
    ['\\', 't']
  else if isPrinting character then
    [character]
  else
    codePointEscape character.toNat

/-- The quotation mark that suits a text. -/
def quotationMark
    (characters : List Char) :
    Char :=
  if characters.contains '\'' && !characters.contains '"' then
    '"'
  else
    '\''

/-- A text between quotation marks, with escapes where they are needed. -/
def quoted
    (text : String) :
    String :=
  let characters := text.toList
  let mark := quotationMark characters
  String.ofList
    (mark :: characters.flatMap (writtenCharacter mark) ++ [mark])

end ShiftReduce.Text
