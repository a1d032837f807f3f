namespace ShiftReduce.Text

/-!
# Words

A text falls into words at its blank characters; runs of blanks count as one
separation, and blanks at either end separate nothing.
-/

/-- Inclusive ranges of the code points of blank characters. -/
def blankRanges : List (Nat × Nat) :=
  [(0x9, 0xd), (0x1c, 0x20), (0x85, 0x85), (0xa0, 0xa0), (0x1680, 0x1680),
   (0x2000, 0x200a), (0x2028, 0x2029), (0x202f, 0x202f), (0x205f, 0x205f),
   (0x3000, 0x3000)]

/-- Whether a character separates words. -/
def isBlank
    (character : Char) :
    Bool :=
  blankRanges.any fun range =>
    range.1 ≤ character.toNat && character.toNat ≤ range.2

/-- The word collected so far, if there is one. -/
def finishedWord
    (collected : List Char) :
    List String :=
  if collected.isEmpty then
    []
  else
    [String.ofList collected]

/-- The words of a list of characters, the first of which continues `collected`. -/
def wordsFrom
    (collected : List Char) :
    List Char → List String
  | [] => finishedWord collected
  | character :: rest =>
      if isBlank character then
        finishedWord collected ++ wordsFrom [] rest
      else
        wordsFrom (collected ++ [character]) rest

/-- The maximal blank-free pieces of a text, in order. -/
def words
    (text : String) :
    List String :=
  wordsFrom [] text.toList

end ShiftReduce.Text
