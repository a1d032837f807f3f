namespace ShiftReduce.Packaging

/-!
# Reading the version

The version of the package stands in a small file, on the first line that
begins with the words `__version__ =`.  It is what follows the line's first
equals sign, without the blanks and quotation marks around it.
-/

/-- What a line that tells the version begins with. -/
def versionMark : List Char := "__version__ =".toList

/-- A text in which every kind of line end has become a line feed. -/
def unifyLineEnds :
    List Char → List Char
  | [] => []
  | '\r' :: '\n' :: rest => '\n' :: unifyLineEnds rest
  | '\r' :: rest => '\n' :: unifyLineEnds rest
  | character :: rest => character :: unifyLineEnds rest

/-- The lines of a text, the first of which continues `collected`. -/
def linesFrom
    (collected : List Char) :
    List Char → List (List Char)
  | [] => [collected]
  | '\n' :: rest => collected :: linesFrom [] rest
  | character :: rest => linesFrom (collected ++ [character]) rest

/-- The lines of a text, without their ends. -/
def lines
    (text : List Char) :
    List (List Char) :=
  linesFrom [] text

/-- Whether a character around a version does not belong to it. -/
def isWrapping
    (character : Char) :
    Bool :=
  character = ' ' || character = '\n' || character = '\'' || character = '"'

/-- What remains after dropping wrapping characters from both ends. -/
def unwrapped
    (characters : List Char) :
    List Char :=
  ((characters.dropWhile isWrapping).reverse.dropWhile isWrapping).reverse

/-- What follows the first equals sign. -/
def afterEquals :
    List Char → List Char
  | [] => []
  | '=' :: rest => rest
  | _ :: rest => afterEquals rest

/-- The version that a line tells, if it tells one. -/
def versionOfLine?
    (line : List Char) :
    Option (List Char) :=
  if versionMark.isPrefixOf line then
    some (unwrapped (afterEquals line))
  else
    none

/-- The version that a file tells, if it tells one. -/
def version?
    (file : List Char) :
    Option (List Char) :=
  (lines (unifyLineEnds file)).findSome? versionOfLine?

/-- The content of the package's own version file. -/
def ownVersionFile : String := "__version__ = \"1.0.0\"\n"

end ShiftReduce.Packaging
