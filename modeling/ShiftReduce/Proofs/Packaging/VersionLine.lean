import ShiftReduce.Packaging.Build

namespace ShiftReduce.Packaging

/-!
# Versions read back from their files

A file is made of lines, each with one of three ends, and a last line that may have
none.  The reader asks the lines for a version one after the other (`version?_line`,
`version?_last`), and the first line that begins with the mark answers.

So a version that is written between quotation marks on such a line is read back, and a
file fails to be read exactly if no line begins with the mark (`version_read_back`).  A
return and a feed after it are one line end; taken for two, they have an empty line
between them, and an empty line tells no version.
-/

/-- The ways in which a line can end. -/
inductive LineEnd where
  | feed
  | carriageReturn
  | both
  deriving Repr, DecidableEq

/-- The characters that end a line. -/
def LineEnd.characters :
    LineEnd → List Char
  | .feed => ['\n']
  | .carriageReturn => ['\r']
  | .both => ['\r', '\n']

/-- A text in which no line ends. -/
def IsUnbroken
    (text : List Char) :
    Prop :=
  '\n' ∉ text ∧ '\r' ∉ text

instance
    (text : List Char) :
    Decidable (IsUnbroken text) :=
  inferInstanceAs (Decidable (_ ∧ _))

/-- A line of a file, with its end. -/
structure Line where
  content : List Char
  ending : LineEnd
  unbroken : IsUnbroken content

/-- What stands in a file for a line. -/
def Line.characters
    (line : Line) :
    List Char :=
  line.content ++ line.ending.characters

/-- What can come after the content of a line: nothing, or a line end and any text. -/
def EndsLine
    (rest : List Char) :
    Prop :=
  rest = [] ∨
    ∃ (ending : LineEnd) (following : List Char),
      rest = ending.characters ++ following

/-- Some line of a file begins with the mark. -/
def HasVersionLine
    (file : List Char) :
    Prop :=
  ∃ (earlier : List Line) (rest : List Char),
    file = earlier.flatMap Line.characters ++ (versionMark ++ rest)

/-- The two kinds of quotation marks. -/
inductive Quotation where
  | single
  | double
  deriving Repr, DecidableEq

/-- A quotation mark. -/
def Quotation.mark :
    Quotation → Char
  | .single => '\''
  | .double => '"'

/-- The content of a line that tells a version between quotation marks. -/
def versionLine
    (quotation : Quotation)
    (version : List Char) :
    List Char :=
  versionMark ++ ' ' :: quotation.mark :: (version ++ [quotation.mark])

/-- A character that can stand next to a quotation mark without being taken for it. -/
def IsBare
    (character : Char) :
    Prop :=
  character ≠ ' ' ∧ character ≠ '\'' ∧ character ≠ '"'

instance
    (character : Char) :
    Decidable (IsBare character) :=
  inferInstanceAs (Decidable (_ ∧ _))

/-- A version on one line that neither begins nor ends with a blank or a quotation mark. -/
structure IsQuotable
    (version : List Char) :
    Prop where
  unbroken : IsUnbroken version
  front : ∀ first, version.head? = some first → IsBare first
  back : ∀ last, version.getLast? = some last → IsBare last

section Lines

variable {content rest : List Char}

theorem IsUnbroken.append
    {others : List Char}
    (unbroken : IsUnbroken content)
    (othersUnbroken : IsUnbroken others) :
    IsUnbroken (content ++ others) := by
  constructor
  · simp only [List.mem_append, not_or]
    exact ⟨unbroken.1, othersUnbroken.1⟩
  · simp only [List.mem_append, not_or]
    exact ⟨unbroken.2, othersUnbroken.2⟩

/-- Line ends are unified behind a text without returns. -/
theorem unifyLineEnds_append
    (noReturn : '\r' ∉ content) :
    unifyLineEnds (content ++ rest) = content ++ unifyLineEnds rest := by
  induction content with
  | nil => rfl
  | cons first others inductionHypothesis =>
      simp only [List.mem_cons, not_or] at noReturn
      have notFirst : first ≠ '\r' := Ne.symm noReturn.1
      rw [List.cons_append, List.cons_append, unifyLineEnds,
        inductionHypothesis noReturn.2]
      · exact fun _ isReturn => absurd isReturn notFirst
      · exact notFirst

/-- A text without feeds belongs to the line that it is found on. -/
theorem linesFrom_append
    (collected : List Char)
    (noFeed : '\n' ∉ content) :
    linesFrom collected (content ++ rest) =
      linesFrom (collected ++ content) rest := by
  induction content generalizing collected with
  | nil => rw [List.append_nil, List.nil_append]
  | cons first others inductionHypothesis =>
      simp only [List.mem_cons, not_or] at noFeed
      rw [List.cons_append, linesFrom, inductionHypothesis _ noFeed.2,
        List.append_assoc, List.singleton_append]
      exact Ne.symm noFeed.1

/-- Every file is made of lines with their ends and a last one without. -/
theorem exists_lines
    (file : List Char) :
    ∃ (ended : List Line) (last : List Char),
      IsUnbroken last ∧ file = ended.flatMap Line.characters ++ last := by
  induction file with
  | nil => exact ⟨[], [], by decide, rfl⟩
  | cons first others inductionHypothesis =>
      obtain ⟨ended, last, unbroken, rfl⟩ := inductionHypothesis
      by_cases isFeed : first = '\n'
      · subst isFeed
        exact ⟨⟨[], .feed, by decide⟩ :: ended, last, unbroken, rfl⟩
      by_cases isReturn : first = '\r'
      · subst isReturn
        exact ⟨⟨[], .carriageReturn, by decide⟩ :: ended, last, unbroken, rfl⟩
      have alone : IsUnbroken [first] := by
        simp [IsUnbroken, Ne.symm isFeed, Ne.symm isReturn]
      -- The character goes in front of the next line, be it ended or the last one.
      cases ended with
      | nil => exact ⟨[], first :: last, alone.append unbroken, rfl⟩
      | cons line later =>
          exact
            ⟨⟨first :: line.content, line.ending, alone.append line.unbroken⟩ :: later,
              last, unbroken, rfl⟩

/-- Every text begins with the content of a line. -/
theorem exists_content
    (text : List Char) :
    ∃ content rest,
      IsUnbroken content ∧ EndsLine rest ∧ text = content ++ rest := by
  obtain ⟨ended, last, unbroken, rfl⟩ := exists_lines text
  cases ended with
  | nil => exact ⟨last, [], unbroken, .inl rfl, by simp⟩
  | cons line later =>
      refine
        ⟨line.content,
          line.ending.characters ++ (later.flatMap Line.characters ++ last),
          line.unbroken, .inr ⟨line.ending, _, rfl⟩, ?_⟩
      simp only [List.flatMap_cons, Line.characters, List.append_assoc]

end Lines

section Reading

variable {content rest : List Char}

theorem versionOfLine?_eq_none
    (silent : ¬ versionMark <+: content) :
    versionOfLine? content = none := by
  rw [versionOfLine?, if_neg]
  rwa [List.isPrefixOf_iff_prefix]

theorem versionOfLine?_of_mark
    (marked : versionMark <+: content) :
    versionOfLine? content = some (unwrapped (afterEquals content)) := by
  rw [versionOfLine?, if_pos]
  rwa [List.isPrefixOf_iff_prefix]

theorem version?_last
    (unbroken : IsUnbroken content) :
    version? content = versionOfLine? content := by
  have unified : unifyLineEnds (content ++ []) = content ++ [] :=
    unifyLineEnds_append unbroken.2
  have single : lines (content ++ []) = [content] :=
    linesFrom_append [] unbroken.1
  rw [List.append_nil] at unified single
  rw [version?, unified, single, List.findSome?_singleton]

/-- Behind a line end, however it is written, the reader goes on with the next line. -/
theorem version?_of_unified
    {behind : List Char}
    (unbroken : IsUnbroken content)
    (unified : unifyLineEnds behind = '\n' :: unifyLineEnds rest) :
    version? (content ++ behind) =
      (versionOfLine? content).or (version? rest) := by
  have split :
      lines (content ++ '\n' :: unifyLineEnds rest) =
        content :: lines (unifyLineEnds rest) := by
    rw [lines, linesFrom_append [] unbroken.1]
    rfl
  rw [version?, unifyLineEnds_append unbroken.2, unified, split,
    List.findSome?_cons, version?]
  cases versionOfLine? content <;> rfl

theorem version?_feed
    (rest : List Char) :
    version? ('\n' :: rest) = version? rest := by
  have empty : IsUnbroken [] := by decide
  have unified : unifyLineEnds ('\n' :: rest) = '\n' :: unifyLineEnds rest := rfl
  exact version?_of_unified empty unified

/-- The reader asks a line for its version, and then the rest of the file. -/
theorem version?_line
    (line : Line)
    (rest : List Char) :
    version? (line.characters ++ rest) =
      (versionOfLine? line.content).or (version? rest) := by
  rw [Line.characters, List.append_assoc]
  cases line.ending with
  | feed | both => exact version?_of_unified line.unbroken rfl
  | carriageReturn =>
      -- A feed at the front of the rest belongs to the return before it.
      by_cases feedFollows : ∃ following, rest = '\n' :: following
      · obtain ⟨following, rfl⟩ := feedFollows
        rw [version?_feed]
        exact version?_of_unified line.unbroken rfl
      · apply version?_of_unified line.unbroken
        change unifyLineEnds ('\r' :: rest) = _
        rw [unifyLineEnds]
        exact fun following isFeed => feedFollows ⟨following, isFeed⟩

/-- Lines that tell no version are passed over. -/
theorem version?_lines
    {earlier : List Line}
    (silent : ∀ line ∈ earlier, ¬ versionMark <+: line.content) :
    version? (earlier.flatMap Line.characters ++ rest) = version? rest := by
  induction earlier with
  | nil => rfl
  | cons line later inductionHypothesis =>
      rw [List.flatMap_cons, List.append_assoc, version?_line,
        versionOfLine?_eq_none (silent line List.mem_cons_self), Option.none_or]
      exact inductionHypothesis fun other member =>
        silent other (List.mem_cons_of_mem line member)

/-- A line that begins with the mark tells the version, whatever comes after it. -/
theorem version?_of_mark
    (unbroken : IsUnbroken content)
    (ends : EndsLine rest)
    (marked : versionMark <+: content) :
    version? (content ++ rest) = some (unwrapped (afterEquals content)) := by
  rcases ends with rfl | ⟨ending, following, rfl⟩
  · rw [List.append_nil, version?_last unbroken, versionOfLine?_of_mark marked]
  · have read := version?_line ⟨content, ending, unbroken⟩ following
    rw [Line.characters, List.append_assoc] at read
    rw [read, versionOfLine?_of_mark marked, Option.some_or]

theorem HasVersionLine.cons
    {file : List Char}
    (line : Line)
    (has : HasVersionLine file) :
    HasVersionLine (line.characters ++ file) := by
  obtain ⟨earlier, rest, rfl⟩ := has
  exact ⟨line :: earlier, rest, by simp only [List.flatMap_cons, List.append_assoc]⟩

/-- The reader finds a version exactly if some line begins with the mark. -/
theorem version?_isSome_iff
    (file : List Char) :
    (version? file).isSome ↔ HasVersionLine file := by
  constructor
  · intro found
    obtain ⟨ended, last, unbroken, rfl⟩ := exists_lines file
    induction ended with
    | nil =>
        by_cases marked : versionMark <+: last
        · obtain ⟨rest, rfl⟩ := marked
          exact ⟨[], rest, rfl⟩
        · rw [List.flatMap_nil, List.nil_append, version?_last unbroken,
            versionOfLine?_eq_none marked] at found
          cases found
    | cons line later inductionHypothesis =>
        rw [List.flatMap_cons, List.append_assoc] at found ⊢
        by_cases marked : versionMark <+: line.content
        · obtain ⟨rest, isContent⟩ := marked
          refine
            ⟨[], rest ++ (line.ending.characters ++
              (later.flatMap Line.characters ++ last)), ?_⟩
          rw [Line.characters, ← isContent]
          simp only [List.flatMap_nil, List.nil_append, List.append_assoc]
        · rw [version?_line, versionOfLine?_eq_none marked, Option.none_or] at found
          exact (inductionHypothesis found).cons line
  · rintro ⟨earlier, rest, rfl⟩
    induction earlier with
    | nil =>
        obtain ⟨content, behind, unbroken, ends, rfl⟩ := exists_content rest
        have markUnbroken : IsUnbroken versionMark := by decide
        rw [List.flatMap_nil, List.nil_append, ← List.append_assoc,
          version?_of_mark (markUnbroken.append unbroken) ends
            (List.prefix_append versionMark content)]
        rfl
    | cons line later inductionHypothesis =>
        rw [List.flatMap_cons, List.append_assoc, version?_line, Option.isSome_or,
          inductionHypothesis, Bool.or_true]

end Reading

section Unwrapping

variable {version : List Char}

theorem dropWhile_isWrapping
    {wrapping rest : List Char}
    (wraps : ∀ character ∈ wrapping, isWrapping character = true)
    (stops : ∀ first, rest.head? = some first → isWrapping first = false) :
    (wrapping ++ rest).dropWhile isWrapping = rest := by
  rw [List.dropWhile_append_of_pos wraps]
  cases rest with
  | nil => rfl
  | cons first others => rw [List.dropWhile_cons_of_neg (by simp [stops first rfl])]

/-- What stands between wrapping characters is found again. -/
theorem unwrapped_of_wrapped
    {left right : List Char}
    (leftWraps : ∀ character ∈ left, isWrapping character = true)
    (rightWraps : ∀ character ∈ right, isWrapping character = true)
    (front : ∀ first, version.head? = some first → isWrapping first = false)
    (back : ∀ last, version.getLast? = some last → isWrapping last = false) :
    unwrapped (left ++ (version ++ right)) = version := by
  cases version with
  | nil =>
      have allWrap : ∀ character ∈ left ++ right, isWrapping character = true := by
        intro character member
        rcases List.mem_append.mp member with isLeft | isRight
        · exact leftWraps character isLeft
        · exact rightWraps character isRight
      have nothing : ((left ++ right) ++ []).dropWhile isWrapping = [] :=
        dropWhile_isWrapping allWrap (by simp)
      rw [List.append_nil] at nothing
      rw [List.nil_append, unwrapped, nothing]
      rfl
  | cons first others =>
      have openingDropped :
          (left ++ (first :: others ++ right)).dropWhile isWrapping =
            first :: others ++ right :=
        dropWhile_isWrapping leftWraps front
      have closingDropped :
          (right.reverse ++ (first :: others).reverse).dropWhile isWrapping =
            (first :: others).reverse := by
        apply dropWhile_isWrapping
        · intro character member
          exact rightWraps character (List.mem_reverse.mp member)
        · intro last isLast
          rw [List.head?_reverse] at isLast
          exact back last isLast
      rw [unwrapped, openingDropped, List.reverse_append, closingDropped,
        List.reverse_reverse]

theorem isWrapping_eq_false
    {character : Char}
    (bare : IsBare character)
    (noFeed : character ≠ '\n') :
    isWrapping character = false := by
  simp [isWrapping, bare.1, bare.2.1, bare.2.2, noFeed]

/-- A version is what a line that tells it has behind its first equals sign, unwrapped. -/
theorem IsQuotable.unwrapped_versionLine
    (quotable : IsQuotable version)
    (quotation : Quotation) :
    unwrapped (afterEquals (versionLine quotation version)) = version := by
  have behindMark :
      afterEquals (versionLine quotation version) =
        [' ', quotation.mark] ++ (version ++ [quotation.mark]) :=
    rfl
  have notFeed : ∀ character ∈ version, character ≠ '\n' := by
    rintro character member rfl
    exact quotable.unbroken.1 member
  have markWraps : isWrapping quotation.mark = true := by
    cases quotation <;> rfl
  rw [behindMark]
  apply unwrapped_of_wrapped
  · intro character member
    simp only [List.mem_cons, List.not_mem_nil, or_false] at member
    rcases member with rfl | rfl
    · rfl
    · exact markWraps
  · intro character member
    rw [List.mem_singleton.mp member]
    exact markWraps
  · intro first isFirst
    exact isWrapping_eq_false (quotable.front first isFirst)
      (notFeed first (List.mem_of_head? isFirst))
  · intro last isLast
    exact isWrapping_eq_false (quotable.back last isLast)
      (notFeed last (List.mem_of_getLast? isLast))

theorem IsQuotable.unbroken_versionLine
    (quotable : IsQuotable version)
    (quotation : Quotation) :
    IsUnbroken (versionLine quotation version) := by
  have opening : IsUnbroken (versionMark ++ [' ', quotation.mark]) := by
    cases quotation <;> decide
  have closing : IsUnbroken [quotation.mark] := by
    cases quotation <;> decide
  have whole := opening.append (quotable.unbroken.append closing)
  rwa [List.append_assoc] at whole

end Unwrapping

section Setup

variable
  {compiled : Bool}
  {file : String}

/-- Setting up the package comes to the version that is read. -/
theorem setup_version
    {version : List Char}
    (read : version? file.toList = some version) :
    (setup compiled file).map Setup.version = .ok (String.ofList version) := by
  rw [setup, read]
  rfl

/-- Setting up the package fails exactly if no version is read. -/
theorem setup_eq_error_iff :
    setup compiled file = .error .noVersion ↔ ¬ (version? file.toList).isSome := by
  rw [setup]
  cases version? file.toList with
  | none => simp
  | some version => simp

end Setup

/--
Reading undoes writing, and fails only where nothing is written.

Behind lines that do not begin with the mark, a version between quotation marks is read
as it is, whatever comes after its line; and a file fails to be read exactly if no line
of it begins with the mark.
-/
theorem version_read_back
    (compiled : Bool) :
    (∀ (earlier : List Line) (quotation : Quotation) (version rest : List Char),
        (∀ line ∈ earlier, ¬ versionMark <+: line.content) →
          IsQuotable version →
            EndsLine rest →
              (setup compiled
                (String.ofList
                  (earlier.flatMap Line.characters ++
                    (versionLine quotation version ++ rest)))).map Setup.version =
                .ok (String.ofList version)) ∧
      ∀ file : String,
        setup compiled file = .error .noVersion ↔ ¬ HasVersionLine file.toList := by
  constructor
  · intro earlier quotation version rest silent quotable ends
    have marked : versionMark <+: versionLine quotation version :=
      List.prefix_append versionMark _
    apply setup_version
    rw [String.toList_ofList, version?_lines silent,
      version?_of_mark (quotable.unbroken_versionLine quotation) ends marked,
      quotable.unwrapped_versionLine]
  · intro file
    rw [setup_eq_error_iff, version?_isSome_iff]

/-- Lines that mention the mark without beginning with it, ended in all three ways. -/
def misleadingLines : List Line :=
  [⟨"# __version__ = 'none'".toList, .both, by decide⟩,
    ⟨" __version__ = '0'".toList, .carriageReturn, by decide⟩,
    ⟨[], .feed, by decide⟩]

/-- A version with an equals sign and both quotation marks in it. -/
def oddVersion : List Char := "1.0='rc\"1".toList

theorem oddVersion_read_back :
    (∀ line ∈ misleadingLines, ¬ versionMark <+: line.content) ∧
      IsQuotable oddVersion ∧
      EndsLine "\r__version__ = '2'".toList ∧
      (setup false
        (String.ofList
          (misleadingLines.flatMap Line.characters ++
            (versionLine .single oddVersion ++
              "\r__version__ = '2'".toList)))).map Setup.version =
        .ok (String.ofList oddVersion) := by
  have silent : ∀ line ∈ misleadingLines, ¬ versionMark <+: line.content := by
    decide
  have quotable : IsQuotable oddVersion := by
    refine ⟨by decide, ?_, ?_⟩
    · rintro first ⟨⟩
      decide
    · rintro last ⟨⟩
      decide
  have ends : EndsLine "\r__version__ = '2'".toList :=
    .inr ⟨.carriageReturn, "__version__ = '2'".toList, rfl⟩
  exact
    ⟨silent, quotable, ends,
      (version_read_back false).1 misleadingLines .single oddVersion _ silent
        quotable ends⟩

end ShiftReduce.Packaging
