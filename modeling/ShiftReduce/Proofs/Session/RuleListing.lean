import ShiftReduce.Proofs.Session.Collector

namespace ShiftReduce

/-!
# Listings of rules

A rule between grammar symbols is listed as a line of words: the name of its head, an
arrow, and the names of its body, with a word of its own for an empty body.  As long
as no name has a space in it, the words can be read off the line again; and as long
as no body is the one name that is the word for an empty body, the names can be read
off the words.  So such rules have the same line exactly if they have the same names
(`RuleNames.line_eq_iff`), and two collectors list the same lines exactly if they have
collected rules with the same names in the same order (`Session.lines_determine_names`).

Names may be empty, and may be arrows.
-/

/-- The name by which a grammar symbol is listed: a text is its own name. -/
def Value.symbolName? :
    Value → Option String
  | .text content => some content
  | .nonterminal carried => some carried.name
  | _ => Option.none

/-- The names in a rule: the one of its head, and those of its body in order. -/
structure RuleNames where
  head : String
  body : List String
  deriving Repr, DecidableEq

namespace RuleNames

/--
Names that can be read off a line: no name has a space in it, and the body is not
taken for an empty one.
-/
structure Readable
    (names : RuleNames) :
    Prop where
  unspaced : ∀ name ∈ names.head :: names.body, ' ' ∉ name.toList
  distinctive : names.body ≠ [emptyBody]

/-- The words of a line that lists a rule. -/
def words
    (names : RuleNames) :
    List String :=
  names.head :: "->" ::
    if names.body.isEmpty then [emptyBody] else names.body

/-- The line that lists a rule. -/
def line
    (names : RuleNames) :
    String :=
  ruleText names.head names.body

variable {names others : RuleNames}

/-- The line of a rule is its words with spaces between them. -/
theorem line_eq_intercalate
    (names : RuleNames) :
    names.line = " ".intercalate names.words := by
  have arrow :
      ∀ head rest : String,
        head ++ " -> " ++ rest = head ++ " " ++ ("->" ++ " " ++ rest) := by
    intro head rest
    apply String.toList_inj.mp
    simp
  rcases names with ⟨head, body⟩
  cases body with
  | nil =>
      change head ++ " -> " ++ emptyBody = " ".intercalate [head, "->", emptyBody]
      rw [String.intercalate_cons_cons, String.intercalate_cons_cons,
        String.intercalate_singleton, arrow]
  | cons first rest =>
      change
        head ++ " -> " ++ " ".intercalate (first :: rest) =
          " ".intercalate (head :: "->" :: first :: rest)
      rw [String.intercalate_cons_cons, String.intercalate_cons_cons, arrow]

theorem Readable.words_unspaced
    (readable : names.Readable) :
    ∀ word ∈ names.words.map String.toList, ' ' ∉ word := by
  intro letters member
  obtain ⟨word, isWord, rfl⟩ := List.mem_map.mp member
  simp only [words, List.mem_cons] at isWord
  rcases isWord with rfl | rfl | inBody
  · exact readable.unspaced names.head List.mem_cons_self
  · decide
  · split at inBody
    · obtain rfl := List.mem_singleton.mp inBody
      decide
    · exact readable.unspaced word (List.mem_cons_of_mem names.head inBody)

/-- A line without spaces in its names falls into its words again. -/
theorem words_eq_of_line_eq
    (readable : names.Readable)
    (otherReadable : others.Readable)
    (sameLine : names.line = others.line) :
    names.words = others.words := by
  rw [line_eq_intercalate, line_eq_intercalate] at sameLine
  have sameLetters := congrArg String.toList sameLine
  rw [String.toList_intercalate, String.toList_intercalate] at sameLetters
  have space : " ".toList = [' '] := rfl
  have sameWords := congrArg (List.splitOn ' ') sameLetters
  rw [space,
    List.splitOn_intercalate ' ' readable.words_unspaced (by simp [words]),
    List.splitOn_intercalate ' ' otherReadable.words_unspaced (by simp [words])]
    at sameWords
  exact (List.map_inj_right fun _ _ => String.toList_inj.mp).mp sameWords

/-- The words of a line tell the names, since the word for an empty body is no body. -/
theorem eq_of_words_eq
    (readable : names.Readable)
    (otherReadable : others.Readable)
    (sameWords : names.words = others.words) :
    names = others := by
  rcases names with ⟨head, body⟩
  rcases others with ⟨otherHead, otherBody⟩
  simp only [words, List.cons.injEq, true_and] at sameWords
  obtain ⟨rfl, sameBody⟩ := sameWords
  have distinctive := readable.distinctive
  have otherDistinctive := otherReadable.distinctive
  congr
  cases body with
  | nil =>
      cases otherBody with
      | nil => rfl
      | cons first rest => exact (otherDistinctive sameBody.symm).elim
  | cons first rest =>
      cases otherBody with
      | nil => exact (distinctive sameBody).elim
      | cons otherFirst otherRest => exact sameBody

/-- Readable names are listed by the same line exactly if they are the same. -/
theorem line_eq_iff
    (readable : names.Readable)
    (otherReadable : others.Readable) :
    names.line = others.line ↔ names = others := by
  constructor
  · intro sameLine
    exact eq_of_words_eq readable otherReadable
      (words_eq_of_line_eq readable otherReadable sameLine)
  · rintro rfl
    rfl

theorem lines_eq_iff
    {allNames otherNames : List RuleNames}
    (readable : ∀ names ∈ allNames, names.Readable)
    (otherReadable : ∀ names ∈ otherNames, names.Readable) :
    allNames.map line = otherNames.map line ↔ allNames = otherNames := by
  induction allNames generalizing otherNames with
  | nil => simp [eq_comm]
  | cons names rest inductionHypothesis =>
      cases otherNames with
      | nil => simp
      | cons others otherRest =>
          have first :=
            line_eq_iff (readable names List.mem_cons_self)
              (otherReadable others List.mem_cons_self)
          have later :=
            inductionHypothesis
              (fun name member =>
                readable name (List.mem_cons_of_mem names member))
              (fun name member =>
                otherReadable name (List.mem_cons_of_mem others member))
          simp only [List.map_cons, List.cons.injEq, first, later]

end RuleNames

namespace Value

variable
  {value : Value}
  {name : String}

/-- Grammar symbols mention nothing. -/
theorem expand_of_symbolName
    (fill : Filling)
    (named : value.symbolName? = some name) :
    value.expand fill = value := by
  cases value with
  | text | nonterminal => rfl
  | _ => cases named

/-- The plain form of a grammar symbol is its name. -/
theorem plainOr_of_symbolName
    (named : value.symbolName? = some name) :
    value.plainOr value.shown = .ok name := by
  cases value with
  | text | nonterminal =>
      cases named
      rfl
  | _ => cases named

theorem symbolNames_cons
    {rest : List Value}
    {names : List String}
    (named : (value :: rest).mapM symbolName? = some names) :
    ∃ name others,
      value.symbolName? = some name ∧
        rest.mapM symbolName? = some others ∧
        names = name :: others := by
  rw [List.mapM_cons] at named
  obtain ⟨name, first, named⟩ := Option.bind_eq_some_iff.mp named
  obtain ⟨others, later, named⟩ := Option.bind_eq_some_iff.mp named
  exact ⟨name, others, first, later, (Option.some.inj named).symm⟩

theorem expandAll_of_symbolNames
    (fill : Filling)
    {values : List Value} :
    ∀ {names : List String},
      values.mapM symbolName? = some names → expandAll fill values = values := by
  induction values with
  | nil =>
      intro names _
      rfl
  | cons value rest inductionHypothesis =>
      intro names named
      obtain ⟨name, others, first, later, _⟩ := symbolNames_cons named
      simp only [expandAll, expand_of_symbolName fill first,
        inductionHypothesis later]

theorem plainEach_of_symbolNames
    {values : List Value} :
    ∀ {names : List String},
      values.mapM symbolName? = some names →
        Rendering.inOrder (plainEach values) = .ok names := by
  induction values with
  | nil =>
      rintro names named
      cases named
      rfl
  | cons value rest inductionHypothesis =>
      intro names named
      obtain ⟨name, others, first, later, rfl⟩ := symbolNames_cons named
      simp only [plainEach, Rendering.inOrder, plainOr_of_symbolName first,
        inductionHypothesis later, bind, Except.bind, pure, Except.pure]

end Value

namespace Production

/-- The names in a rule, provided that it is a rule between grammar symbols. -/
def names?
    (rule : Production) :
    Option RuleNames := do
  let head ← rule.head.symbolName?
  let body ← rule.body.mapM Value.symbolName?
  return ⟨head, body⟩

/-- A rule between grammar symbols whose names can be read off its line. -/
def IsListable
    (rule : Production) :
    Prop :=
  ∃ names, rule.names? = some names ∧ names.Readable

variable
  {rule : Production}
  {names : RuleNames}

theorem symbolNames_of_names
    (named : rule.names? = some names) :
    rule.head.symbolName? = some names.head ∧
      rule.body.mapM Value.symbolName? = some names.body := by
  obtain ⟨head, headNamed, named⟩ := Option.bind_eq_some_iff.mp named
  obtain ⟨body, bodyNamed, named⟩ := Option.bind_eq_some_iff.mp named
  cases named
  exact ⟨headNamed, bodyNamed⟩

/-- A rule between grammar symbols mentions nothing outside of its index. -/
theorem expand_of_names
    (fill : Filling)
    (named : rule.names? = some names) :
    rule.expand fill = { rule with index := rule.index.expand fill } := by
  obtain ⟨headNamed, bodyNamed⟩ := symbolNames_of_names named
  rcases rule with ⟨identity, head, body, index⟩
  have bodyStays := Value.expandAll_of_symbolNames fill bodyNamed
  cases head with
  | text | nonterminal => simp only [expand, Value.expand, bodyStays]
  | _ => cases headNamed

/-- A rule between grammar symbols shows its names. -/
theorem shown_of_names
    (named : rule.names? = some names) :
    rule.shown = .ok names.line := by
  obtain ⟨headNamed, bodyNamed⟩ := symbolNames_of_names named
  rcases rule with ⟨identity, head, body, index⟩
  have headShows := Value.plainOr_of_symbolName headNamed
  have bodyShows := Value.plainEach_of_symbolNames bodyNamed
  cases body with
  | nil =>
      have empty : names.body = [] := (Except.ok.inj bodyShows).symm
      cases head with
      | text | nonterminal =>
          simp only [shown, Value.isTuple, headShows, RuleNames.line, empty,
            bind, Except.bind, pure, Except.pure, Bool.false_eq_true, ↓reduceIte]
      | _ => cases headNamed
  | cons first rest =>
      simp only [shown, headShows, bodyShows, RuleNames.line, bind, Except.bind,
        pure, Except.pure]

/-- Whatever a store holds, the line of a rule between grammar symbols has its names. -/
theorem plain_of_names
    (store : Store)
    (named : rule.names? = some names) :
    store.plain (.production rule) = .ok names.line := by
  have indexless : ∀ index, { rule with index := index }.names? = some names :=
    fun _ => named
  unfold Store.plain Store.resolve Store.levels
  rw [Nat.succ_mul]
  change (Value.production (rule.expand _)).plain = _
  rw [expand_of_names _ named]
  exact shown_of_names (indexless _)

end Production

namespace Session

/-- A collector that is asked for its lines answers with these, and nothing changes. -/
def Lists
    (session : Session)
    (collector : String)
    (lines : List String) :
    Prop :=
  ∀ (perform : Step → Deed Report) (granted : Nat) (name : String),
    execute perform granted name (.listLines collector) session =
      .ok (.texts lines) session

variable
  {session : Session}
  {collector : String}

/-- A collector lists the plain forms of what it has collected. -/
theorem Collects.lists
    {productions : List Value}
    {lines : List String}
    (collects : session.Collects collector productions)
    (shows : session.store.plainAll productions = .ok lines) :
    session.Lists collector lines := by
  obtain ⟨symbolTable, found⟩ := collects
  intro perform granted name
  have current : (get : Deed Session) session = .ok session session := rfl
  have opened :
      observer collector session =
        .ok ⟨symbolTable, .collector productions⟩ session := by
    rw [observer, Run.bind_of_ok current, found]
    rfl
  have held :
      collected collector "lines" session = .ok productions session := by
    rw [collected, Run.bind_of_ok opened]
    rfl
  have worded :
      demandText (session.store.plainAll productions) session =
        .ok lines session := by
    rw [shows]
    rfl
  change
    (collected collector "lines" >>= fun productions =>
      get >>= fun session =>
        demandText (session.store.plainAll productions) >>= fun lines =>
          pure (Report.texts lines)) session = _
  rw [Run.bind_of_ok held, Run.bind_of_ok current, Run.bind_of_ok worded]
  rfl

/-- Several listable rules have names, which can be read off their lines. -/
theorem exists_names
    {rules : List Production}
    (listable : ∀ rule ∈ rules, rule.IsListable) :
    ∃ allNames : List RuleNames,
      rules.map Production.names? = allNames.map some ∧
        ∀ names ∈ allNames, names.Readable := by
  induction rules with
  | nil => exact ⟨[], rfl, by simp⟩
  | cons rule rest inductionHypothesis =>
      obtain ⟨first, named, readable⟩ := listable rule List.mem_cons_self
      obtain ⟨others, restNamed, restReadable⟩ :=
        inductionHypothesis fun other member =>
          listable other (List.mem_cons_of_mem rule member)
      refine ⟨first :: others, ?_, ?_⟩
      · rw [List.map_cons, List.map_cons, named, restNamed]
      · intro names member
        rcases List.mem_cons.mp member with rfl | later
        · exact readable
        · exact restReadable names later

/-- The lines of several rules, whatever the store holds. -/
theorem plainAll_of_names
    (store : Store)
    {rules : List Production} :
    ∀ {allNames : List RuleNames},
      rules.map Production.names? = allNames.map some →
        store.plainAll (rules.map Value.production) =
          .ok (allNames.map RuleNames.line) := by
  induction rules with
  | nil =>
      intro allNames named
      obtain rfl := List.map_eq_nil_iff.mp named.symm
      rfl
  | cons rule rest inductionHypothesis =>
      intro allNames named
      obtain ⟨first, others, rfl, firstNamed, restNamed⟩ :=
        List.map_eq_cons_iff.mp named.symm
      have shows : store.plain (.production rule) = .ok first.line :=
        Production.plain_of_names store firstNamed.symm
      have restShows := inductionHypothesis restNamed.symm
      unfold Store.plainAll Value.plainAll at restShows ⊢
      unfold Store.plain Value.plain at shows
      simp only [List.map_cons, Value.plainEach, Rendering.inOrder, shows,
        restShows, bind, Except.bind, pure, Except.pure]

/--
Lines and names tell the same of listable rules.

Two rules have the same line exactly if they have the same names, and two collectors
list the same lines exactly if they have collected rules with the same names, one by
one, whatever the stores of their sessions hold.
-/
theorem lines_determine_names
    {rules otherRules : List Production}
    (listable : ∀ rule ∈ rules, rule.IsListable)
    (otherListable : ∀ rule ∈ otherRules, rule.IsListable) :
    (∀ rule ∈ rules, ∀ other ∈ otherRules, ∀ store otherStore : Store,
        ∃ line otherLine,
          store.plain (.production rule) = .ok line ∧
            otherStore.plain (.production other) = .ok otherLine ∧
            (line = otherLine ↔ rule.names? = other.names?)) ∧
      ∀ (session other : Session) (collector otherCollector : String),
        session.Collects collector (rules.map Value.production) →
          other.Collects otherCollector (otherRules.map Value.production) →
            ∃ lines otherLines,
              session.Lists collector lines ∧
                other.Lists otherCollector otherLines ∧
                (lines = otherLines ↔
                  rules.map Production.names? =
                    otherRules.map Production.names?) := by
  constructor
  · intro rule member other otherMember store otherStore
    obtain ⟨names, named, readable⟩ := listable rule member
    obtain ⟨otherNames, otherNamed, otherReadable⟩ :=
      otherListable other otherMember
    refine
      ⟨_, _, Production.plain_of_names store named,
        Production.plain_of_names otherStore otherNamed, ?_⟩
    rw [named, otherNamed, Option.some.injEq]
    exact RuleNames.line_eq_iff readable otherReadable
  · intro session other collector otherCollector collects otherCollects
    obtain ⟨allNames, named, readable⟩ := exists_names listable
    obtain ⟨otherNames, otherNamed, otherReadable⟩ := exists_names otherListable
    refine
      ⟨_, _, collects.lists (plainAll_of_names _ named),
        otherCollects.lists (plainAll_of_names _ otherNamed), ?_⟩
    rw [named, otherNamed, RuleNames.lines_eq_iff readable otherReadable]
    exact (List.map_inj_right fun _ _ => Option.some.inj).symm

/-- A session with a collector that has collected some rules. -/
def ofCollection
    (rules : List Production) :
    Session :=
  create ⟨.empty, [], 0⟩
    [("collector", ⟨.none, .collector (rules.map Value.production)⟩)] []
    (.empty .none)

/-- Rules with an empty name, an arrow for a name, and an empty body. -/
def arrowRules : List Production :=
  [⟨Option.none, .nonterminal ⟨""⟩, [.text "", .nonterminal ⟨"->"⟩], .none⟩,
    ⟨Option.none, .nonterminal ⟨"->"⟩, [], .int 1⟩]

/-- The same names in symbols of other sorts, with another class and another index. -/
def arrowTwins : List Production :=
  [⟨some 0, .nonterminal ⟨""⟩, [.nonterminal ⟨""⟩, .text "->"], .none⟩,
    ⟨Option.none, .nonterminal ⟨"->"⟩, [], .none⟩]

theorem arrowRules_lines :
    (∀ rule ∈ arrowRules, rule.IsListable) ∧
      (∀ rule ∈ arrowTwins, rule.IsListable) ∧
      ∃ lines,
        (ofCollection arrowRules).Lists "collector" lines ∧
          (ofCollection arrowTwins).Lists "collector" lines := by
  have listable : ∀ rule ∈ arrowRules, rule.IsListable := by
    intro rule member
    simp only [arrowRules, List.mem_cons, List.not_mem_nil, or_false] at member
    rcases member with rfl | rfl
    · exact ⟨⟨"", ["", "->"]⟩, rfl, by decide, by decide⟩
    · exact ⟨⟨"->", []⟩, rfl, by decide, by decide⟩
  have twinsListable : ∀ rule ∈ arrowTwins, rule.IsListable := by
    intro rule member
    simp only [arrowTwins, List.mem_cons, List.not_mem_nil, or_false] at member
    rcases member with rfl | rfl
    · exact ⟨⟨"", ["", "->"]⟩, rfl, by decide, by decide⟩
    · exact ⟨⟨"->", []⟩, rfl, by decide, by decide⟩
  obtain ⟨lines, twinLines, lists, twinsList, agree⟩ :=
    (lines_determine_names listable twinsListable).2
      (ofCollection arrowRules) (ofCollection arrowTwins) "collector" "collector"
      ⟨.none, rfl⟩ ⟨.none, rfl⟩
  obtain rfl := agree.mpr rfl
  exact ⟨listable, twinsListable, lines, lists, twinsList⟩

end Session

end ShiftReduce
