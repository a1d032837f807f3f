import ShiftReduce.Text.Quoted
import ShiftReduce.Value.Basic

namespace ShiftReduce

/-!
# Showing values

Every value has a shown form, `Value.shown`, in which texts stand between
quotation marks, and a plain form, `Value.plain`, in which a text stands for
itself.  The two differ for texts alone.  Rules and actions show their parts in
the plain form, so that a rule reads `E -> E plus T`.

Some of these texts have a single gap: the head of a rule with an empty body,
and the rule of a reduction.  A tuple fills the gaps of a text with its members,
so it fits a single gap only if it has a single member, and any other tuple is a
misfit.  Showing a value fails with the first misfit that comes up.

A container that mentions itself shows dots where it comes up again.

Two limits of an interpreter are idealised away.  A value shows however deep it
is nested, where an interpreter gives up when its stack is exhausted, and a
number shows with all its digits, where an interpreter may be set to refuse
numbers of more than so many.
-/

/-- How a tuple fails to fill the single gap of a text. -/
inductive Misfit where
  | tooFew
  | tooMany
  deriving Repr, DecidableEq

/-- A text, or the misfit that kept it from being made. -/
abbrev Rendering := Except Misfit String

/-- The wording of a misfit. -/
def Misfit.message :
    Misfit → String
  | .tooFew => "not enough arguments for format string"
  | .tooMany => "not all arguments converted during string formatting"

namespace Rendering

/-- All texts in order, up to the first misfit. -/
def inOrder :
    List Rendering → Except Misfit (List String)
  | [] => .ok []
  | rendering :: rest => do
      let text ← rendering
      let texts ← inOrder rest
      return text :: texts

/-- What the members of a tuple put into a single gap; the first is tried in any case. -/
def fillGap :
    List Rendering → Rendering
  | [] => .error .tooFew
  | [member] => member
  | member :: _ => do
      let _ ← member
      .error .tooMany

end Rendering

/-- The shown form of a rule without symbols in its body. -/
def emptyBody : String := "ε"

/-- The shown form of a tuple: a single member keeps a comma behind it. -/
def tupleText :
    List String → String
  | [member] => "(" ++ member ++ ",)"
  | members => "(" ++ ", ".intercalate members ++ ")"

/-- A rule, given the texts of its head and of its body's entries. -/
def ruleText
    (head : String)
    (body : List String) :
    String :=
  if body.isEmpty then
    head ++ " -> " ++ emptyBody
  else
    head ++ " -> " ++ " ".intercalate body

/-- What a container shows for itself where it comes up inside itself. -/
def ContainerSort.dots :
    ContainerSort → String
  | .list => "[...]"
  | .tuple => "(...)"
  | .dict => "\x7b...\x7d"

/-- A text stands for itself, any other value for the form given. -/
def Value.plainOr
    (shown : Rendering) :
    Value → Rendering
  | .text content => .ok content
  | _ => shown

mutual

/-- The form of a value in which texts stand between quotation marks. -/
def Value.shown :
    Value → Rendering
  | .none => .ok "None"
  | .bool true => .ok "True"
  | .bool false => .ok "False"
  | .int number => .ok (toString number)
  | .text content => .ok (Text.quoted content)
  | .list items => do
      let texts ← Rendering.inOrder (Value.shownEach items)
      return "[" ++ ", ".intercalate texts ++ "]"
  | .tuple items => do
      let texts ← Rendering.inOrder (Value.shownEach items)
      return tupleText texts
  | .dict entries => do
      let texts ← Rendering.inOrder (Value.shownEntries entries)
      return "\x7b" ++ ", ".intercalate texts ++ "\x7d"
  | .shared sort _ => .ok sort.dots
  | .token carried => carried.shown
  | .nonterminal carried => .ok carried.name
  | .symbol carried => carried.shown
  | .production carried => carried.shown
  | .action carried => carried.shown
  | .table carried => .ok ("<" ++ carried.typeName ++ ">")
termination_by structural value => value

/-- The shown forms of several values. -/
def Value.shownEach :
    List Value → List Rendering
  | [] => []
  | value :: rest => value.shown :: Value.shownEach rest
termination_by structural values => values

/-- The plain forms of several values. -/
def Value.plainEach :
    List Value → List Rendering
  | [] => []
  | value :: rest => value.plainOr value.shown :: Value.plainEach rest
termination_by structural values => values

/-- The plain forms of the members of a tuple. -/
def Value.membersPlain :
    Value → List Rendering
  | .tuple items => Value.plainEach items
  | _ => []
termination_by structural value => value

/-- The shown forms of the entries of a dictionary. -/
def Value.shownEntries :
    List (Value × Value) → List Rendering
  | [] => []
  | (key, value) :: rest =>
      (do
        let keyText ← key.shown
        let valueText ← value.shown
        return keyText ++ ": " ++ valueText) ::
        Value.shownEntries rest
termination_by structural entries => entries

/-- A token shows its kind, and its payload unless that is nothing. -/
def Token.shown :
    Token → Rendering
  | ⟨_, kind, value⟩ =>
      if value.isNone then
        .ok ("<" ++ kind ++ ">")
      else do
        let text ← value.shown
        return "<" ++ kind ++ " " ++ text ++ ">"
termination_by structural token => token

/-- A symbol shows what it wraps. -/
def Symbol.shown :
    Symbol → Rendering
  | .token wrapped => wrapped.shown
  | .nonterminal wrapped => .ok wrapped.name
  | .bare _ => .ok "bare"
termination_by structural symbol => symbol

/--
A rule shows its head, an arrow and the entries of its body.

The entries come up before the head.  A rule with an empty body has a single
gap, which its head fills.
-/
def Production.shown :
    Production → Rendering
  | ⟨_, head, [], _⟩ => do
      let headText ←
        if head.isTuple then
          Rendering.fillGap head.membersPlain
        else
          head.plainOr head.shown
      return ruleText headText []
  | ⟨_, head, body, _⟩ => do
      let bodyTexts ← Rendering.inOrder (Value.plainEach body)
      let headText ← head.plainOr head.shown
      return ruleText headText bodyTexts
termination_by structural production => production

/--
A shift and a reduction show what they carry, whatever their kind, and a reduction's rule
fills a single gap.  Any other action shows its kind.
-/
def Action.shown :
    Action → Rendering
  | .shift _ nextState => do
      let text ← nextState.shown
      return "[shift " ++ text ++ "]"
  | .reduce _ production => do
      let text ←
        if production.isTuple then
          Rendering.fillGap production.membersPlain
        else
          production.plainOr production.shown
      return "[reduce " ++ text ++ "]"
  | .accept lineage => .ok ("[" ++ (Action.accept lineage).kind ++ "]")
  | .error lineage => .ok ("[" ++ (Action.error lineage).kind ++ "]")
  | .unknown lineage => .ok ("[" ++ (Action.unknown lineage).kind ++ "]")
termination_by structural action => action

end

/-- The form of a value in which a text stands for itself. -/
def Value.plain
    (value : Value) :
    Rendering :=
  value.plainOr value.shown

/-- What a value puts into a single gap for shown forms: a tuple its members. -/
def Value.shownInGap :
    Value → Rendering
  | .tuple items => Rendering.fillGap (Value.shownEach items)
  | other => other.shown

/-- The shown forms of several values, up to the first misfit. -/
def Value.shownAll
    (values : List Value) :
    Except Misfit (List String) :=
  Rendering.inOrder (Value.shownEach values)

/-- The plain forms of several values, up to the first misfit. -/
def Value.plainAll
    (values : List Value) :
    Except Misfit (List String) :=
  Rendering.inOrder (Value.plainEach values)

end ShiftReduce
