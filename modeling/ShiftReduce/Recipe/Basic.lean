import ShiftReduce.Value.Basic

namespace ShiftReduce

/-!
# Recipes

A recipe says how a value is to be made, without making it yet.  A step of a
session carries recipes, so that its values are made when the step takes place:
they may mention containers that have changed in the meantime, and making them
may fail.

The parts of a recipe are made from left to right.  A recipe may mention by name
what was defined before, and everyone who mentions a name gets the same thing.
-/

mutual

/-- How to make a value. -/
inductive Recipe where
  | ready (value : Value)
  | named (name : String)
  | list (items : List Recipe)
  | tuple (items : List Recipe)
  | dict (entries : List (Recipe × Recipe))
  | token (kind : String) (payload : Recipe)
  | symbol (content : Recipe)
  | tokenSymbol (content : Recipe)
  | nonterminalSymbol (content : Recipe)
  | bareSymbol
  | emptySymbol
  | rule (derived : Bool) (head body index : Recipe)
  | shift (lineage : Lineage) (nextState : Recipe)
  | reduce (lineage : Lineage) (production : Recipe)
  | table (actions gotos : List CellRecipe) (initial : Recipe)
  | plainTable (actions gotos : List CellRecipe) (initial : Recipe)
  | listingTable (actions gotos : List CellRecipe) (initial expected : Recipe)
  | rowTable (actions gotos : List RowRecipe) (initial : Recipe)

/-- How to make a cell of a table. -/
structure CellRecipe where
  state : Recipe
  column : Recipe
  entry : Recipe

/-- How to make a row of a table. -/
structure RowRecipe where
  state : Recipe
  entries : List (Recipe × Recipe)

end

end ShiftReduce
