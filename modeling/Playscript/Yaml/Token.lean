import Playscript.Fault

/-!
# Tokens of a document

A document is made of scalars, indicators, and marks for the structure that indentation gives: where
a block list or block record starts and where it ends.
-/
namespace Playscript.Yaml

inductive Token where
  | documentStart
  | documentEnd
  | listStart
  | recordStart
  | blockEnd
  | openList
  | closeList
  | openRecord
  | closeRecord
  | comma
  | item
  | key
  | value
  | scalar (text : List Char) (plain : Bool)
  | broken (fault : Fault)
  deriving DecidableEq, Repr

end Playscript.Yaml
