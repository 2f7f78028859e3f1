import Playscript.Number.Shortest
import Playscript.Text.Quoted
import Playscript.Value

/-!
# Values as text

A value is shown in two ways. Its literal quotes texts and shows what the value holds; its
plain text differs from the literal only in that a text stands for itself.
-/
namespace Playscript

namespace Value

mutual

def literal : Value → List Char
  | .null => ['N', 'o', 'n', 'e']
  | .bool true => ['T', 'r', 'u', 'e']
  | .bool false => ['F', 'a', 'l', 's', 'e']
  | .int n => Text.decimal n
  | .float x => x.text
  | .str s => Text.quoted s.toList
  | .list items => '[' :: ([',', ' '].intercalate (literalItems items) ++ [']'])
  | .tuple [v] => '(' :: (literal v ++ [',', ')'])
  | .tuple items => '(' :: ([',', ' '].intercalate (literalItems items) ++ [')'])
  | .dict entries => '\x7b' :: ([',', ' '].intercalate (literalEntries entries) ++ ['\x7d'])

def literalItems : List Value → List (List Char)
  | [] => []
  | v :: vs => literal v :: literalItems vs

def literalEntries : List (String × Value) → List (List Char)
  | [] => []
  | (key, v) :: es => (Text.quoted key.toList ++ ':' :: ' ' :: literal v) :: literalEntries es

end

def text : Value → List Char
  | .str s => s.toList
  | v => v.literal

mutual

/-- The text that a value puts into a message: truth values in lower case, the items of a list or
tuple joined by commas, all else as plain text. -/
def render : Value → List Char
  | .bool true => ['t', 'r', 'u', 'e']
  | .bool false => ['f', 'a', 'l', 's', 'e']
  | .list items | .tuple items => [','].intercalate (renderItems items)
  | v => v.text

def renderItems : List Value → List (List Char)
  | [] => []
  | v :: vs => render v :: renderItems vs

end

@[simp] theorem text_str (s : String) : text (.str s) = s.toList := rfl

@[simp] theorem render_str (s : String) : render (.str s) = s.toList := by
  simp [render]

theorem renderItems_eq_map (items : List Value) : renderItems items = items.map render := by
  induction items with
  | nil => simp [renderItems]
  | cons v vs ih => simp [renderItems, ih]

end Value

end Playscript
