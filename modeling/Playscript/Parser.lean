import Playscript.Compiler

/-!
# Parsers

A parser holds settings and may hold a script of its own. Its own script changes the settings of
the parser when it is compiled; any other text is compiled under a copy of them.
-/
namespace Playscript

structure Parser where
  settings : Record
  source : Option String
  scenario : Scenario

namespace Parser

/-- Compiles the parser's own script. Without one, or with an empty one, the scenario stays. -/
def parseOwn (parser : Parser) : Except Fault Scenario × Parser :=
  match parser.source.filter (· ≠ "") with
  | none => (.ok parser.scenario, parser)
  | some text =>
    match Compiler.compile text parser.settings with
    | (.ok scenario, settings) =>
      (.ok scenario, { parser with scenario := scenario, settings := settings })
    | (.error fault, settings) => (.error fault, { parser with settings := settings })

def parse (parser : Parser) (text : Option String) : Except Fault Scenario × Parser :=
  match text.filter (· ≠ "") with
  | none => parser.parseOwn
  | some text => ((Compiler.compile text parser.settings).1, parser)

def create (source : Option String) (settings : Value) : Except Fault Parser := do
  let settings ← Settings.overlayGiven (.dict Settings.defaults) settings
  let (result, parser) := parseOwn ⟨settings, source, .empty⟩
  let _ ← result
  return parser

def scriptOf (v : Value) : Except Fault (Option String) :=
  match v with
  | .str script => .ok (some script)
  | v => if v.truthy then .error .notScript else .ok none

/-- A parser of a script and settings, or of settings alone: a record in place of the script is the
settings. -/
def ofGiven (script settings : Value) : Except Fault Parser :=
  match script with
  | .dict entries => create none (.dict entries)
  | script => do
    let _ ← Settings.overlayGiven (.dict Settings.defaults) settings
    create (← scriptOf script) settings

end Parser

end Playscript
