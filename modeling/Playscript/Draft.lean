import Playscript.Scenario
import Playscript.Sharing

/-!
# Drafts

A draft is what is being compiled: the scenario so far and the settings of the language in force.
A change of the settings is recorded in the scenario under `parser_overrides`. A record that is
stored in both places at once is one part of the two, and later writes below it show in both.
-/
namespace Playscript

/-- The scenario so far, the settings in force, the paths of the parts that the settings and the
recorded overrides have in common, and all writes to the settings in order. -/
structure Draft where
  scenario : Scenario
  settings : Record
  shared : List Path
  written : List (Path × Value)

abbrev Drafting := EStateM Fault Draft

namespace Draft

def start (scenario : Scenario) (settings : Record) : Draft := ⟨scenario, settings, [], []⟩

def overridesKey : String := "parser_overrides"

def storeConfig (draft : Draft) (path : Path) (value : Value) : Draft :=
  { draft with
    scenario := { draft.scenario with config := Path.set draft.scenario.config path value } }

def storeSetting (draft : Draft) (path : Path) (value : Value) : Draft :=
  { draft with
    settings := Path.set draft.settings path value
    written := draft.written ++ [(path, value)] }

/-- Writes into the settings of the scenario, and below a part of the overrides that is shared also
into those of the language. -/
def setConfig (draft : Draft) (path : Path) (value : Value) : Draft :=
  let draft := draft.storeConfig path value
  match path with
  | [] => draft
  | first :: inner =>
    if first = overridesKey then
      let after := if Sharing.reaches draft.shared inner then draft.storeSetting inner value
        else draft
      { after with shared := if inner = [] then [] else Sharing.keep draft.shared inner }
    else draft

def setSetting (draft : Draft) (path : Path) (value : Value) : Draft :=
  let written := draft.storeSetting path value
  let after := if Sharing.reaches draft.shared path
    then written.storeConfig (overridesKey :: path) value else written
  { after with shared := Sharing.keep draft.shared path }

def override (draft : Draft) (path : Path) (value : Value) : Draft :=
  let draft := (draft.setSetting path value).setConfig (overridesKey :: path) value
  -- A record is one and the same in both places from then on.
  match path, value with
  | _ :: _, .dict _ => { draft with shared := path :: draft.shared }
  | _, _ => draft

end Draft

end Playscript
