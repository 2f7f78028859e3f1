import Playscript.Environment
import Playscript.Parser

/-!
# Libraries of scripts

A library is a directory of script files. A script is asked for by its name, the file name without
its ending.
-/
namespace Playscript

def Parser.ofFile (tree : FileTree) (path : FilePath) (settings : Value) :
    Except Fault Parser := do
  Parser.create (some (← tree.read path)) settings

def scriptPath (directory name : String) : FilePath :=
  (FilePath.ofString directory).within (FilePath.ofString (name ++ ".scenario"))

def Scenario.ofName (tree : FileTree) (env : Environment) (directory : Option String)
    (name : String) (settings : Value) : Except Fault Scenario := do
  let path := scriptPath (directory.getD env.scenarioDirectory) name
  return (← Parser.ofFile tree path settings).scenario

end Playscript
