import Playscript.Text.Quoted

/-!
# Faults

Everything that can go wrong, by cause. Data of a wrong shape is reported as a list of issues, each
with its place; all other faults end an operation at once.
-/
namespace Playscript

inductive Place where
  | key (name : String)
  | index (position : Int)
  deriving DecidableEq, Repr

inductive Defect where
  | missing
  | notModel
  | notRecord
  | notList
  | notText
  | notTruth
  | unreadableTruth
  | notInteger
  | unreadableInteger
  | oversizedInteger
  | fractionalInteger
  | notFinite
  | notTime
  | unreadableTime
  | outOfRangeTime
  | notName
  deriving DecidableEq, Repr

structure Issue where
  defect : Defect
  location : List Place
  deriving DecidableEq, Repr

def Issue.within (place : Place) (issue : Issue) : Issue :=
  ⟨issue.defect, place :: issue.location⟩

inductive Fault where
  | invalid (issues : List Issue)
  | oversizedNumber
  | unreadableNumber
  | notScript
  | missingKey
  | keysNotRecord
  | orderNotList
  | orderNotNames
  | unknownAct (name : String)
  | unknownStage (name : String)
  | unknownSetting (name : String)
  | notSeveral
  | notIndexed
  | notPair
  | notRecord
  | notWritable
  | notExtensible
  | notFunction
  | takenName (name : String)
  | sessionEnded
  | notMessage
  | unusableKey
  | noText
  | nothingToWrite
  | tooDeep
  | malformedText
  | notMapping
  | impossibleDate
  | unknownCharacter
  | overflow
  | missingFile (path : String)
  | isDirectory
  | nameTooLong
  | unusablePath
  | unusableVariable
  | invalidEncoding
  deriving DecidableEq, Repr

def Fault.message? : Fault → Option String
  | .unknownStage name =>
    some (String.ofList (Text.quoted name.toList) ++ " is not a valid HookName")
  | .missingFile path => some ("Scenario file not found: " ++ path)
  | .notMapping => some "Snapshot must be a YAML mapping"
  | _ => none

end Playscript
