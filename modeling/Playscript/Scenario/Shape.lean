import Playscript.DataModel
import Playscript.Scenario

/-!
# Scenarios as plain data

A scenario can be written as a record and read back. Reading checks every part and repairs the
order of the acts; parts that are not known are ignored.
-/
namespace Playscript

variable [DataModel]

namespace Act

def check (v : Value) : Check Act :=
  (DataModel.fields v).andThen fun r =>
    (Act.mk <$> DataModel.field "messages" [] (DataModel.list DataModel.record) r
      <*> DataModel.field "description" none (DataModel.optional DataModel.text) r
      <*> DataModel.field "has_placeholders" false DataModel.truth r
      <*> DataModel.field "placeholders" [] DataModel.record r
      <*> DataModel.field "config" [] DataModel.record r : Check Act)

def toValue (act : Act) : Value :=
  .dict [
    ("messages", .list (act.messages.map fun message => DataModel.plain (.dict message))),
    ("description", .ofText? act.description),
    ("has_placeholders", .bool act.hasPlaceholders),
    ("placeholders", DataModel.plain (.dict act.placeholders)),
    ("config", DataModel.plain (.dict act.config))]

end Act

namespace Scenario

def check (v : Value) : Check Scenario :=
  (DataModel.fields v).andThen fun r =>
    Check.andThen
      (Prod.mk <$> DataModel.field "acts" [] (DataModel.table Act.check) r
        <*> DataModel.field "config" [] DataModel.record r : Check (Table Act × Record))
      fun (acts, config) => ofParts acts config

def toValue (s : Scenario) : Value :=
  .dict [
    ("acts", .dict (s.acts.map fun entry => (entry.1, entry.2.toValue))),
    ("config", DataModel.plain (.dict s.config))]

end Scenario

end Playscript
