import Playscript.Session.Basic

/-!
# Transcripts

The history is printed in blocks. A block starts with the role, and the content is indented under
it.
-/
namespace Playscript.Session

def indent (content : List Char) : List Char :=
  content.flatMap fun c => if c = '\n' then ['\n', '\t'] else [c]

def isSkipped (skipped role : Value) : Except Fault Bool :=
  match skipped with
  | .str name => .ok (role.equal (.str name))
  | .list roles | .tuple roles => .ok (roles.any (role.equal ·))
  | .dict entries =>
    if role.isKey then .ok (entries.any fun entry => role.equal (.str entry.1))
    else .error .unusableKey
  | _ => .error .notSeveral

def printMessage (roleKey contentKey : String) (skipped : Value) (message : Value) :
    Except Fault (Option (List Char)) :=
  match message with
  | .dict entries => do
    let role := (Table.get? entries roleKey).getD .null
    if ← isSkipped skipped role then return none
    let content := Staging.textAt entries contentKey
    return some (role.text ++ ':' :: '\n' :: '\t' :: indent content)
  | _ => .error .notMessage

def printMessages (roleKey contentKey : String) (skipped : Value) (messages : List Value) :
    Except Fault (List Char) := do
  let blocks ← messages.mapM (printMessage roleKey contentKey skipped)
  return ['\n', '\n'].intercalate (blocks.filterMap id)

def printHistory (skipped : Value) : Play (Option String) := do
  match (← get).current? with
  | none => return none
  | some (staging, progress) =>
    let history ← runHooks .beforePrintHistory progress.history
    let messages ← ofExcept history.several
    let text ← ofExcept (printMessages staging.roleKey staging.contentKey skipped messages)
    return some (String.ofList text)

end Playscript.Session
