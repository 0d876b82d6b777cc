import CollectionRun.Journal
import CollectionRun.Template.Render
import CollectionRun.Text.Search

namespace CollectionRun

namespace DisplayName

/-- The characters of a collection's display name: slashes become underscores, and the name goes
up to the first dot, or to the second if the first stands in front. -/
def ofChars (cs : List Char) : List Char :=
  match Text.splitAt '.' (cs.map fun c => if c = '/' then '_' else c) with
  | [] :: part :: _ => part
  | part :: _ => part
  | [] => []

def ofCollection (collection : String) : String := String.ofList (ofChars collection.toList)

end DisplayName

namespace Config

def templateContext (c : Config) (getenv : String → Option String) : Template.Context where
  displayName := DisplayName.ofCollection (c.get .collection)
  collection := c.get .collection
  config := c
  getenv := getenv

end Config

namespace RunOptions

def resolveOne (context : Template.Context) (source : String) : Except Failure String :=
  match Template.read source with
  | .error fault => .error ⟨.templateUnread, [.templateSyntax fault]⟩
  | .ok t =>
    match t.render context with
    | .error (.fault fault) => .error ⟨.templateUnrendered, [.templateRender fault]⟩
    | .error .overlong => .error .overlong
    | .ok text => .ok text

def resolveAll (context : Template.Context) : List String → Except Failure (List String)
  | [] => .ok []
  | source :: rest => do
    let text ← resolveOne context source
    let texts ← resolveAll context rest
    return text :: texts

def resolve (c : Config) (getenv : String → Option String) : Except Failure (List String) :=
  resolveAll (c.templateContext getenv) (c.get .runOptions)

def resolving {σ : Type} (c : Config) (getenv : String → Option String) : Act σ (List String) := do
  let options ← resolve c getenv
  Act.note [.optionsResolved options]
  return options

end RunOptions

end CollectionRun
