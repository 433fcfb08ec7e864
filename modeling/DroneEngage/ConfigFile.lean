import DroneEngage.CommentRemoval
import DroneEngage.JsonText

/-!
# The configuration file

`CConfigFile` keeps the published configuration in memory and on disk.  An
update from the user interface is parsed, applied to the runtime and to the
base configuration, and the base is written back.  Both readers strip comments
from the text before they parse it.
-/

namespace DroneEngage

open CommentRemoval

/-- The members of `CConfigFile` that an update reads and writes, and the
contents of the file at `m_file_url`. -/
structure CConfigFile where
  configJSON : Json
  baseJSON : Json
  updatePending : Bool
  publishedFile : List Char
  deriving Inhabited

namespace CConfigFile

/-- Follow the parts of a dotted key, making objects where they are missing,
and write the value under the last part. -/
def assignPath : List String → Json → Json → Except JsonException Json
  | [], _, target => .ok target
  | [last], value, target => target.assignMember last value
  | part :: next :: rest, value, target => do
      let child := (target.member? part).getD (.object [])
      let assigned ← assignPath (next :: rest) value child
      target.assignMember part assigned

/-- The parts of a dotted key; empty parts are dropped. -/
def pathParts (key : String) : List String :=
  ((key.toList.splitOn '.').filter fun part => !part.isEmpty).map String.ofList

/-- One entry of an update.  A dotted key without any part is skipped. -/
def applyEntry (key : String) (value target : Json) : Except JsonException Json :=
  if '.' ∈ key.toList then assignPath (pathParts key) value target
  else target.assignMember key value

/-- `applyUpdateJSON`; the entries before one that throws stay applied. -/
def applyUpdateJSON (target : Json) :
    List (String × Json) → Json × Option JsonException
  | [] => (target, none)
  | (key, value) :: rest =>
      match applyEntry key value target with
      | .ok updated => applyUpdateJSON updated rest
      | .error exception => (target, some exception)

section Files

variable (library : JsonLibrary)

/-- `ParseData`; the process exits when the text does not parse. -/
def parseData (config : CConfigFile) (jsonString : List Char) : Option CConfigFile :=
  (library.parse (removeComments jsonString)).map fun document =>
    { config with configJSON := document }

/-- `saveConfigFile`; nothing is written when the file cannot be opened. -/
def saveConfigFile (writable : Bool) (config : CConfigFile) : CConfigFile :=
  if writable then
    { config with publishedFile := config.baseJSON.dump library (some 4) }
  else config

/-- What `updateJSON` does with a parsed update.  An exception ends it. -/
def applyParsedUpdate (writable : Bool) (config : CConfigFile) (updateJson : Json) :
    CConfigFile :=
  match applyUpdateJSON config.configJSON updateJson.items with
  | (runtime, some _) => { config with configJSON := runtime, updatePending := true }
  | (runtime, none) =>
      match applyUpdateJSON config.baseJSON updateJson.items with
      | (base, some _) =>
          { config with configJSON := runtime, baseJSON := base, updatePending := true }
      | (base, none) =>
          saveConfigFile library writable
            { config with configJSON := runtime, baseJSON := base, updatePending := true }

/-- `updateJSON`; a text that does not parse only sets the pending flag. -/
def updateJSON (writable : Bool) (config : CConfigFile) (jsonString : List Char) :
    CConfigFile :=
  match library.parse (removeComments jsonString) with
  | none => { config with updatePending := true }
  | some updateJson => applyParsedUpdate library writable config updateJson

end Files

end CConfigFile

end DroneEngage
