import DroneEngage.ConfigStore

/-!
# The local configuration file

`CLocalConfigFile` holds the settings of one device.  Its reader drops comments
and trailing commas before it parses.  The text it parses is the contents of a
string stream that every read appends to and nothing clears.
-/

namespace DroneEngage

open CommentRemoval

/-- `std::isspace` on a character of a text. -/
def isSpace (c : Char) : Bool :=
  c ∈ [' ', '\t', '\n', '\x0b', '\x0c', '\r']

/-- The characters of `cleaned` that go into `tolerant`: a comma before a closing
bracket is dropped, whatever it stands in. -/
def dropTrailingCommas : List Char → List Char
  | [] => []
  | c :: rest =>
      if c = ',' ∧ (rest.dropWhile isSpace).head? ∈ [some '\x7d', some ']'] then
        dropTrailingCommas rest
      else c :: dropTrailingCommas rest

/-- What `ParseData` hands to the parser. -/
def tolerantText (jsonString : List Char) : List Char :=
  dropTrailingCommas (removeComments jsonString)

/-- `erase(key)` on the members of an object. -/
def Json.eraseMember (document : Json) (key : String) : Json :=
  match document with
  | .object members => .object (members.filter fun entry => entry.1 ≠ key)
  | other => other

/-- `std::string(field)`: a C string ends at its first null. -/
def cString (field : String) : String :=
  String.ofList (field.toList.takeWhile (· ≠ '\x00'))

/-- The members of `CLocalConfigFile`, the state of its string stream, and the
files by their names.  `contentsFail` is the fail bit of `m_fileContents`. -/
structure CLocalConfigFile where
  fileURL : String
  fileContents : List Char
  contentsFail : Bool
  configJSON : Json
  parseFailed : Bool
  files : String → Option (List Char)

namespace CLocalConfigFile

def fresh (files : String → Option (List Char)) : CLocalConfigFile where
  fileURL := ""
  fileContents := []
  contentsFail := false
  configJSON := .null
  parseFailed := false
  files := files

/-- `m_fileContents << stream.rdbuf()`: a stream that has failed takes nothing,
and inserting nothing makes it fail. -/
def insertContents (config : CLocalConfigFile) (contents : List Char) : CLocalConfigFile :=
  if config.contentsFail then config
  else
    { config with
      fileContents := config.fileContents ++ contents
      contentsFail := contents.isEmpty }

section Files

variable (library : JsonLibrary)

/-- `WriteFile`, where the file can be opened. -/
def writeFile (fileURL : String) (config : CLocalConfigFile) : CLocalConfigFile :=
  { config with
    files := Function.update config.files fileURL
      (some (config.configJSON.dump library none)) }

/-- `ReadFile`; a file that is not there is created. -/
def readFile (fileURL : String) (config : CLocalConfigFile) : CLocalConfigFile :=
  match config.files fileURL with
  | some contents => config.insertContents contents
  | none =>
      (config.writeFile library fileURL).insertContents (config.configJSON.dump library none)

/-- `ParseData`; the process exits when the text does not parse. -/
def parseData (jsonString : List Char) (config : CLocalConfigFile) :
    Option CLocalConfigFile :=
  (library.parse (tolerantText jsonString)).map fun document =>
    { config with configJSON := document, parseFailed := false }

def initConfigFile (fileURL : String) (config : CLocalConfigFile) :
    Option CLocalConfigFile :=
  let read := readFile library fileURL { config with configJSON := .null, fileURL := fileURL }
  parseData library read.fileContents read

def apply (config : CLocalConfigFile) : CLocalConfigFile :=
  if config.parseFailed then config else config.writeFile library config.fileURL

end Files

inductive FieldCall
  | addStringField (field value : String)
  | modifyStringField (field newValue : String)
  | addNumericField (field : String) (value : UInt32)
  | addDoubleField (field : String) (value : Double)
  | removeFieldByName (fieldName : String)

/-- `m_ConfigJSON[std::string(field)] = value` -/
def assignField (field : String) (value : Json) (document : Json) :
    Except JsonException Json :=
  document.assignMember (cString field) value

def addStringField (field value : String) : Json → Except JsonException Json :=
  assignField field (.string (cString value))

/-- `ModifyStringField` assigns the field whether it was there or not. -/
def modifyStringField (field newValue : String) (document : Json) :
    Except JsonException Json :=
  if document.contains (cString field) then
    assignField field (.string (cString newValue)) document
  else assignField field (.string (cString newValue)) document

def addNumericField (field : String) (value : UInt32) : Json → Except JsonException Json :=
  assignField field (.numberUnsigned value.toUInt64)

def addDoubleField (field : String) (value : Double) : Json → Except JsonException Json :=
  assignField field (.numberFloat value)

def removeFieldByName (fieldName : String) (document : Json) : Json :=
  if document.contains (cString fieldName) then document.eraseMember (cString fieldName)
  else document

def FieldCall.run : FieldCall → Json → Except JsonException Json
  | .addStringField field value => CLocalConfigFile.addStringField field value
  | .modifyStringField field newValue => CLocalConfigFile.modifyStringField field newValue
  | .addNumericField field value => CLocalConfigFile.addNumericField field value
  | .addDoubleField field value => CLocalConfigFile.addDoubleField field value
  | .removeFieldByName fieldName => fun document =>
      .ok (CLocalConfigFile.removeFieldByName fieldName document)

def step (config : CLocalConfigFile) (call : FieldCall) : Option CLocalConfigFile :=
  match call.run config.configJSON with
  | .ok document => some { config with configJSON := document }
  | .error _ => none

end CLocalConfigFile

end DroneEngage
