import PartnerChains.Library.Json

/-!
# Fields of configuration files

A field is found under a path of names in the JSON value of a configuration file. The file is read
and written as a whole.
-/

namespace PartnerChains.Cli

/-! ## Files -/

inductive ConfigFile where
  | chain
  | resources
  deriving DecidableEq

inductive StoredFile (Text : Type) where
  | text (content : Text)
  | notUtf8
  | unreadable

/-- The environment variables and the files of a run, and which files can be written. -/
structure IOContext (Text : Type) where
  envVar : String → Option String
  files : String → Option (StoredFile Text)
  writable : String → Bool

namespace IOContext

variable {Text : Type}
variable (context : IOContext Text)

def configFilePath : ConfigFile → String
  | .chain => (context.envVar "PC_CHAIN_CONFIG_PATH").getD "pc-chain-config.json"
  | .resources => (context.envVar "PC_RESOURCES_CONFIG_PATH").getD "pc-resources-config.json"

def fileExists (path : String) : Bool :=
  (context.files path).isSome

def readFile (path : String) : Except Panic (Option Text) :=
  match context.files path with
  | some (.text content) => .ok (some content)
  | some .notUtf8 => .error ⟨s!"Failed to convert file from UTF-8: {path}"⟩
  | some .unreadable => .ok none
  | none => .ok none

def store (path : String) (content : Text) :
    IOContext Text :=
  { context with files := Function.update context.files path (some (.text content)) }

def writeFile (path : String) (content : Text) :
    Except Panic (IOContext Text) :=
  if context.writable path then .ok (context.store path content)
  else .error ⟨s!"Failed to write file: {path}"⟩

end IOContext

/-! ## Paths -/

def valueAt : (path : List String) → Json → Option Json
  | [], json => some json
  | field :: path, json => (json.get field).bind (valueAt path)

/-- The member with a name, or an empty object in the place of anything else. -/
def objectMember (head : Json) (field : String) : Json :=
  ((head.get field).filter Json.isObject).getD (.object [])

/-- Each name is first assigned its object, and then what is saved inside of it. The value is
computed at the end of the path. -/
def saveAt (value : Except Panic Json) : (path : List String) → Json → Except Panic Json
  | [], _ => value
  | field :: path, head => do
      let head' ← head.set field (objectMember head field)
      let inner ← saveAt value path (objectMember head field)
      head'.set field inner

/-! ## Fields -/

/-- The reason for which the wizard ends early: it panics, or it prints a message and exits. -/
inductive Abort where
  | panic (panic : Panic)
  | exit (code : ℤ) (printed : String)
  deriving DecidableEq

/-- How values of a type are turned into JSON and read from it. -/
structure Serde (T : Type) where
  toValue : T → Except String Json
  wellFormed_toValue : ∀ {value json}, toValue value = .ok json → json.WellFormed
  fromValue : Json → Option T

structure ConfigFieldDefinition where
  configFile : ConfigFile
  path : List String

namespace ConfigFieldDefinition

variable {Text T : Type} (format : JsonFormat Text) (serde : Serde T)
variable (field : ConfigFieldDefinition)

/-- The whole content of the file; nothing if there is no file. -/
def loadFile (context : IOContext Text) :
    Except Abort (Option Json) :=
  let path := context.configFilePath field.configFile
  if context.fileExists path then do
    let content ← (context.readFile path).mapError .panic
    match content.bind format.fromStr with
    | some value => .ok (some value)
    | none => .error (.exit (-1)
        s!"Config file {path} is broken. Delete it or fix manually and restart this wizard")
  else .ok none

def extractFromJsonObject (json : Json) : Option T :=
  (valueAt field.path json).bind serde.fromValue

def loadFromFile (context : IOContext Text) :
    Except Abort (Option T) := do
  let json ← field.loadFile format context
  .ok (json.bind (field.extractFromJsonObject serde))

def saveToFile (value : T) (context : IOContext Text) :
    Except Abort (IOContext Text) := do
  let json ← field.loadFile format context
  let value := (serde.toValue value).mapError fun error =>
    Panic.mk s!"called `Result::unwrap()` on an `Err` value: {error}"
  let json ← (saveAt value field.path (json.getD (.object []))).mapError .panic
  (context.writeFile (context.configFilePath field.configFile)
    (format.toStringPretty json)).mapError .panic

/-- A value that is already there is returned in the place of the given one. -/
def saveIfEmpty (value : T) (context : IOContext Text) :
    Except Abort (T × IOContext Text) := do
  match ← field.loadFromFile format serde context with
  | some value => .ok (value, context)
  | none =>
      let context ← field.saveToFile format serde value context
      .ok (value, context)

end ConfigFieldDefinition

/-! ## Fields of the wizard -/

def cardanoDataSource : ConfigFieldDefinition := ⟨.resources, ["cardano_data_source"]⟩

end PartnerChains.Cli
