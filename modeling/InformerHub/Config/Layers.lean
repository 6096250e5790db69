import InformerHub.Config.Fields
import InformerHub.Config.Location
import InformerHub.Config.Path
import InformerHub.Toml.Reader

/-!
# Layered configuration

Settings come from a base, a file over it and environment variables over both.  The layers are
merged leaf by leaf before anything is read as a number, so a file that names one field of a
section leaves the others as they were.  Names are compared in lower case.
-/

namespace InformerHub

open Text

namespace Layer

/-- A layer over a document: each entry under the path that its name stands for. -/
def apply (target : Document) (entries : List (String × Document)) :
    Except ConfigError Document :=
  entries.foldlM (fun d e => Document.place e.2 (SettingPath.ofName e.1) d) target

/-! ## Environment variables -/

/-- Two underscores in a row separate the parts of a variable's name. -/
def dotted : List Char → List Char
  | '_' :: '_' :: cs => '.' :: dotted cs
  | c :: cs => c :: dotted cs
  | [] => []

/-- A variable's text as the value it looks like. -/
def variableValue (s : String) : Document :=
  if lowercase s = "true" then .bool true
  else if lowercase s = "false" then .bool false
  else match signed? s with
    | some n => .integer n
    | none => match float? s with
      | some x => .float x
      | none => .text s

/-- The layer of the variables whose names start with `root` and two underscores.  An empty
variable counts as unset. -/
def ofVariables (root : String) (env : List (String × String)) :
    List (String × Document) :=
  let start := (lowercase root).toList ++ ['_', '_']
  env.filterMap fun (name, text) =>
    let cs := (lowercase name).toList
    if text ≠ "" && start.isPrefixOf cs then
      some (String.ofList (dotted (cs.drop start.length)), variableValue text)
    else none

/-! ## Files -/

/-- The text of the file at a location. -/
def fileText? (files : List (String × String)) (place? : Option Location) : Option String :=
  place?.bind fun place =>
    (files.find? fun f => Location.ofPath? f.1.toList = some place).map Prod.snd

/-- The extension of configuration files. -/
def fileExtension : List Char := "toml".toList

/-- The text of the file that a name means: the file of exactly that name, or the one with the
format's extension behind it. -/
def textOf (files : List (String × String)) (name : String) : Except ConfigError String :=
  let named := Location.ofPath? name.toList
  match fileText? files named with
  | some text =>
    if named.map Location.extension = some fileExtension then .ok text
    else .error (.unknownFormat name)
  | none =>
    match fileText? files (Location.withExtension? fileExtension name.toList) with
    | some text => .ok text
    | none => .error (.fileNotFound name)

/-- The layer of the file that a name means.  A byte order mark in front of the text is no part of
it; the format allows one more. -/
def ofFile (files : List (String × String)) (name : String) :
    Except ConfigError (List (String × Document)) := do
  match Toml.parse? (String.ofList (Toml.withoutMark (← textOf files name))) with
  | some entries => .ok entries
  | none => .error .malformedFile

end Layer

/-- Where layers come from: the files at hand and the environment variables. -/
structure Surroundings where
  files : List (String × String)
  env : List (String × String)
  /-- What the names of variables with settings start with. -/
  root : String
  /-- The variable that names the configuration file. -/
  pathVariable : String

namespace Settings

/-- The greatest number that a layer can hold. -/
def maxLeaf : Nat := Text.signedBound - 1

/-- Settings as the lowest layer. -/
def asLayer (s : Settings) : Except ConfigError Document :=
  match s.leaves.find? fun l => maxLeaf < l.2.toNat with
  | some l => .error (.message ("value " ++ toString l.2.toNat ++ " is greater than the max " ++
      toString maxLeaf))
  | none => .ok s.toDocument

/-- The settings that a base, files and the environment add up to. -/
def layered (around : Surroundings) (base : Settings) (file? : Option String) :
    Except ConfigError Settings := do
  let bottom ← base.asLayer
  let middle ← match file? with
    | some name => Layer.apply bottom (← Layer.ofFile around.files name)
    | none => .ok bottom
  let top ← Layer.apply middle (Layer.ofVariables around.root around.env)
  Settings.ofDocument .lenient top

/-- The settings of a process: the defaults, the file that the environment names, the
environment. -/
def load (around : Surroundings) : Except ConfigError Settings :=
  layered around .standard
    ((around.env.find? fun v => v.1 = around.pathVariable).map Prod.snd)

/-- Settings with one more file over them, and the environment over both. -/
def withOverride (s : Settings) (around : Surroundings) (file : String) :
    Except ConfigError Settings :=
  layered around s (some file)

end Settings

end InformerHub
