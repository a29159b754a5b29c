import Covenant.Dotenv
import Covenant.Files
import Covenant.Settings.Error

namespace Covenant.Settings

inductive LoadStep where
  | preset (settings : Settings)
  | text (content format : String)
  | file (path : String)
  | optionalFile (path : String)
  | environment (pre : String)
  | dotenv
  | dotenvFile (path : String)

structure Loading where
  settings : Settings
  pre : Option String
  environment : Environment

namespace Loading

def start (e : Environment) : Loading := ⟨.default, none, e⟩

def defaultPrefix : String := "MIYABI"

def dotenvName : String := ".env"

def layer (l : Loading) (f : Format) (text : String) : Except LoadError Loading :=
  match l.settings.withLayer f text with
  | .ok s => .ok { l with settings := s }
  | .error f => .error (.malformed f)

def layerText (l : Loading) (content format : String) : Except LoadError Loading :=
  let name := Text.lower format
  match Format.ofName? name with
  | some f => l.layer f content
  | none => .error (.unknownFormat name)

def fileFormat? (path : String) : Option Format :=
  (Text.extension? path).bind fun e => Format.ofName? (Text.lower e)

def layerFile (l : Loading) (path : String) (node : FileNode) : Except LoadError Loading :=
  match node.text? with
  | none => .error (.unreadable path)
  | some text =>
    match fileFormat? path with
    | some f => l.layer f text
    | none => .error (.unknownFileFormat path)

def loadVariables (l : Loading) (node : FileNode) : Except LoadError Loading :=
  match node.text?.bind (Dotenv.load? l.environment) with
  | some e => .ok { l with environment := e }
  | none => .error .malformedVariables

/-- A preset replaces everything, a text or file is laid over what there is, and files of variables
fill the environment. -/
def step (d : Directory) (l : Loading) : LoadStep → Except LoadError Loading
  | .preset s => .ok { l with settings := s }
  | .text content format => l.layerText content format
  | .file path =>
    match d.find? path with
    | some node => l.layerFile path node
    | none => .error (.fileNotFound path)
  | .optionalFile path =>
    match d.find? path with
    | some node => l.layerFile path node
    | none => .ok l
  | .environment pre => .ok { l with pre := some (Text.upper pre) }
  | .dotenv =>
    match d.find? dotenvName with
    | some (.file content) => l.loadVariables (.file content)
    | _ => .ok l
  | .dotenvFile path =>
    match d.find? path with
    | some node => l.loadVariables node
    | none => .error .malformedVariables

/-- All steps, or how many were done when one failed. -/
def run (d : Directory) (l : Loading) : List LoadStep → Except (Nat × LoadError) Loading
  | [] => .ok l
  | s :: rest =>
    match l.step d s with
    | .error e => .error (0, e)
    | .ok l' =>
      match l'.run d rest with
      | .error (done, e) => .error (done + 1, e)
      | .ok r => .ok r

/-- Variables with the prefix asked for last are applied, and then the settings are checked. -/
def finish (l : Loading) : Except LoadError Settings := do
  let s ← match l.pre with
    | none => pure l.settings
    | some pre =>
      match l.settings.withVariables pre l.environment.entries with
      | .ok s => pure s
      | .error (name, expected) => .error (.badVariable name expected)
  match s.fault? with
  | some fault => .error (.invalid fault)
  | none => return s

end Loading

end Covenant.Settings
