import QualityGate.Settings.Config
import QualityGate.Workspace.Tree
import QualityGate.Yaml.Printer
import QualityGate.Yaml.Value

/-! The configuration file. -/

namespace QualityGate.Config

open Schema

/-- A document whose value is empty configures nothing. -/
def isEmptyInput : Input → Bool
  | .null => true
  | .bool b => !b
  | .int n => n == 0
  | .float x => x == 0
  | .text s => s == ""
  | .bytes data => data.isEmpty
  | .illFormed _ => false
  | .list items | .set items => items.isEmpty
  | .table entries => entries.isEmpty
  | .foreign _ => false

def ofInput (v : Input) : Outcome Config :=
  (reader (if isEmptyInput v then .table [] else v)).toOutcome

/-- The number of bytes that are read at a time. -/
def pieceSize : Nat := 8192

def readPieces (w : Workspace) (p : Path) : Outcome (List Char) :=
  Workspace.decoded (w.readBytes p) (Text.Utf8.decodePieces pieceSize)

/-- The configuration in a file, or the usual one where there is no file. -/
def load (w : Workspace) (p : Path) : Outcome Config := do
  if w.contains p then ofInput (← Yaml.parse (← readPieces w p)) else .ok {}

def text (c : Config) : String :=
  match c.toJson with
  | .obj fields => Yaml.Printer.text fields
  | _ => ""

def save (c : Config) (p : Path) : Edit Unit := do
  Edit.change fun w => w.createDirectories p.parent
  Edit.change fun w => w.writeText p c.text

/-- Configurations that say the same; the order of their tables does not matter. -/
def sameAs (a b : Config) : Bool := a.pollInterval == b.pollInterval && a.text == b.text

/-- Where the gate keeps its files in a project. -/
def directory (root : Path) : Path := root.join (.ofText ".bastion")

def usualFile : Path := .ofText ".bastion/config.yaml"

/-- Creates the directory where the gate keeps its files. -/
def createDirectory (root : Path) : Edit Path := do
  Edit.change fun w => w.createDirectories (directory root)
  return directory root

end QualityGate.Config
