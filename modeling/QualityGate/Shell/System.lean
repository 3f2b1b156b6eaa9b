import QualityGate.Text.Utf8
import QualityGate.Workspace.Tree

/-! The bytes that programs work on, and the files that they see: those of a
workspace, and a few that every system has. -/

namespace QualityGate.Shell

/-! Bytes. The texts of a shell hold one of them in each character. -/

abbrev Bytes := List UInt8

def bytesOf (s : String) : Bytes := s.toList.map fun c => UInt8.ofNat c.toNat

def textOf (b : Bytes) : String := String.ofList (b.map fun b => Char.ofNat b.toNat)

/-- The bytes of a text, as a text. -/
def spelled (s : String) : String := textOf s.toUTF8.toList

/-- The text that some bytes spell. -/
def unspelled (s : String) : String := String.ofList (Text.Utf8.decodeReplacing (bytesOf s))

/-- Lines with the line feeds that end them. -/
def lines (b : Bytes) : List Bytes :=
  let (current, done) := b.foldl (fun ((current, done) : Bytes × List Bytes) c =>
    if c == 10 then ([], (c :: current).reverse :: done) else (c :: current, done)) ([], [])
  (if current.isEmpty then done else current.reverse :: done).reverse

/-- A line without the line feed that ends it. -/
def content (line : Bytes) : Bytes := if line.getLast? == some 10 then line.dropLast else line

/-- Lines as texts, without their line feeds. -/
def textLines (b : Bytes) : List String := (lines b).map fun l => textOf (content l)

/-! Files. -/

inductive Node where
  | file (data : Bytes) (executable : Bool)
  | directory
  /-- Empty, and takes everything. -/
  | null
  /-- Zeros without end. -/
  | zeros
  /-- A program of the system. -/
  | program (name : String)

namespace System

def programDirectories : List String := ["/usr/bin", "/bin"]

def directories : List String :=
  ["/", "/usr", "/tmp", "/etc", "/dev", "/var", "/home", "/root", "/proc", "/usr/lib", "/lib", "/usr/local",
    "/usr/local/bin", "/usr/sbin", "/sbin"] ++ programDirectories

def programs : List String :=
  ["[", "arch", "b2sum", "base32", "base64", "basename", "basenc", "bash", "cat", "chgrp", "chmod", "chown", "cksum",
    "comm", "cp", "csplit", "cut", "dash", "date", "dd", "df", "dir", "dircolors", "dirname", "du", "echo", "env",
    "expand", "expr", "factor", "false", "find", "fmt", "fold", "git", "grep", "groups", "gzip", "head", "hostid",
    "hostname", "id", "install", "join", "kill", "link", "ln", "logname", "ls", "md5sum", "mkdir", "mkfifo", "mknod",
    "mktemp", "mv", "nice", "nl", "nohup", "nproc", "numfmt", "od", "paste", "pathchk", "perl", "pinky", "pr",
    "printenv", "printf", "ptx", "pwd", "python3", "readlink", "realpath", "rm", "rmdir", "runcon", "sed", "seq", "sh",
    "sha1sum", "sha224sum", "sha256sum", "sha384sum", "sha512sum", "shred", "shuf", "sleep", "sort", "split", "stat",
    "stdbuf", "stty", "sum", "sync", "tac", "tail", "tar", "tee", "test", "timeout", "touch", "tr", "true", "truncate",
    "tsort", "tty", "uname", "unexpand", "uniq", "unlink", "users", "vdir", "wc", "who", "whoami", "xargs", "yes"]

/-- The name of a program that is part of the system. -/
def program? (p : Path) : Option String :=
  if programDirectories.contains p.parent.text && programs.contains p.name then some p.name else none

def node? (p : Path) : Option Node :=
  match program? p with
  | some name => some (.program name)
  | none =>
    if p.text == "/dev/null" then some .null
    else if p.text == "/dev/zero" then some .zeros
    else if directories.contains p.text then some .directory
    else none

end System

/-- A path may have to be one of a directory, by the slash or the dot at its end. -/
def asksDirectory (s : String) : Bool :=
  match s.toList.reverse with
  | '/' :: _ | ['.'] | '.' :: '/' :: _ => true
  | _ => false

/-- Where programs find files. -/
structure Surroundings where
  directory : Path
  workspace : Workspace

namespace Surroundings

/-- The place that a path in bytes names. -/
def place (s : Surroundings) (file : String) : Path := s.directory.join (.ofText (unspelled file))

def ofEntry : Entry → Node
  | .file data executable => .file data.toList executable
  | _ => .directory

def find (s : Surroundings) (file : String) : Except FileFault Node :=
  if file == "" then .error .notFound
  else
    let p := s.place file
    let found : Except FileFault Node := match s.workspace.stat p with
      | .ok e => .ok (ofEntry e)
      | .error f => match System.node? p with
        | some n => .ok n
        | none => .error f
    match found with
    | .ok .directory => found
    | .ok _ => if asksDirectory file then .error .notDirectory else found
    | .error _ => found

def isDirectory (s : Surroundings) (file : String) : Bool :=
  match s.find file with
  | .ok .directory => true
  | _ => false

/-- The names in a directory, in the order of their bytes. -/
def names (s : Surroundings) (file : String) : List String :=
  match s.workspace.locate (s.place file) with
  | .ok l => ((s.workspace.children l.place).map fun c => spelled c.1).mergeSort fun a b => a ≤ b
  | .error _ => []

/-- A file that is written anew, or none where that is not possible. -/
def write (s : Surroundings) (file : String) (b : Bytes) : Except FileFault Workspace :=
  if file == "" then .error .notFound
  else match s.find file with
    | .ok .directory => .error .isDirectory
    | .ok .null => .ok s.workspace
    | _ =>
      if asksDirectory file then .error .isDirectory
      else match s.workspace.write (s.place file) ⟨b.toArray⟩ with
        | .ok w => .ok w
        | .error (.access f _) => .error f
        | .error _ => .error .notFound

end Surroundings

end QualityGate.Shell
