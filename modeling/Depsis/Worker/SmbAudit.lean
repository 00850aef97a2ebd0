import Depsis.Foundation.FirstSeen
import Depsis.Foundation.Text

/-! The audit lines of Samba, and the directories that are read again because of them.
-/
namespace Depsis.Worker.SmbAudit
open Depsis.Foundation

structure AuditEvent where
  share : List Char
  directory : List Char
  actor : Option (List Char)
  client : Option (List Char)

def INTERESTING : List (List Char) :=
  ["create_file".toList,"renameat".toList,"unlinkat".toList,"mkdirat".toList,"close".toList,"ftruncate".toList,
    "linkat".toList,"symlinkat".toList]

def MARKER : List Char := "smbd_audit: ".toList

def BIN : List Char := "!DEPSIS Çöp Kutusu".toList

def joined (parts : List (List Char)) : List Char := ['/'].intercalate parts

def components (path : List Char) : List (List Char) := (path.splitOn '/').filter (fun part => part ≠ [])

def trimSlashes (path : List Char) : List Char := (path.reverse.dropWhile (fun character => character = '/')).reverse

def withoutShareRoot (absolute share : List Char) : Option (List Char) :=
  match (components absolute).dropWhile (fun part => part ≠ share) with
  | [] => none
  | _::rest => some (joined rest)

def folderOf (relative : List Char) : List Char :=
  match Text.rsplitOnce '/' relative with
  | none => []
  | some (front,_) => front

def parentOf (file share : List Char) : Option (List Char) :=
  let clean := trimSlashes ((Text.stripPrefix ['.','/'] file).getD file)
  (if clean.head? = some '/' then withoutShareRoot clean share else some clean).map folderOf

def mirrored (directory : List Char) : List Char :=
  if directory = BIN then [] else (Text.stripPrefix (BIN ++ ['/']) directory).getD directory

def afterFirst (marker : List Char) : List Char → Option (List Char)
  | [] => Text.stripPrefix marker []
  | character::rest =>
    match Text.stripPrefix marker (character::rest) with
    | some after => some after
    | none => afterFirst marker rest

def named (field : List Char) : Option (List Char) := if field = [] then none else some field

def parseAuditLine (line : List Char) : List AuditEvent :=
  match (afterFirst MARKER line).map (fun fields => fields.splitOn '|') with
  | some (actor::client::share::operation::result::first::rest) =>
    if share = [] then []
    else if result ≠ "ok".toList then []
    else if !INTERESTING.contains operation then []
    else
      let files := (first::rest).filter (fun name => name ≠ [])
      if files = [] then []
      else
        let directories := (files.filterMap (fun file => parentOf file share)).map mirrored
        (directories.foldl (FirstSeen.add id) []).map (fun directory => ⟨share,directory,named actor,named client⟩)
  | _ => []

def wordCharacter (character : Char) : Bool := character.isAlphanum || character = '_'

structure ShareName where
  text : List Char
  filled : text ≠ []
  short : text.length ≤ 63
  first : text.head?.all wordCharacter = true
  plain : text.all (fun character => wordCharacter character || character = '.' || character = '-') = true

structure Header where
  before : List Char
  user : List Char
  address : List Char
  share : ShareName
  operation : List Char
  unmarked : ¬MARKER <:+: before
  plainUser : '|' ∉ user
  plainAddress : '|' ∉ address
  handled : operation ∈ INTERESTING

/-- `user|address|share|operation|ok|file`, with a second file for both ends of a rename. -/
def Header.line (header : Header) (files : List (List Char)) : List Char :=
  header.before ++ (MARKER ++
    ['|'].intercalate ([header.user,header.address,header.share.text,header.operation,"ok".toList] ++ files))

structure Component where
  text : List Char
  filled : text ≠ []
  slashless : '/' ∉ text
  barless : '|' ∉ text
  notDot : text ≠ ['.']
  notDots : text ≠ ['.','.']

inductive Spelling where
  | absolute
  | relative
  | dotted

structure Inside where
  spelling : Spelling
  path : List Component
  filled : path ≠ []

def ROOT : List (List Char) := ["srv".toList,"depsis".toList]

def Inside.file (inside : Inside) (share : ShareName) : List Char :=
  match inside.spelling with
  | .absolute => '/' :: joined (ROOT ++ share.text::inside.path.map Component.text)
  | .relative => joined (inside.path.map Component.text)
  | .dotted => '.' :: '/' :: joined (inside.path.map Component.text)

def unbinned (path : List (List Char)) : List (List Char) := if path.head? = some BIN then path.tail else path

def Inside.directory (inside : Inside) : List Char := joined (unbinned (inside.path.map Component.text).dropLast)

structure Foreign (share : ShareName) where
  file : List Char
  absolute : file.head? = some '/'
  barless : '|' ∉ file
  outside : ¬(ROOT ++ [share.text]) <+: components file

structure Wakes (header : Header) (paths : List Inside) : Prop where
  directories : ∀ directory, directory ∈ (parseAuditLine (header.line (paths.map (fun path => path.file header.share)))).map
    AuditEvent.directory ↔ ∃ path ∈ paths, path.directory = directory
  once : ((parseAuditLine (header.line (paths.map (fun path => path.file header.share)))).map AuditEvent.directory).Nodup
  fields : ∀ event ∈ parseAuditLine (header.line (paths.map (fun path => path.file header.share))),
    event.share = header.share.text ∧ event.actor = named header.user ∧ event.client = named header.address

end Depsis.Worker.SmbAudit
