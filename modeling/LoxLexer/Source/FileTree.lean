import LoxLexer.Text.Pieces
import LoxLexer.Text.Quoted

/-!
# File trees

A file tree lists files and directories by their paths from a root. A path is followed piece by
piece; what lies outside the root is a directory without known entries.
-/
namespace LoxLexer

inductive FileNode
  | file (bytes : List UInt8)
  | directory

structure FileTree where
  entries : List (String × FileNode)

/-- Why a path cannot be read as a file. -/
inductive PathFault
  | notFound
  | isDirectory
  | notDirectory
  | embeddedNull
  /-- Any other refusal of the system, with the text about it. -/
  | other (text : String)
deriving DecidableEq

/-- The message about a path. -/
def PathFault.message (path : String) : PathFault → String
  | notFound => s!"[Errno 2] No such file or directory: {quoted path}"
  | isDirectory => s!"[Errno 21] Is a directory: {quoted path}"
  | notDirectory => s!"[Errno 20] Not a directory: {quoted path}"
  | embeddedNull => "embedded null byte"
  | other text => text

/-- The pieces of a path between slashes. -/
def pathPieces (path : String) : List (List Char) := pieces '/' path.toList

/-- Whether a piece of a path leads nowhere else. -/
def isIdle (piece : List Char) : Bool := piece = [] || piece = ['.']

/-- Where a path has led so far. -/
inductive Place
  | directory (pieces : List (List Char))
  | file (bytes : List UInt8)
  | outside
  | missing

namespace FileTree

def paths (tree : FileTree) : List (List (List Char) × FileNode) :=
  tree.entries.map fun (path, node) => ((pathPieces path).filter (!isIdle ·), node)

/-- What has exactly these pieces as its path; the parents of every entry are directories. -/
def placeAt (tree : FileTree) (pieces : List (List Char)) : Place :=
  match tree.paths.lookup pieces with
  | some (.file bytes) => .file bytes
  | some .directory => .directory pieces
  | none => if tree.paths.any (pieces.isPrefixOf ·.1) then .directory pieces else .missing

/-- Follows one more piece of a path. -/
def enter (tree : FileTree) (place : Place) (piece : List Char) : Except PathFault Place :=
  match place with
  | .missing => .error .notFound
  | .file _ => .error .notDirectory
  | .outside => .ok (if isIdle piece || piece = ['.', '.'] then .outside else .missing)
  | .directory pieces =>
    .ok (if isIdle piece then .directory pieces
      else if piece = ['.', '.'] then
        (if pieces = [] then .outside else .directory pieces.dropLast)
      else tree.placeAt (pieces ++ [piece]))

def enterAll (tree : FileTree) (place : Place) : List (List Char) → Except PathFault Place
  | [] => .ok place
  | piece :: pieces =>
    match tree.enter place piece with
    | .error fault => .error fault
    | .ok next => tree.enterAll next pieces

/-- The bytes of the file at a path. -/
def read (tree : FileTree) (path : String) : Except PathFault (List UInt8) :=
  let characters := path.toList
  if characters.contains '\x00' then .error .embeddedNull
  else if characters = [] then .error .notFound
  else
    let start := if characters.head? = some '/' then Place.outside else Place.directory []
    match tree.enterAll start (pathPieces path) with
    | .error fault => .error fault
    | .ok .missing => .error .notFound
    | .ok (.file bytes) => .ok bytes
    | .ok (.directory _) => .error .isDirectory
    | .ok .outside => .error .isDirectory

theorem enter_ne_embeddedNull (tree : FileTree) (place : Place) (piece : List Char) :
    tree.enter place piece ≠ .error .embeddedNull := by
  cases place <;> simp [enter]

theorem enterAll_ne_embeddedNull (tree : FileTree) (place : Place) (pieces : List (List Char)) :
    tree.enterAll place pieces ≠ .error .embeddedNull := by
  induction pieces generalizing place with
  | nil => simp [enterAll]
  | cons piece pieces ih =>
    rw [enterAll]
    split
    · rename_i fault hfault
      rw [← hfault]
      exact tree.enter_ne_embeddedNull place piece
    · exact ih _

/-- A path that holds no NUL is not refused for one. -/
theorem read_ne_embeddedNull (tree : FileTree) {path : String} (h : '\x00' ∉ path.toList) :
    tree.read path ≠ .error .embeddedNull := by
  have hnul : ¬path.toList.contains '\x00' := by simpa using h
  simp only [read, if_neg hnul]
  generalize (if path.toList.head? = some '/' then Place.outside else .directory []) = start
  split
  · simp
  · split
    · rename_i fault hfault
      rintro ⟨⟩
      exact tree.enterAll_ne_embeddedNull start (pathPieces path) hfault
    all_goals simp

end FileTree

end LoxLexer
