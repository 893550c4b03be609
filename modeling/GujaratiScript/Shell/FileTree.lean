import GujaratiScript.Run.Fault

/-!
# Files and folders

A tree of files, a folder of it from which paths start, and paths into it.

* `Files.find?` : the node a path leads to, or why it leads to none;
* `Files.read`, `Files.store` : reading and writing a file;
* `Node.alter` : the tree with one node changed or made;
* `Node.trails` : all files below a folder, ordered name by name;
* `Path.nameLimit`, `Path.limit` : how long names and paths may be;
* `Path.extension?` : the part of a file name after its last dot.
-/

namespace GujaratiScript

mutual

/-- A file with its bytes, or a folder. -/
inductive Node where
  | file (bytes : List UInt8)
  | folder (entries : List Entry)

/-- A named node of a folder. -/
structure Entry where
  name : String
  node : Node

end

deriving instance Repr, BEq, Inhabited for Node, Entry

/-! ## Paths -/

namespace Path

/-- The names of a path. Empty ones and single dots stand for the folder they are reached in. -/
def steps (path : String) : List String :=
  (path.toList.splitOn '/').map String.ofList

/-- Whether a name leads from a folder to itself. -/
def isStill (name : String) : Bool := name == "" || name == "."

/-- The bytes that a name may have. -/
def nameLimit : Nat := 255

/-- The bytes that a path may have. -/
def limit : Nat := 4095

/-- Whether a path has more bytes than one may have. -/
def isTooLong (path : String) : Bool := limit < path.utf8ByteSize

/-- Whether a path starts from the root of the tree. -/
def isAbsolute (path : String) : Bool := path.startsWith '/'

/-- The path of an entry of the folder at `path`. -/
def join (path name : String) : String :=
  if path.isEmpty || path.endsWith '/' then path ++ name else path ++ "/" ++ name

/-- The last name of a path, unless it leads back out of a folder. -/
def fileName? (path : String) : Option String :=
  match ((steps path).filter fun name => !isStill name).getLast? with
  | some name => if name = ".." then none else some name
  | none => none

/-- The part of a name after its last dot, which is not its first character. -/
def extensionOf? (name : String) : Option String :=
  let ending := (name.toList.reverse.takeWhile (· ≠ '.')).reverse
  let before := name.length - ending.length
  if before ≤ 1 then none else some (String.ofList ending)

/-- The extension of the last name of a path. -/
def extension? (path : String) : Option String :=
  (fileName? path).bind extensionOf?

/-- The order of paths: name by name. -/
def le : List String → List String → Bool
  | [], _ => true
  | _ :: _, [] => false
  | a :: as, b :: bs => if a = b then le as bs else a < b

end Path

/-! ## Nodes -/

namespace Node

/-- The node with a name in a folder. -/
def child? (node : Node) (name : String) : Except SystemFault Node :=
  match node with
  | .file _ => .error .notADirectory
  | .folder entries =>
    if Path.nameLimit < name.utf8ByteSize then .error .invalidFilename
    else
      match entries.find? fun e => e.name == name with
      | some e => .ok e.node
      | none => .error .notFound

/-- A name that is too long is refused by every folder, whatever it holds. -/
theorem child?_of_nameLimit_lt (entries : List Entry) {name : String}
    (h : Path.nameLimit < name.utf8ByteSize) :
    (folder entries).child? name = .error .invalidFilename := by
  simp [child?, h]

/-- Follows names from a node. `trail` holds the folders passed with the names that led out of
them, the innermost first; the result holds those that lead to the node found. Outside the root is
the root again. -/
def follow (trail : List (Node × String)) (node : Node) :
    List String → Except SystemFault (List String × Node)
  | [] => .ok ((trail.map (·.2)).reverse, node)
  | name :: names =>
    match node with
    | .file _ => .error .notADirectory
    | .folder _ =>
      if Path.isStill name then follow trail node names
      else if name = ".." then
        match trail with
        | [] => follow [] node names
        | (outer, _) :: rest => follow rest outer names
      else
        match node.child? name with
        | .error fault => .error fault
        | .ok inner => follow ((node, name) :: trail) inner names

/-- The tree with a change of the node that the names lead to. Folders that are missing on the way
are made, and so is the node itself; a file on the way stays as it is. -/
def alter (change : Node → Node) : List String → Node → Node
  | [], node => change node
  | _ :: _, .file bytes => .file bytes
  | name :: names, .folder entries =>
    if entries.any fun e => e.name == name then
      .folder (entries.map fun e =>
        if e.name == name then ⟨name, alter change names e.node⟩ else e)
    else .folder (entries ++ [⟨name, alter change names (.folder [])⟩])

mutual

/-- All nodes from a node on downwards, each with the names that lead to it. -/
def walk : Node → List (List String × Node)
  | .file bytes => [([], .file bytes)]
  | .folder entries => ([], .folder entries) :: walkEntries entries
termination_by structural n => n

/-- The nodes of entries and all below them. -/
def walkEntries : List Entry → List (List String × Node)
  | [] => []
  | e :: rest => walkEntry e ++ walkEntries rest
termination_by structural l => l

/-- The node of an entry and all below it. -/
def walkEntry : Entry → List (List String × Node)
  | ⟨name, node⟩ => (walk node).map fun (names, inner) => (name :: names, inner)
termination_by structural e => e

end

/-- A walk begins at the node itself. -/
theorem walk_eq_cons (node : Node) : ∃ below, node.walk = ([], node) :: below := by
  cases node with
  | file bytes => exact ⟨[], by simp [walk]⟩
  | folder entries => exact ⟨walkEntries entries, by simp [walk]⟩

/-- Whether a node is a folder. -/
def isFolder : Node → Bool
  | .file _ => false
  | .folder _ => true

/-- The names that lead to the files below a node, ordered name by name. -/
def trails (node : Node) : List (List String) :=
  ((node.walk.filter fun (_, inner) => !inner.isFolder).map (·.1)).mergeSort Path.le

/-- The names that lead to the folders from a node on downwards. -/
def folderTrails (node : Node) : List (List String) :=
  (node.walk.filter fun (_, inner) => inner.isFolder).map (·.1)

end Node

/-! ## Trees with a place in them -/

/-- A tree of files and the names that lead to the folder where paths start. -/
structure Files where
  root : Node
  here : List String
  deriving Repr, Inhabited

namespace Files

/-- The names to follow from the root for a path. -/
def route (files : Files) (path : String) : List String :=
  if Path.isAbsolute path then Path.steps path else files.here ++ Path.steps path

/-- The node a path leads to, with the names that lead there from the root. -/
def find? (files : Files) (path : String) : Except SystemFault (List String × Node) :=
  if path.isEmpty then .error .notFound
  else if Path.isTooLong path then .error .invalidFilename
  else Node.follow [] files.root (files.route path)

/-- The bytes of the file a path leads to. -/
def read (files : Files) (path : String) : Except SystemFault (List UInt8) :=
  match files.find? path with
  | .ok (_, .file bytes) => .ok bytes
  | .ok (_, .folder _) => .error .isADirectory
  | .error fault => .error fault

/-- The files after writing to the one a path leads to. -/
def store (files : Files) (path : String) (bytes : List UInt8) : Files :=
  match files.find? path with
  | .ok (names, .file _) => ⟨files.root.alter (fun _ => .file bytes) names, files.here⟩
  | _ => files

end Files

end GujaratiScript
