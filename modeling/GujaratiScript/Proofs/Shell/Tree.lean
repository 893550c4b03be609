import Mathlib.Data.List.Nodup
import GujaratiScript.Shell.FileTree

/-!
# Trees of files

* `Node.IsTree` : the names in a folder are proper names, and no two entries share one;
* `Node.mapFiles` : the tree with the bytes of its files changed, by the names that lead to them;
* `Node.mem_walk_cons` : what a walk meets in a folder;
* `Node.follow_mapFiles` : names lead to the same places when only bytes change;
* `Node.alter_eq_mapFiles` : writing to one file changes the bytes of that file alone;
* `Files.store_eq_mapFiles` : so does storing under a path.
-/

namespace GujaratiScript

/-- Whether a name may stand in a folder: it is one step of a path, and leads neither back nor
nowhere. -/
structure Path.IsName (name : String) : Prop where
  isStill : Path.isStill name = false
  ne_back : name ≠ ".."
  slash : '/' ∉ name.toList

instance (name : String) : Decidable (Path.IsName name) :=
  decidable_of_iff (Path.isStill name = false ∧ name ≠ ".." ∧ '/' ∉ name.toList)
    ⟨fun ⟨isStill, ne_back, slash⟩ => ⟨isStill, ne_back, slash⟩,
      fun ⟨isStill, ne_back, slash⟩ => ⟨isStill, ne_back, slash⟩⟩

namespace Node

/-- A node as it stands on a disk: in each folder the entries have proper names, no two the same. -/
inductive IsTree : Node → Prop
  | file (bytes : List UInt8) : IsTree (file bytes)
  | folder {entries : List Entry} (unique : (entries.map Entry.name).Nodup)
      (names : ∀ e ∈ entries, Path.IsName e.name) (trees : ∀ e ∈ entries, e.node.IsTree) :
      IsTree (folder entries)

/-! ## Changing bytes -/

/-- How the bytes of files change, by the names that lead to the file. -/
abbrev Change := List String → List UInt8 → List UInt8

/-- The change below the folder that `names` lead to. -/
def Change.under (change : Change) (names : List String) : Change :=
  fun inner => change (names ++ inner)

/-- The change of the file alone that `names` lead to. -/
def Change.only (names : List String) (bytes : List UInt8) : Change :=
  fun others old => if others = names then bytes else old

mutual

/-- The tree with the bytes of its files changed. -/
def mapFiles : Node → Change → Node
  | .file bytes, change => .file (change [] bytes)
  | .folder entries, change => .folder (mapEntries entries change)
termination_by structural n => n

/-- The entries of a folder with the bytes of the files in them changed. -/
def mapEntries : List Entry → Change → List Entry
  | [], _ => []
  | e :: rest, change => mapEntry e change :: mapEntries rest change
termination_by structural l => l

/-- An entry with the bytes of the files in it changed. -/
def mapEntry : Entry → Change → Entry
  | ⟨name, node⟩, change => ⟨name, mapFiles node (change.under [name])⟩
termination_by structural e => e

end

variable {node inner root : Node} {entries : List Entry} {change : Change} {names : List String}
  {name : String}

theorem mapEntries_eq_map (entries : List Entry) (change : Change) :
    mapEntries entries change =
      entries.map fun e => ⟨e.name, e.node.mapFiles (change.under [e.name])⟩ := by
  induction entries with
  | nil => rfl
  | cons e rest ih =>
    cases e
    rw [mapEntries, ih, List.map_cons]
    rfl

@[simp] theorem mapFiles_file (bytes : List UInt8) (change : Change) :
    (file bytes).mapFiles change = file (change [] bytes) := rfl

@[simp] theorem mapFiles_folder (entries : List Entry) (change : Change) :
    (folder entries).mapFiles change =
      folder (entries.map fun e => ⟨e.name, e.node.mapFiles (change.under [e.name])⟩) := by
  rw [mapFiles, mapEntries_eq_map]

theorem IsTree.mapFiles (tree : node.IsTree) (change : Change) : (node.mapFiles change).IsTree := by
  induction tree generalizing change with
  | file bytes => exact .file _
  | folder unique proper trees ih =>
    rw [mapFiles_folder]
    refine .folder (by simpa [Function.comp_def] using unique) ?_ ?_
    · simpa using proper
    · simpa using fun e mem => ih e mem _

/-! ## Walks -/

theorem walkEntries_eq_flatMap (entries : List Entry) :
    walkEntries entries = entries.flatMap walkEntry := by
  induction entries with
  | nil => rfl
  | cons e rest ih => rw [walkEntries, ih, List.flatMap_cons]

/-- Without a name the walk is at the node itself. -/
@[simp] theorem mem_walk_nil : ([], inner) ∈ node.walk ↔ inner = node := by
  cases node with
  | file bytes => simp [walk]
  | folder entries =>
    simp only [walk, walkEntries_eq_flatMap, List.mem_cons, List.mem_flatMap]
    constructor
    · rintro (eq | ⟨⟨name, entry⟩, -, mem⟩)
      · exact (Prod.mk.inj eq).2
      · simp [walkEntry] at mem
    · rintro rfl
      exact .inl rfl

/-- After a name the walk is in the entry of that name. -/
theorem mem_walk_cons : (name :: names, inner) ∈ node.walk ↔
    ∃ entries, node = folder entries ∧
      ∃ e ∈ entries, e.name = name ∧ (names, inner) ∈ e.node.walk := by
  cases node with
  | file bytes => simp [walk]
  | folder entries =>
    simp only [walk, walkEntries_eq_flatMap, List.mem_cons, List.mem_flatMap, folder.injEq,
      exists_eq_left']
    constructor
    · rintro (eq | ⟨⟨name', entry⟩, mem, step⟩)
      · exact absurd (Prod.mk.inj eq).1 (List.cons_ne_nil name names)
      · obtain ⟨⟨below, node⟩, mem', eq⟩ := List.mem_map.1 step
        cases eq
        exact ⟨_, mem, rfl, mem'⟩
    · rintro ⟨⟨name', entry⟩, mem, rfl, mem'⟩
      exact .inr ⟨_, mem, List.mem_map.2 ⟨(names, inner), mem', rfl⟩⟩

/-- A walk from a node that a walk meets is part of the walk. -/
theorem mem_walk_append {further : List String} {last : Node} (here : (names, inner) ∈ node.walk)
    (there : (further, last) ∈ inner.walk) : (names ++ further, last) ∈ node.walk := by
  induction names generalizing node with
  | nil =>
    obtain rfl := mem_walk_nil.1 here
    exact there
  | cons name names ih =>
    obtain ⟨entries, rfl, e, mem, eq, below⟩ := mem_walk_cons.1 here
    exact mem_walk_cons.2 ⟨entries, rfl, e, mem, eq, ih below⟩

/-- An entry of a folder is met after its name. -/
theorem mem_walk_of_mem {e : Entry} (mem : e ∈ entries) :
    ([e.name], e.node) ∈ (folder entries).walk :=
  mem_walk_cons.2 ⟨entries, rfl, e, mem, rfl, mem_walk_nil.2 rfl⟩

/-- So is the child of a node. -/
theorem mem_walk_of_child? (child : node.child? name = .ok inner) : ([name], inner) ∈ node.walk := by
  cases node with
  | file bytes => cases child
  | folder entries =>
    simp only [child?] at child
    split at child
    · cases child
    split at child
    · rename_i e found
      cases child
      obtain rfl : e.name = name := by simpa using List.find?_some found
      exact mem_walk_of_mem (List.mem_of_find?_eq_some found)
    · cases child

theorem IsTree.unique (tree : IsTree (.folder entries)) : (entries.map Entry.name).Nodup := by
  cases tree
  assumption

/-- In a tree, the names of two entries are the same only if the entries are. -/
theorem IsTree.eq_of_name_eq (tree : IsTree (.folder entries)) {e e' : Entry} (mem : e ∈ entries)
    (mem' : e' ∈ entries) (same : e.name = e'.name) : e = e' :=
  List.inj_on_of_nodup_map tree.unique mem mem' same

/-- What a walk meets in a tree is a tree. -/
theorem IsTree.of_mem_walk (tree : node.IsTree) (mem : (names, inner) ∈ node.walk) :
    inner.IsTree := by
  induction names generalizing node with
  | nil =>
    obtain rfl := mem_walk_nil.1 mem
    exact tree
  | cons name names ih =>
    obtain ⟨entries, rfl, e, mem', -, below⟩ := mem_walk_cons.1 mem
    cases tree with
    | folder _ _ trees => exact ih (trees e mem') below

/-- In a tree, names lead to one node only. -/
theorem IsTree.eq_of_mem_walk (tree : node.IsTree) {other : Node} (mem : (names, inner) ∈ node.walk)
    (mem' : (names, other) ∈ node.walk) : inner = other := by
  induction names generalizing node with
  | nil => rw [mem_walk_nil.1 mem, mem_walk_nil.1 mem']
  | cons name names ih =>
    obtain ⟨entries, rfl, e, found, rfl, below⟩ := mem_walk_cons.1 mem
    obtain ⟨_, ⟨⟩, e', found', same, below'⟩ := mem_walk_cons.1 mem'
    obtain rfl := tree.eq_of_name_eq found' found same
    exact ih (tree.of_mem_walk (mem_walk_of_mem found)) below below'

/-! ## Changing bytes along a walk -/

/-- Only the changes of files that are there matter. -/
theorem mapFiles_congr {other : Change} (tree : node.IsTree)
    (same : ∀ names bytes, (names, file bytes) ∈ node.walk → change names bytes = other names bytes) :
    node.mapFiles change = node.mapFiles other := by
  induction tree generalizing change other with
  | file bytes => simpa using same [] bytes (mem_walk_nil.2 rfl)
  | folder _ _ _ ih =>
    simp only [mapFiles_folder, folder.injEq]
    refine List.map_congr_left fun e mem => ?_
    refine congrArg (Entry.mk e.name) (ih e mem fun names bytes below => ?_)
    exact same (e.name :: names) bytes (mem_walk_cons.2 ⟨_, rfl, e, mem, rfl, below⟩)

theorem mapFiles_same (tree : node.IsTree) : node.mapFiles (fun _ bytes => bytes) = node := by
  induction tree with
  | file bytes => rfl
  | @folder entries _ _ _ ih =>
    rw [mapFiles_folder]
    refine congrArg folder (Eq.trans (List.map_congr_left fun e mem => ?_) (List.map_id entries))
    have below := ih e mem
    cases e
    exact congrArg (Entry.mk _) below

/-- Bytes that are changed twice. -/
theorem mapFiles_mapFiles (tree : node.IsTree) (first second : Change) :
    (node.mapFiles first).mapFiles second =
      node.mapFiles fun names bytes => second names (first names bytes) := by
  induction tree generalizing first second with
  | file bytes => rfl
  | folder _ _ _ ih =>
    simp only [mapFiles_folder, List.map_map, folder.injEq]
    refine List.map_congr_left fun e mem => ?_
    exact congrArg (Entry.mk e.name) (ih e mem _ _)

/-- Writing to a file of a tree changes the bytes of that file alone. -/
theorem alter_eq_mapFiles (tree : node.IsTree) {old : List UInt8}
    (mem : (names, file old) ∈ node.walk) (bytes : List UInt8) :
    node.alter (fun _ => .file bytes) names = node.mapFiles (.only names bytes) := by
  induction names generalizing node with
  | nil =>
    obtain rfl := mem_walk_nil.1 mem
    simp [alter, Change.only]
  | cons name names ih =>
    obtain ⟨entries, rfl, e, found, rfl, below⟩ := mem_walk_cons.1 mem
    have present : (entries.any fun e' => e'.name == e.name) = true :=
      List.any_eq_true.2 ⟨e, found, beq_self_eq_true e.name⟩
    simp only [alter, if_pos present, mapFiles_folder, folder.injEq]
    refine List.map_congr_left fun e' mem' => ?_
    have tree' : e'.node.IsTree := tree.of_mem_walk (mem_walk_of_mem mem')
    -- names are unique, so the entry of that name is the one on the way and no other is touched
    by_cases same : e'.name = e.name
    · obtain rfl := tree.eq_of_name_eq mem' found same
      rw [if_pos (beq_self_eq_true e'.name), ih tree' below]
      refine congrArg (Entry.mk e'.name) (mapFiles_congr tree' fun names' bytes' _ => ?_)
      simp [Change.only, Change.under]
    · rw [if_neg (by simpa using same)]
      have untouched : e'.node.mapFiles (Change.under (.only (e.name :: names) bytes) [e'.name]) =
          e'.node := by
        refine Eq.trans (mapFiles_congr tree' fun names' bytes' _ => ?_) (mapFiles_same tree')
        simp [Change.only, Change.under, same]
      rw [untouched]
      cases e'
      rfl

/-! ## Following names -/

section Follow

variable {trail : List (Node × String)}

@[simp] theorem follow_nil (trail : List (Node × String)) (node : Node) :
    follow trail node [] = .ok ((trail.map (·.2)).reverse, node) := by
  rw [follow]

/-- Empty names and single dots lead nowhere else. -/
theorem follow_still (still : Path.isStill name) :
    follow trail (folder entries) (name :: names) = follow trail (folder entries) names := by
  rw [follow.eq_def]
  simp [still]

/-- Two dots in the root lead nowhere else. -/
theorem follow_back_nil (moves : ¬ Path.isStill "..") :
    follow [] (folder entries) (".." :: names) = follow [] (folder entries) names := by
  rw [follow.eq_def]
  simp [moves]

/-- Two dots lead back to the folder before. -/
theorem follow_back_cons (moves : ¬ Path.isStill "..") (outer : Node) :
    follow ((outer, name) :: trail) (folder entries) (".." :: names) = follow trail outer names := by
  rw [follow.eq_def]
  simp [moves]

/-- All other names lead to an entry. -/
theorem follow_child (moves : ¬ Path.isStill name) (inward : name ≠ "..") :
    follow trail (folder entries) (name :: names) =
      ((folder entries).child? name).bind fun inner =>
        follow ((folder entries, name) :: trail) inner names := by
  rw [follow.eq_def]
  simp only [if_neg moves, if_neg inward]
  cases (folder entries).child? name <;> rfl

/-- The names that led along a trail. -/
def trailNames (trail : List (Node × String)) : List String := (trail.map (·.2)).reverse

@[simp] theorem trailNames_cons (outer : Node) (name : String) (trail : List (Node × String)) :
    trailNames ((outer, name) :: trail) = trailNames trail ++ [name] := by
  simp [trailNames]

/-- `node` is where names from the root led to, out of the folders of `trail`. -/
inductive Leads (root : Node) : List (Node × String) → Node → Prop
  | root : Leads root [] root
  | child {trail : List (Node × String)} {outer inner : Node} {name : String}
      (before : Leads root trail outer) (child : outer.child? name = .ok inner) :
      Leads root ((outer, name) :: trail) inner

/-- Where names from the root led to is met on a walk from there. -/
theorem Leads.mem_walk (leads : Leads root trail node) : (trailNames trail, node) ∈ root.walk := by
  induction leads with
  | root => exact mem_walk_nil.2 rfl
  | child _ child ih =>
    rw [trailNames_cons]
    exact mem_walk_append ih (mem_walk_of_child? child)

/-- Following names leads to a place that is met on a walk. -/
theorem Leads.follow {place : List String} (leads : Leads root trail node)
    (found : follow trail node names = .ok (place, inner)) : (place, inner) ∈ root.walk := by
  fun_induction Node.follow trail node names with
  | case1 trail node =>
    cases found
    exact leads.mem_walk
  | case2 => cases found
  | case3 _ _ _ _ _ ih => exact ih leads found
  | case4 _ _ _ ih => exact ih leads found
  | case5 _ _ _ _ _ _ ih =>
    cases leads with
    | child before _ => exact ih before found
  | case6 _ _ _ _ _ _ _ refused =>
    rw [refused] at found
    cases found
  | case7 _ _ _ _ _ _ _ child ih =>
    rw [child] at found
    exact ih (leads.child child) found

/-- The child of a folder whose files have other bytes. -/
theorem child?_mapFiles (node : Node) (change : Change) (name : String) :
    (node.mapFiles change).child? name =
      (node.child? name).map fun inner => inner.mapFiles (change.under [name]) := by
  cases node with
  | file bytes => rfl
  | folder entries =>
    rw [mapFiles_folder]
    simp only [child?, List.find?_map, Function.comp_def]
    split
    · rfl
    · cases found : entries.find? fun e => e.name == name with
      | none => rfl
      | some e =>
        obtain rfl : e.name = name := by simpa using List.find?_some found
        rfl

/-- A trail in the tree whose files have other bytes. -/
def mapTrail (change : Change) : List (Node × String) → List (Node × String)
  | [] => []
  | (outer, name) :: trail =>
    (outer.mapFiles (change.under (trailNames trail)), name) :: mapTrail change trail

theorem trailNames_mapTrail (change : Change) (trail : List (Node × String)) :
    trailNames (mapTrail change trail) = trailNames trail := by
  induction trail with
  | nil => rfl
  | cons _ _ ih => rw [mapTrail, trailNames_cons, trailNames_cons, ih]

theorem Change.under_under (change : Change) (first second : List String) :
    (change.under first).under second = change.under (first ++ second) := by
  funext names
  simp [Change.under]

/-- Names lead to the same place when only bytes change. -/
theorem follow_mapFiles (change : Change) (trail : List (Node × String)) (node : Node)
    (names : List String) :
    follow (mapTrail change trail) (node.mapFiles (change.under (trailNames trail))) names =
      (follow trail node names).map fun (place, inner) =>
        (place, inner.mapFiles (change.under place)) := by
  -- the names are followed in both trees; only a file at the end is changed
  fun_induction Node.follow trail node names with
  | case1 trail node =>
    rw [follow_nil]
    exact congrArg (fun place => Except.ok (place, _)) (trailNames_mapTrail change trail)
  | case2 trail name names bytes => simp [follow, Except.map]
  | case3 trail name names entries still ih =>
    rw [mapFiles_folder] at ih ⊢
    rw [follow_still still, ih]
  | case4 names entries moves ih =>
    rw [mapFiles_folder] at ih ⊢
    rw [mapTrail] at ih ⊢
    rw [follow_back_nil moves, ih]
  | case5 names entries outer name rest moves ih =>
    rw [mapFiles_folder, mapTrail, follow_back_cons moves, ih]
  | case6 trail name names entries moves inward fault refused =>
    have refused' := child?_mapFiles (folder entries) (change.under (trailNames trail)) name
    rw [refused, mapFiles_folder] at refused'
    rw [mapFiles_folder, follow_child moves inward, refused', refused]
    rfl
  | case7 trail name names entries moves inward inner child ih =>
    have child' := child?_mapFiles (folder entries) (change.under (trailNames trail)) name
    rw [child, mapFiles_folder, Change.under_under] at child'
    rw [mapTrail, trailNames_cons, mapFiles_folder] at ih
    rw [mapFiles_folder, follow_child moves inward, child', child]
    exact ih

end Follow

end Node

/-! ## Paths into a tree -/

namespace Files

variable {files : Files} {path : String} {place : List String} {inner : Node}

/-- The files with other bytes. -/
def mapFiles (files : Files) (change : Node.Change) : Files :=
  ⟨files.root.mapFiles change, files.here⟩

theorem mapFiles_mapFiles (tree : files.root.IsTree) (first second : Node.Change) :
    (files.mapFiles first).mapFiles second =
      files.mapFiles fun names bytes => second names (first names bytes) :=
  congrArg (Files.mk · files.here) (Node.mapFiles_mapFiles tree first second)

theorem mapFiles_same (tree : files.root.IsTree) : files.mapFiles (fun _ bytes => bytes) = files :=
  congrArg (Files.mk · files.here) (Node.mapFiles_same tree)

/-- What a path leads to is met on a walk. -/
theorem mem_walk_of_find? (found : files.find? path = .ok (place, inner)) :
    (place, inner) ∈ files.root.walk := by
  rw [find?] at found
  split at found
  · cases found
  split at found
  · cases found
  exact Node.Leads.root.follow found

/-- Paths lead to the same places when only bytes change. -/
theorem find?_mapFiles (files : Files) (change : Node.Change) (path : String) :
    (files.mapFiles change).find? path =
      (files.find? path).map fun (place, inner) => (place, inner.mapFiles (change.under place)) := by
  have follows := Node.follow_mapFiles change [] files.root (files.route path)
  rw [find?, find?]
  split
  · rfl
  split
  · rfl
  exact follows

/-- Where a path leads to, if it leads anywhere. -/
def place? (files : Files) (path : String) : Option (List String) :=
  match files.find? path with
  | .ok (place, _) => some place
  | .error _ => none

theorem place?_of_find? (found : files.find? path = .ok (place, inner)) :
    files.place? path = some place := by
  rw [place?, found]

theorem find?_of_place? (eq : files.place? path = some place) :
    ∃ inner, files.find? path = .ok (place, inner) := by
  rw [place?] at eq
  split at eq
  · rename_i place' inner found
    cases eq
    exact ⟨inner, found⟩
  · cases eq

theorem place?_mapFiles (files : Files) (change : Node.Change) (path : String) :
    (files.mapFiles change).place? path = files.place? path := by
  rw [place?, place?, find?_mapFiles]
  cases files.find? path <;> rfl

/-- What is read under a path when only bytes change. -/
theorem read_mapFiles (files : Files) (change : Node.Change) (path : String) :
    (files.mapFiles change).read path =
      match files.find? path with
      | .ok (place, .file bytes) => .ok (change place bytes)
      | .ok (_, .folder _) => .error .isADirectory
      | .error fault => .error fault := by
  rw [read, find?_mapFiles]
  rcases files.find? path with fault | ⟨place, bytes | entries⟩
  · rfl
  · simp [Except.map, Node.Change.under]
  · simp [Except.map]

/-- Whatever can be read stands in a file. -/
theorem find?_of_read {bytes : List UInt8} (reads : files.read path = .ok bytes) :
    ∃ place, files.find? path = .ok (place, .file bytes) := by
  rw [read] at reads
  split at reads
  · rename_i place _ found
    cases reads
    exact ⟨place, found⟩
  all_goals cases reads

/-- Writing under a path changes the bytes of one file. -/
theorem store_eq_mapFiles (tree : files.root.IsTree) {old : List UInt8}
    (found : files.find? path = .ok (place, .file old)) (bytes : List UInt8) :
    files.store path bytes = files.mapFiles (.only place bytes) := by
  rw [store, found]
  exact congrArg (Files.mk · files.here)
    (Node.alter_eq_mapFiles tree (mem_walk_of_find? found) bytes)

end Files

end GujaratiScript
