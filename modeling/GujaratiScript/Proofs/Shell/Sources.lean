import GujaratiScript.Proofs.Shell.Tree
import GujaratiScript.Shell.Command

/-!
# The source files below a folder

* `Path.steps_foldl_join` : the steps of the path of a file below a folder;
* `Files.find?_foldl_join` : that path leads to the place of the file, or is refused;
* `Node.sorted_trails`, `Node.IsTree.nodup_trails` : the files below a folder are met in order, and
  each of them once;
* `Command.sources_sorted`, `Command.sources_apart` : so are the source files that a command is
  about, and no two of their paths lead to one place.
-/

namespace GujaratiScript

namespace Path

variable {path name : String} {names : List String}

/-! ## Steps -/

/-- A name has a character. -/
theorem IsName.ne_empty (proper : IsName name) : name ≠ "" := by
  rintro rfl
  exact absurd proper.isStill (by decide)

/-- Behind a slash a name is a step of its own. -/
theorem steps_append_name (front : String) (proper : IsName name) :
    steps (front ++ "/" ++ name) = steps front ++ [name] := by
  have single := List.splitOn_eq_singleton proper.slash
  simp [steps, List.splitOn_append_cons_self, single]

/-- Behind a slash at the end there is an empty step. -/
theorem steps_append_slash (front : String) : steps (front ++ "/") = steps front ++ [""] := by
  simp [steps, List.splitOn_append_cons_self]

/-- The steps of a path, without the empty one behind a slash at its end. -/
def stem (path : String) : List String :=
  if path.endsWith '/' then (steps path).dropLast else steps path

/-- A path has the steps of its stem, and an empty one behind a slash at its end. -/
theorem steps_eq_stem_or (path : String) :
    steps path = stem path ∨ steps path = stem path ++ [""] := by
  rw [stem]
  split
  · rename_i ends
    obtain ⟨front, rfl⟩ := String.endsWith_char_iff_exists_append.1 ends
    have parts : steps (front ++ String.singleton '/') = steps front ++ [""] :=
      steps_append_slash front
    rw [parts, List.dropLast_concat]
    exact .inr rfl
  · exact .inl rfl

/-- A joined path has one step more than the stem. -/
theorem steps_join (ne : path ≠ "") (proper : IsName name) :
    steps (join path name) = stem path ++ [name] := by
  have notEmpty : path.isEmpty = false := by simpa using ne
  rw [join, stem, notEmpty, Bool.false_or]
  split
  · rename_i ends
    obtain ⟨front, rfl⟩ := String.endsWith_char_iff_exists_append.1 ends
    have parts : steps (front ++ String.singleton '/') = steps front ++ [""] :=
      steps_append_slash front
    rw [parts, List.dropLast_concat]
    exact steps_append_name front proper
  · exact steps_append_name path proper

/-- A joined path is not empty. -/
theorem join_ne_empty (proper : IsName name) : join path name ≠ "" := by
  rw [join]
  split <;> simp [proper.ne_empty]

/-- A joined path ends in the name. -/
theorem toList_join (path name : String) :
    ∃ front, (join path name).toList = front ++ name.toList := by
  rw [join]
  split
  · exact ⟨path.toList, String.toList_append⟩
  · exact ⟨(path ++ "/").toList, String.toList_append⟩

/-- The path of an entry has no slash at its end. -/
theorem stem_join (ne : path ≠ "") (proper : IsName name) :
    stem (join path name) = stem path ++ [name] := by
  have last : (join path name).endsWith '/' = false := by
    obtain ⟨front, eq⟩ := toList_join path name
    have some' : name.toList.getLast? ≠ none := by simpa using proper.ne_empty
    have other : name.toList.getLast? ≠ some '/' := fun eq' =>
      proper.slash (List.mem_of_getLast? eq')
    rw [String.endsWith_char_eq_getLast?, eq, List.getLast?_append]
    cases found : name.toList.getLast? with
    | none => exact absurd found some'
    | some c => simpa [found] using other
  rw [stem, last, if_neg (by simp), steps_join ne proper]

/-- The steps of the path of what names lead to from the folder at `path`. -/
theorem steps_foldl_join (ne : path ≠ "") (proper : IsName name)
    (others : ∀ name ∈ names, IsName name) :
    steps ((name :: names).foldl join path) = stem path ++ name :: names := by
  rw [List.foldl_cons]
  induction names generalizing path name with
  | nil => exact steps_join ne proper
  | cons next names ih =>
    obtain ⟨proper', others⟩ := List.forall_mem_cons.1 others
    rw [List.foldl_cons, ih (join_ne_empty proper) proper' others, stem_join ne proper]
    simp

/-- A joined path is absolute if the path is. -/
theorem isAbsolute_join (ne : path ≠ "") (name : String) :
    isAbsolute (join path name) = isAbsolute path := by
  obtain ⟨c, cs, eq⟩ := List.exists_cons_of_ne_nil (l := path.toList) (by simpa using ne)
  rw [isAbsolute, isAbsolute, String.startsWith_char_eq_head?, String.startsWith_char_eq_head?]
  rw [join]
  split <;> simp [eq]

/-- Many names joined behind a path leave it absolute or not, as it was. -/
theorem isAbsolute_foldl_join (ne : path ≠ "") (proper : ∀ name ∈ names, IsName name) :
    isAbsolute (names.foldl join path) = isAbsolute path := by
  induction names generalizing path with
  | nil => rfl
  | cons name names ih =>
    obtain ⟨first, others⟩ := List.forall_mem_cons.1 proper
    rw [List.foldl_cons, ih (join_ne_empty first) others, isAbsolute_join ne]

/-! ## Order -/

/-- Paths are ordered by the first step in which they differ. -/
theorem le_cons_cons (a b : String) (as bs : List String) :
    le (a :: as) (b :: bs) = true ↔ a < b ∨ a = b ∧ le as bs = true := by
  rw [le]
  split
  · rename_i eq
    simp [eq]
  · rename_i ne
    simp [ne]

/-- Of two paths, one is first. -/
theorem le_total (a b : List String) : (le a b || le b a) = true := by
  rw [Bool.or_eq_true]
  induction a generalizing b with
  | nil => exact .inl rfl
  | cons a as ih =>
    cases b with
    | nil => exact .inr rfl
    | cons b bs =>
      rw [le_cons_cons, le_cons_cons]
      by_cases lt : a < b
      · exact .inl (.inl lt)
      by_cases gt : b < a
      · exact .inr (.inl gt)
      obtain rfl := String.le_antisymm (String.not_lt.1 gt) (String.not_lt.1 lt)
      exact (ih bs).imp (fun first => .inr ⟨rfl, first⟩) fun second => .inr ⟨rfl, second⟩

/-- The order of paths is transitive. -/
theorem le_trans (a b c : List String) (first : le a b = true) (second : le b c = true) :
    le a c = true := by
  induction a generalizing b c with
  | nil => rfl
  | cons a as ih =>
    cases b with
    | nil => cases first
    | cons b bs =>
      cases c with
      | nil => cases second
      | cons c cs =>
        rw [le_cons_cons] at first second ⊢
        obtain lt | ⟨rfl, first⟩ := first
        · obtain lt' | ⟨rfl, second⟩ := second
          · exact .inl (String.lt_trans lt lt')
          · exact .inl lt
        · obtain lt' | ⟨rfl, second⟩ := second
          · exact .inl lt'
          · exact .inr ⟨rfl, ih bs cs first second⟩

/-- A common front has no part in the order. -/
theorem le_append (front a b : List String) : le (front ++ a) (front ++ b) = le a b := by
  induction front with
  | nil => rfl
  | cons name front ih => rw [List.cons_append, List.cons_append, le, if_pos rfl, ih]

end Path

namespace Node

variable {trail : List (Node × String)} {node inner root : Node} {names : List String} {name : String}

/-! ## Following names in two parts -/

/-- What a front part of the names leads to does not depend on the names behind it. -/
theorem follow_append (trail : List (Node × String)) (node : Node) (front : List String) :
    (∃ trail' node', ∀ names, follow trail node (front ++ names) = follow trail' node' names) ∨
      ∃ fault, ∀ names, follow trail node (front ++ names) = .error fault := by
  fun_induction Node.follow trail node front with
  | case1 trail node => exact .inl ⟨trail, node, fun names => rfl⟩
  | case2 => exact .inr ⟨_, fun names => rfl⟩
  | case3 _ _ _ _ still ih => simpa only [List.cons_append, follow_still still] using ih
  | case4 _ _ moves ih => simpa only [List.cons_append, follow_back_nil moves] using ih
  | case5 _ _ _ _ _ moves ih => simpa only [List.cons_append, follow_back_cons moves] using ih
  | case6 _ _ _ _ moves inward fault refused =>
    refine .inr ⟨fault, fun names => ?_⟩
    rw [List.cons_append, follow_child moves inward, refused]
    rfl
  | case7 _ _ _ _ moves inward _ child ih =>
    simpa only [List.cons_append, follow_child moves inward, child, Except.bind] using ih

/-- An empty step before a name leads nowhere else. -/
theorem follow_append_empty (trail : List (Node × String)) (node : Node)
    (front names : List String) (name : String) :
    follow trail node (front ++ "" :: name :: names) =
      follow trail node (front ++ name :: names) := by
  rcases follow_append trail node front with ⟨trail', bytes | entries, eq⟩ | ⟨fault, eq⟩
  · rw [eq, eq, follow, follow]
  · rw [eq, eq, follow_still rfl]
  · rw [eq, eq]

/-! ## Following names of a walk -/

/-- What is met in a walk is reached by proper names. -/
theorem IsTree.isName_of_mem_walk (tree : node.IsTree) (mem : (names, inner) ∈ node.walk) :
    ∀ name ∈ names, Path.IsName name := by
  induction names generalizing node with
  | nil => simp
  | cons name names ih =>
    obtain ⟨entries, rfl, e, found, rfl, below⟩ := mem_walk_cons.1 mem
    cases tree with
    | folder _ proper trees =>
      exact List.forall_mem_cons.2 ⟨proper e found, ih (trees e found) below⟩

/-- Where names of a walk lead to, if no name is too long. -/
theorem follow_of_mem_walk (tree : node.IsTree) (mem : (names, inner) ∈ node.walk)
    {place : List String} {last : Node} (found : follow trail node names = .ok (place, last)) :
    place = trailNames trail ++ names ∧ last = inner := by
  induction names generalizing trail node with
  | nil =>
    rw [follow_nil] at found
    cases found
    exact ⟨(List.append_nil _).symm, (mem_walk_nil.1 mem).symm⟩
  | cons name names ih =>
    have proper := tree.isName_of_mem_walk mem name (List.mem_cons_self)
    obtain ⟨entries, rfl, e, found', rfl, below⟩ := mem_walk_cons.1 mem
    rw [follow_child (by simp [proper.isStill]) proper.ne_back] at found
    cases child : (folder entries).child? e.name with
    | error fault =>
      rw [child] at found
      cases found
    | ok next =>
      have here := mem_walk_of_mem found'
      obtain rfl := tree.eq_of_mem_walk (mem_walk_of_child? child) here
      rw [child] at found
      simpa using ih (tree.of_mem_walk here) below found

/-! ## The files of a walk -/

/-- In a tree, a walk meets each place once. -/
theorem IsTree.nodup_walk (tree : node.IsTree) : (node.walk.map (·.1)).Nodup := by
  induction tree with
  | file bytes => simp [walk]
  | @folder entries unique proper trees ih =>
    have below (e : Entry) : (walkEntry e).map (·.1) = (e.node.walk.map (·.1)).map (e.name :: ·) := by
      cases e
      simp [walkEntry, Function.comp_def]
    rw [walk, walkEntries_eq_flatMap, List.map_cons, List.map_flatMap, List.nodup_cons,
      List.nodup_flatMap]
    simp only [below]
    refine ⟨by simp, fun e mem => (ih e mem).map (List.cons_injective), ?_⟩
    refine (List.pairwise_map.1 unique).imp fun ne => ?_
    simp only [Function.onFun, List.disjoint_left, List.mem_map]
    rintro _ ⟨_, -, rfl⟩ ⟨_, -, eq⟩
    exact ne (List.cons.inj eq).1.symm

/-- The trails are those of the files met in the walk. -/
theorem mem_trails : names ∈ node.trails ↔ ∃ bytes, (names, file bytes) ∈ node.walk := by
  simp only [trails, List.mem_mergeSort, List.mem_map, List.mem_filter]
  constructor
  · rintro ⟨⟨_, bytes | entries⟩, ⟨mem, isFile⟩, rfl⟩
    · exact ⟨bytes, mem⟩
    · cases isFile
  · rintro ⟨bytes, mem⟩
    exact ⟨(names, file bytes), ⟨mem, rfl⟩, rfl⟩

/-- Trails come in order. -/
theorem sorted_trails (node : Node) : node.trails.Pairwise (Path.le · ·) :=
  List.pairwise_mergeSort Path.le_trans Path.le_total _

/-- No file is met twice. -/
theorem IsTree.nodup_trails (tree : node.IsTree) : node.trails.Nodup :=
  (List.mergeSort_perm _ _).nodup_iff.2
    (tree.nodup_walk.sublist (List.filter_sublist.map _))

end Node

namespace Files

variable {files : Files} {path : String} {names base place : List String} {folder inner last : Node}

/-- Nothing is found under an empty path. -/
theorem ne_empty_of_find? (found : files.find? path = .ok (place, inner)) : path ≠ "" := by
  rintro rfl
  simp [find?] at found

/-- What is found under a path is reached from the root by following it. -/
theorem follow_of_find? (found : files.find? path = .ok (place, inner)) :
    Node.follow [] files.root (files.route path) = .ok (place, inner) := by
  rw [find?] at found
  split at found
  · cases found
  split at found
  · cases found
  exact found

/-- The path of what names lead to from a folder is followed as the path of the folder and then the
names. -/
theorem follow_route_foldl_join (ne : path ≠ "") (proper : ∀ name ∈ names, Path.IsName name) :
    Node.follow [] files.root (files.route (names.foldl Path.join path)) =
      Node.follow [] files.root (files.route path ++ names) := by
  cases names with
  | nil => simp
  | cons name names =>
    obtain ⟨first, others⟩ := List.forall_mem_cons.1 proper
    obtain ⟨front, eq⟩ : ∃ front : List String, ∀ path',
        Path.isAbsolute path' = Path.isAbsolute path →
          files.route path' = front ++ Path.steps path' := by
      by_cases absolute : Path.isAbsolute path = true
      · exact ⟨[], fun path' same => by simp [route, same, absolute]⟩
      · exact ⟨files.here, fun path' same => by simp [route, same, absolute]⟩
    rw [eq _ (Path.isAbsolute_foldl_join ne proper), eq path rfl,
      Path.steps_foldl_join ne first others]
    rcases Path.steps_eq_stem_or path with stem | stem
    · rw [stem, List.append_assoc]
    · rw [stem, List.append_assoc, List.append_assoc, List.singleton_append, ← List.append_assoc,
        ← List.append_assoc, Node.follow_append_empty]

/-- The path of a node below a folder leads to its place, unless it is refused. -/
theorem find?_foldl_join (tree : files.root.IsTree) (found : files.find? path = .ok (base, folder))
    (mem : (names, inner) ∈ folder.walk)
    (found' : files.find? (names.foldl Path.join path) = .ok (place, last)) :
    place = base ++ names ∧ last = inner := by
  have tree' : folder.IsTree := tree.of_mem_walk (mem_walk_of_find? found)
  have here := follow_of_find? found
  have there := follow_of_find? found'
  rw [follow_route_foldl_join (ne_empty_of_find? found) (tree'.isName_of_mem_walk mem)] at there
  rcases Node.follow_append [] files.root (files.route path) with ⟨trail, node, eq⟩ | ⟨fault, eq⟩
  · rw [← List.append_nil (files.route path), eq, Node.follow_nil] at here
    cases here
    rw [eq] at there
    exact Node.follow_of_mem_walk tree' mem there
  · rw [eq] at there
    cases there

end Files

namespace Command

variable {files : Files} {path : String} {paths : List String} {folder : Node}

/-! ## Source files -/

/-- The path of a source leads from the one given along the names. -/
theorem sourcePath?_eq_some {names : List String} {p : String}
    (eq : sourcePath? path names = some p) : p = names.foldl Path.join path := by
  rw [sourcePath?] at eq
  split at eq <;> simp_all

/-- The source files that a path stands for: the file it leads to, or those below a folder. -/
theorem sourcesAt?_cases (sources : sourcesAt? files path = some (.ok paths)) :
    paths = [path] ∨ ∃ base entries, files.find? path = .ok (base, .folder entries) ∧
      paths = (Node.folder entries).trails.filterMap (sourcePath? path) := by
  rw [sourcesAt?] at sources
  split at sources
  · cases sources
    exact .inl rfl
  · rename_i base node notFile found
    rw [Option.some.injEq, sourcesBelow] at sources
    split at sources
    · cases sources
    cases sources
    cases node with
    | file bytes => exact (notFile bytes rfl).elim
    | folder entries => exact .inr ⟨base, entries, found, rfl⟩
  · cases sources

/-- Source files are met in the order of their paths. -/
theorem sources_sorted (tree : files.root.IsTree)
    (sources : sourcesAt? files path = some (.ok paths)) :
    paths.Pairwise fun p q => Path.le (Path.steps p) (Path.steps q) = true := by
  obtain rfl | ⟨base, entries, found, rfl⟩ := sourcesAt?_cases sources
  · exact List.pairwise_singleton _ _
  have ne := Files.ne_empty_of_find? found
  have tree' := tree.of_mem_walk (Files.mem_walk_of_find? found)
  have steps (names : List String) (mem : names ∈ (Node.folder entries).trails) :
      Path.steps (names.foldl Path.join path) = Path.stem path ++ names := by
    obtain ⟨bytes, mem⟩ := Node.mem_trails.1 mem
    have proper := tree'.isName_of_mem_walk mem
    cases names with
    | nil => cases Node.mem_walk_nil.1 mem
    | cons name names =>
      obtain ⟨first, others⟩ := List.forall_mem_cons.1 proper
      exact Path.steps_foldl_join ne first others
  refine List.pairwise_filterMap.2 (List.Pairwise.imp_of_mem ?_ (Node.sorted_trails _))
  intro names names' mem mem' le p eq p' eq'
  rw [sourcePath?_eq_some eq, sourcePath?_eq_some eq', steps names mem, steps names' mem',
    Path.le_append]
  exact le

/-- Two paths that do not lead to the same place. -/
def Apart (files : Files) (p q : String) : Prop :=
  ∀ place, files.place? p = some place → files.place? q ≠ some place

/-- No two source files are at the same place. -/
theorem sources_apart (tree : files.root.IsTree)
    (sources : sourcesAt? files path = some (.ok paths)) : paths.Pairwise (Apart files) := by
  obtain rfl | ⟨base, entries, found, rfl⟩ := sourcesAt?_cases sources
  · exact List.pairwise_singleton _ _
  have tree' := tree.of_mem_walk (Files.mem_walk_of_find? found)
  refine List.pairwise_filterMap.2 (List.Pairwise.imp_of_mem ?_ tree'.nodup_trails)
  intro names names' mem mem' ne p eq p' eq'
  obtain ⟨bytes, mem⟩ := Node.mem_trails.1 mem
  obtain ⟨bytes', mem'⟩ := Node.mem_trails.1 mem'
  rw [sourcePath?_eq_some eq, sourcePath?_eq_some eq']
  intro place here here'
  obtain ⟨_, here⟩ := Files.find?_of_place? here
  obtain ⟨_, here'⟩ := Files.find?_of_place? here'
  obtain ⟨rfl, -⟩ := Files.find?_foldl_join tree found mem here
  obtain ⟨same, -⟩ := Files.find?_foldl_join tree found mem' here'
  exact ne (List.append_cancel_left same)

end Command

end GujaratiScript
